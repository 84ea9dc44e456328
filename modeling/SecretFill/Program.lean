import SecretFill.CommandLine.Help
import SecretFill.CommandLine.Options
import SecretFill.Log.Filter
import SecretFill.Log.Line
import SecretFill.Lpass.Store
import SecretFill.Performance
import SecretFill.Report
import SecretFill.Settings.Load

namespace SecretFill

/-!
# The program

A document is read, its placeholders are filled, and the result is written.  The result alone is
printed; all else is told.

* `Program.settings` — the settings of a run: the command line, then the file, then the standard.
* `Program.fillDocument` — the job of one run.
* `Program.job` — the job of a whole command line; its result is the exit status.
-/

namespace CommandLine.Options

/-- The finest level of the log if no filter is set. -/
def logLevel (o : Options) : Log.Level :=
  if o.verbose then .debug else if o.quiet then .error else .warn

/-- The name of that level. -/
def logLevelName (o : Options) : String :=
  if o.verbose then "debug" else if o.quiet then "error" else "warn"

/-- Settings with those of the command line in their place. -/
def override (o : Options) (s : Settings) : Settings where
  command := o.command.getD s.command
  timeoutSeconds := o.timeoutSeconds.getD s.timeoutSeconds
  cachesEmpty := s.cachesEmpty
  policy := if o.keepGoing then .marker else s.policy

end CommandLine.Options

/-- The store command of some settings. -/
def Settings.storeCommand (s : Settings) : Lpass.StoreCommand :=
  ⟨s.command, s.timeout?.map (· * 1000)⟩

namespace Program

open CommandLine

/-- Whether titles are coloured: if that is forced, or if a terminal shows what is printed and
    nothing forbids colours. -/
def isColoured (e : Environment) (terminal : Bool) : Bool :=
  match e.get? "CLICOLOR_FORCE" with
  | some value =>
    value ≠ "0" || ((e.get? "NO_COLOR").isNone && terminal && e.get? "CLICOLOR" ≠ some "0")
  | none => (e.get? "NO_COLOR").isNone && terminal && e.get? "CLICOLOR" ≠ some "0"

/-- How a run speaks. -/
structure Voice where
  /-- What is logged. -/
  filter : Log.Filter
  /-- Whether titles are coloured. -/
  coloured : Bool
deriving Repr

namespace Voice

/-- A text in a colour. -/
def paint (v : Voice) (colour text : String) : String :=
  if v.coloured then s!"\x1b[{colour}m{text}\x1b[0m" else text

/-- Tells a line. -/
def line (_ : Voice) (text : String) : Job Unit := Job.ask (.tell s!"{text}\n")

/-- Tells a line with a title. -/
def titled (v : Voice) (colour title text : String) : Job Unit :=
  v.line s!"{v.paint colour title}: {text}"

/-- Tells a notice: a record if it is to be logged, and always what a command printed. -/
def note (v : Voice) : Log.Notice → Job Unit
  | .record r => if v.filter.allows r then Job.ask (.tell r.line) else return ()
  | .printed text => Job.ask (.tell text)

/-- Tells a line with a title if there is something to tell. -/
def titled? (v : Voice) (colour title : String) : Option String → Job Unit
  | some text => v.titled colour title text
  | none => return ()

/-- Tells a diagnosis. -/
def diagnosis (v : Voice) (d : Diagnosis) : Job Unit := do
  v.titled "1;31" "error" d.failure.message
  v.titled? "33" "details" d.details
  v.titled? "32" "suggestion" d.suggestion

/-- Tells a placeholder that has no value. -/
def unresolved (v : Voice) (failure : String × Failure) : Job Unit :=
  v.titled "1;33" "unresolved" s!"(({failure.1})): {failure.2.message}"

end Voice

/-- A job that may end in trouble. -/
abbrev Task := ExceptT Trouble Job

/-- A task that ends in trouble if the system reports a fault during it. -/
def during {α : Type} (job : Job (Except SystemFault α)) (text : String) : Task α :=
  ExceptT.mk do
    match ← job with
    | .ok a => return .ok a
    | .error fault => return .error ((Trouble.bare (.system fault)).during text)

/-- The document of a run. -/
def readDocument (o : Options) : Task String :=
  match o.input with
  | some path =>
    if o.readsInput then during Job.readInput "Failed to read document from stdin"
    else during (Job.readFile path) s!"Failed to read input file: {path}"
  | none => during Job.readInput "Failed to read document from stdin"

/-- Writes the result of a run. -/
def writeResult (o : Options) (text : String) : Task Unit :=
  let bytes := Text.encodeUtf8 text.toList
  match o.output with
  | some path => during (Job.ask (.write path bytes)) s!"Failed to write output file: {path}"
  | none => during (Job.ask (.print bytes)) "Failed to write to stdout"

/-- The handles of a document, one in a line. -/
def listing (document : String) : String :=
  String.join ((Placeholder.find document).map fun p => s!"{p.handle}\n")

/-- The settings of a run. -/
def settings (v : Voice) (o : Options) (config? : Option String) : Task Settings :=
  ExceptT.mk do return (← Settings.load v.note config?).map o.override

/-- Looks for the store command if a document has placeholders. -/
def ensureStore (v : Voice) (c : Lpass.StoreCommand) (document : String) : Task Unit :=
  if hasPlaceholders document then
    ExceptT.mk do
      match ← c.ensure with
      | .ok path =>
        v.note (Log.note .debug "lpass" s!"Using {path}")
        return .ok ()
      | .error e => return .error (.bare (.failure e))
  else return ()

/-- What is told of a document that is filled. -/
def filledNotice (r : Report) (cache : Cache) : Log.Notice :=
  Log.note .debug "resolver" <|
    s!"Resolved {r.resolved} placeholders from {cache.size} distinct credentials in " ++
      s!"{cache.fetches} store fetches"

/-- Fills a document. -/
def fillDocument (v : Voice) (o : Options) (s : Settings) (document : String) : Task Report :=
  ExceptT.mk do
    let walk := report s.policy document
    let (result, cache) ←
      walk.perform (s.storeCommand.fetch v.note) v.note (Cache.empty s.cachesEmpty)
    match result with
    | .ok r =>
      v.note (filledNotice r cache)
      return .ok r
    | .error e =>
      return .error ((Trouble.bare (.failure e)).during s!"Failed to resolve {o.documentName}")

/-- The trouble with a document that could not be filled as a whole. -/
def incomplete (r : Report) : Trouble :=
  .bare (.message
    s!"{r.failures.length} of {r.failures.length + r.resolved} placeholders could not be resolved")

/-- Tells what could not be filled. -/
def tellFailures (v : Voice) (r : Report) : Task Unit :=
  if r.isComplete then return ()
  else
    ExceptT.mk do
      r.failures.forM v.unresolved
      return .error (incomplete r)

/-- One run. -/
def execute (v : Voice) (o : Options) : Task Unit := do
  let document ← readDocument o
  -- A listing needs neither settings nor the store.
  if o.list then writeResult o (listing document)
  else
    let s ← settings v o o.config
    ensureStore v s.storeCommand document
    let r ← fillDocument v o s document
    writeResult o r.output
    tellFailures v r

/-- The filter of a run: that of the environment if it can be read, or else that of the command
    line. -/
def filterFor (e : Environment) (o : Options) : Log.Filter :=
  ((e.get? "RUST_LOG").bind Log.Filter.parse?).getD (.upTo o.logLevel)

/-- The run of a command line that was read; the result is the exit status. -/
def runOptions (o : Options) : Job Nat := do
  let e ← Job.environment ["RUST_LOG", "CLICOLOR_FORCE", "NO_COLOR", "CLICOLOR"]
  let terminal ← Job.ask .isTerminal
  let v : Voice := ⟨filterFor e o, isColoured e terminal⟩
  match ← (execute v o).run with
  | .ok () => return 0
  | .error trouble =>
    v.diagnosis trouble.diagnosis
    return 1

/-- What is done for a command line that ends early. -/
def stop (config? : Option String) : Stop → Job Nat
  | .usage e => do
    Job.ask (.tell (refusal e.message))
    return 2
  -- That a help or a version cannot be printed is no trouble.
  | .help isLong => do
    let _ ← Job.ask (.print (Text.encodeUtf8 (help isLong (config?.getD "")).toList))
    return 0
  | .version => do
    let _ ← Job.ask (.print (Text.encodeUtf8 versionLine.toList))
    return 0

/-- The job of a command line; the result is the exit status. -/
def job (arguments : List String) : Job Nat := do
  let config? ← Job.ask (.lookUp configVariable)
  match Options.parse config? arguments with
  | .ok o => runOptions o
  | .error early => stop config? early

end Program

end SecretFill
