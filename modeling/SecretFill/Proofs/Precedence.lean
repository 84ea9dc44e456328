import SecretFill.Proofs.Diagnostics
import SecretFill.Proofs.SettingsFiles

namespace SecretFill

/-!
# Which settings hold

A setting is the one of the command line if it is given there, or else the one of the settings file,
or else the standard one.  A settings file that is there but cannot be read stops the run, whatever
the command line says.

* `Settings.pathFor_congr` — the path of the file depends on the variables that are looked up.
* `Machine.Consults` — the table that holds for a path: that of the file, or none.
* `Settings.load_ok_iff` — the settings that are loaded.
* `Settings.outcome_timedOut_iff` — when a fetch takes too long.
* `Settings.IsChosen` — the settings of a command line and the entries of a file.
* `Program.settings_ok_iff` — the settings that a run has; `Program.settings_ok_iff_of_read` — those
  that it has of a text.
* `settings_precedence` — the settings of a run, and what is done with them.
-/

open CommandLine (Options)

/-! ### Paths -/

namespace Path

variable {e e' : Environment}

/-- Only the variables to which pieces refer are looked up. -/
theorem substitute_congr {row : List Piece}
    (h : ∀ name default?, .reference name default? ∈ row → e.get? name = e'.get? name) :
    substitute e row = substitute e' row := by
  induction row with
  | nil => rfl
  | cons piece rest ih =>
    have hrest := ih fun name default? hmem => h name default? (List.mem_cons_of_mem _ hmem)
    cases piece with
    | literal c => rw [substitute, substitute, hrest]
    | reference name default? =>
      rw [substitute, substitute, hrest, h name default? List.mem_cons_self]

theorem expandHome_congr (h : e.home = e'.home) (cs : List Char) :
    expandHome e cs = expandHome e' cs := by
  unfold expandHome
  rw [h]

end Path

namespace Settings

variable {e e' : Environment}

/-- **The path of the settings file** depends on the variables that are looked up for it. -/
theorem pathFor_congr {config? : Option String}
    (h : ∀ name ∈ variablesFor config?, e.get? name = e'.get? name) :
    pathFor e config? = pathFor e' config? := by
  have hhome : e.home = e'.home := by
    unfold Environment.home
    rw [h "HOME" List.mem_cons_self]
  cases config? with
  | none =>
    show Except.ok (defaultPath e) = Except.ok (defaultPath e')
    unfold defaultPath
    rw [hhome]
  | some path =>
    have hexpanded : Path.expandVariables e path.toList = Path.expandVariables e' path.toList := by
      refine Path.substitute_congr fun name default? hmem => h name (List.mem_cons_of_mem _ ?_)
      exact List.mem_filterMap.2 ⟨_, hmem, rfl⟩
    show (Path.expand e path).mapError _ = (Path.expand e' path).mapError _
    unfold Path.expand
    simp only [hexpanded, Path.expandHome_congr hhome]

end Settings

/-! ### Settings files -/

/-- The table that holds for the path of a settings file.  If nothing is there it is empty; otherwise
    there must be a text that is TOML. -/
inductive Machine.Consults (m : Machine) (path : String) : Toml.Entries → Prop where
  /-- Nothing is there. -/
  | missing (h : ∀ n, m.find path ≠ .ok n) : Consults m path []
  /-- There is a text. -/
  | written {content : List UInt8} {text : List Char} {entries : Toml.Entries}
    (hread : m.read path = .ok content)
    (htext : Text.decodeUtf8 content = .ok text)
    (htoml : Toml.read? (String.ofList text) = some entries) : Consults m path entries

/-- Where a file can be read there is something. -/
theorem Machine.exists_find_of_read {m : Machine} {path : String} {content : List UInt8}
    (h : m.read path = .ok content) : ∃ n, m.find path = .ok n := by
  unfold read Node.read at h
  unfold find
  cases hfind : m.tree.find (m.start path) path with
  | ok n => exact ⟨n, rfl⟩
  | error fault =>
    rw [hfind] at h
    cases h

/-- The table that holds for a path at which there is a text is that of the text. -/
theorem Machine.consults_iff {m : Machine} {path : String} {content : List UInt8} {text : List Char}
    (hread : m.read path = .ok content) (htext : Text.decodeUtf8 content = .ok text)
    {entries : Toml.Entries} :
    m.Consults path entries ↔ Toml.read? (String.ofList text) = some entries := by
  constructor
  · intro h
    cases h with
    | missing hmissing =>
      obtain ⟨n, hn⟩ := Machine.exists_find_of_read hread
      exact absurd hn (hmissing n)
    | written hread' htext' htoml =>
      obtain rfl := Except.ok.inj (hread.symm.trans hread')
      obtain rfl := Except.ok.inj (htext.symm.trans htext')
      exact htoml
  · exact .written hread htext

/-- No key stands twice in a table that holds. -/
theorem Machine.Consults.distinct {m : Machine} {path : String} {entries : Toml.Entries}
    (h : m.Consults path entries) : entries.Distinct := by
  cases h with
  | missing => exact .nil
  | written hread htext htoml => exact Toml.distinct_of_read? htoml

namespace Settings

variable {m : Machine} {path : String} {s : Settings}

/-- **A file has settings** iff it can be read and its text has some. -/
theorem loadFile_ok_iff :
    ((loadFile path).run m).1 = .ok s ↔
      ∃ content text, m.read path = .ok content ∧
        Text.decodeUtf8 content = .ok text ∧ parse (String.ofList text) = .ok s := by
  have hasked : (Job.ask (.read path)).run m = (m.read path, m) := rfl
  unfold loadFile Job.readFile
  rw [Job.run_bind, Job.run_bind, hasked]
  cases hread : m.read path with
  | error fault => simp
  | ok content =>
    cases htext : Text.decodeUtf8 content with
    | error fault => simp [htext]
    | ok text => cases hparse : parse (String.ofList text) <;> simp [htext, hparse]

/-- Settings are loaded from a file if there is one at the path. -/
theorem load_run (v : Program.Voice) (config? : Option String) (m : Machine) :
    ((load v.note config?).run m).1 = (pathFor m.environment config?).bind fun path =>
      if (m.find path).toBool then ((loadFile path).run m).1 else .ok standard := by
  obtain ⟨e, henvironment, hget⟩ := Job.environment_run (variablesFor config?) m
  have hpath : pathFor e config? = pathFor m.environment config? := by
    refine pathFor_congr fun name hname => ?_
    rw [hget, if_pos hname]
  unfold load
  rw [Job.run_bind, henvironment, ← hpath]
  cases pathFor e config? with
  | error trouble => rfl
  | ok path =>
    have hasked : (Job.ask (.isThere path)).run m = ((m.find path).toBool, m) := rfl
    show (Job.run (Job.ask (.isThere path) >>= fun _ => _) m).1 = if _ then _ else _
    rw [Job.run_bind, hasked]
    cases (m.find path).toBool with
    | true =>
      -- What is told before the file is read does not change it.
      have hnote := v.note_tells (loadingNotice s!"Loading config from {path}") m
      obtain ⟨told, hload⟩ := (loadFile path).run_told m
        (m.told ++ v.texts (loadingNotice s!"Loading config from {path}"))
      show (Job.run (v.note _ >>= fun _ => loadFile path) m).1 = _
      have hresult := congrArg Prod.fst hload
      rw [Job.run_bind, hnote]
      exact hresult
    | false =>
      have hnote := v.note_tells (loadingNotice s!"No config at {path}, using defaults") m
      show (Job.run (v.note _ >>= fun _ => (pure (.ok standard) : Job (Except Trouble Settings)))
        m).1 = .ok standard
      rw [Job.run_bind, hnote]
      rfl

/-- What is told does not change the settings that are loaded. -/
theorem load_voice (v v' : Program.Voice) (config? : Option String) (m : Machine) :
    ((load v.note config?).run m).1 = ((load v'.note config?).run m).1 := by
  rw [load_run, load_run]

/-- **The settings that are loaded** are those of the table that holds for the path, if its entries
    fit. -/
theorem load_ok_iff (v : Program.Voice) (config? : Option String) :
    ((load v.note config?).run m).1 = .ok s ↔
      ∃ path entries, pathFor m.environment config? = .ok path ∧ m.Consults path entries ∧
        Fits entries ∧ s = standard.overlay entries := by
  rw [load_run]
  cases hpath : pathFor m.environment config? with
  | error trouble => simp [Except.bind]
  | ok path =>
    show (if (m.find path).toBool then _ else _) = _ ↔ _
    -- A file that is not there leaves the standard settings; one that is there has to be read.
    cases hfind : m.find path with
    | error fault =>
      constructor
      · rintro ⟨⟩
        exact ⟨path, [], rfl, .missing (by simp [hfind]), List.forall_mem_nil _, rfl⟩
      · rintro ⟨_, entries, ⟨⟩, hconsults, -, rfl⟩
        cases hconsults with
        | missing => rfl
        | written hread =>
          obtain ⟨n, hn⟩ := Machine.exists_find_of_read hread
          rw [hn] at hfind
          cases hfind
    | ok n =>
      show ((loadFile path).run m).1 = .ok s ↔ _
      rw [loadFile_ok_iff]
      constructor
      · rintro ⟨content, text, hread, htext, hparse⟩
        obtain ⟨entries, htoml, hfits, hs⟩ := parse_eq_ok_iff.1 hparse
        exact ⟨path, entries, rfl, .written hread htext htoml, hfits, hs⟩
      · rintro ⟨_, entries, ⟨⟩, hconsults, hfits, hs⟩
        cases hconsults with
        | missing hmissing => exact absurd hfind (hmissing n)
        | written hread htext htoml =>
          exact ⟨_, _, hread, htext, parse_eq_ok_iff.2 ⟨entries, htoml, hfits, hs⟩⟩

/-! ### What is done with settings -/

/-- **A fetch takes too long** if there is a limit and its command pauses for as long; a limit of zero
    seconds is none. -/
theorem outcome_timedOut_iff (s : Settings) (key : Key) (run : Run) :
    (s.storeCommand.reply key (.ok run)).outcome
        = .error (.timedOut key.entry key.field s.timeoutSeconds) ↔
      s.timeoutSeconds ≠ 0 ∧ s.timeoutSeconds * 1000 ≤ run.pause := by
  -- What a command does in time is no reason to say that it was late.
  have hprompt : s.storeCommand.outcome key run
      ≠ .error (.timedOut key.entry key.field s.timeoutSeconds) := by
    unfold Lpass.StoreCommand.outcome
    split
    · simp
    · split <;> simp
  have hlimit : s.storeCommand.limit?.filter (· ≤ run.pause)
      = if s.timeoutSeconds ≠ 0 ∧ s.timeoutSeconds * 1000 ≤ run.pause
        then some (s.timeoutSeconds * 1000) else none := by
    show (s.timeout?.map (· * 1000)).filter _ = _
    unfold timeout?
    by_cases hzero : s.timeoutSeconds = 0
    · rw [if_pos hzero, if_neg fun h => h.1 hzero]
      rfl
    · rw [if_neg hzero, Option.map_some, Option.filter_some]
      simp [hzero]
  show (s.storeCommand.replyOfRun key run).outcome = _ ↔ _
  unfold Lpass.StoreCommand.replyOfRun
  rw [hlimit]
  by_cases hlate : s.timeoutSeconds ≠ 0 ∧ s.timeoutSeconds * 1000 ≤ run.pause
  · rw [if_pos hlate]
    show Except.error (Failure.timedOut _ _ (s.timeoutSeconds * 1000 / 1000)) = _ ↔ _
    rw [Nat.mul_div_cancel _ (by decide)]
    exact ⟨fun _ => hlate, fun _ => rfl⟩
  · rw [if_neg hlate]
    exact ⟨fun h => absurd h hprompt, fun h => absurd h hlate⟩

/-- The settings that a command line and the entries of a file make: each is the one of the command
    line if it is given there, or else the value that the file has for its key, or else the standard
    one. -/
structure IsChosen (o : Options) (entries : Toml.Entries) (s : Settings) : Prop where
  /-- The store command. -/
  command : s.command = (o.command.or (given? text? entries "lpass_command")).getD "lpass"
  /-- The limit of a fetch. -/
  timeoutSeconds : s.timeoutSeconds
    = (o.timeoutSeconds.or (given? seconds? entries "timeout_secs")).getD 300
  /-- Whether an empty secret counts as cached; no option says so. -/
  cachesEmpty : s.cachesEmpty = (given? flag? entries "cache_empty_values").getD true
  /-- The policy; an option can only ask for markers. -/
  policy : s.policy
    = if o.keepGoing then .marker else (given? policy? entries "on_error").getD .abort

/-- These are the settings of the file, overridden by the command line. -/
theorem isChosen_iff {o : Options} {entries : Toml.Entries} {s : Settings} :
    s.IsChosen o entries ↔ s = o.override (standard.overlay entries) := by
  have hor : ∀ {β : Type} (given file? : Option β) (b : β),
      given.getD (file?.getD b) = (given.or file?).getD b := by
    intro β given file? b
    cases given <;> rfl
  constructor
  · rintro ⟨hcommand, hseconds, hcaches, hpolicy⟩
    obtain ⟨command, seconds, caches, policy⟩ := s
    rw [← hor] at hcommand hseconds
    exact Settings.mk.injEq .. ▸ ⟨hcommand, hseconds, hcaches, hpolicy⟩
  · rintro rfl
    exact ⟨hor .., hor .., rfl, rfl⟩

end Settings

namespace Program

variable {m : Machine} {s : Settings}

/-- The settings of a run are those that are loaded, overridden by the command line. -/
theorem settings_run (v : Voice) (o : Options) (config? : Option String) (m : Machine) :
    ((settings v o config?).run.run m).1
      = ((Settings.load v.note config?).run m).1.map o.override := by
  show (Job.run (Settings.load v.note config? >>= fun _ => _) m).1 = _
  rw [Job.run_bind]
  rfl

/-- **A run has settings** iff the entries of the table that holds fit; they are those of the table,
    overridden by the command line. -/
theorem settings_ok_iff (v : Voice) (o : Options) (config? : Option String) :
    ((settings v o config?).run.run m).1 = .ok s ↔
      ∃ path entries, Settings.pathFor m.environment config? = .ok path ∧
        m.Consults path entries ∧ Settings.Fits entries ∧
        s = o.override (Settings.standard.overlay entries) := by
  rw [settings_run]
  -- The command line overrides settings that were loaded, and does so without fail.
  constructor
  · intro h
    cases hloaded : ((Settings.load v.note config?).run m).1 with
    | error trouble =>
      rw [hloaded] at h
      cases h
    | ok base =>
      obtain ⟨path, entries, hpath, hconsults, hfits, rfl⟩ :=
        (Settings.load_ok_iff v config?).1 hloaded
      rw [hloaded] at h
      cases h
      exact ⟨path, entries, hpath, hconsults, hfits, rfl⟩
  · rintro ⟨path, entries, hpath, hconsults, hfits, rfl⟩
    rw [(Settings.load_ok_iff v config?).2 ⟨path, entries, hpath, hconsults, hfits, rfl⟩]
    rfl

/-- **The settings that a run has of a text** are those of the text, overridden by the command
    line. -/
theorem settings_ok_iff_of_read (v : Voice) (o : Options) {config? : Option String} {path : String}
    {content : List UInt8} {text : List Char}
    (hpath : Settings.pathFor m.environment config? = .ok path) (hread : m.read path = .ok content)
    (htext : Text.decodeUtf8 content = .ok text) :
    ((settings v o config?).run.run m).1 = .ok s ↔
      ∃ base, Settings.parse (String.ofList text) = .ok base ∧ s = o.override base := by
  rw [settings_ok_iff]
  constructor
  · rintro ⟨path', entries, hpath', hconsults, hfits, rfl⟩
    obtain rfl := Except.ok.inj (hpath.symm.trans hpath')
    have htoml := (Machine.consults_iff hread htext).1 hconsults
    exact ⟨_, Settings.parse_eq_ok_iff.2 ⟨entries, htoml, hfits, rfl⟩, rfl⟩
  · rintro ⟨base, hparse, rfl⟩
    obtain ⟨entries, htoml, hfits, rfl⟩ := Settings.parse_eq_ok_iff.1 hparse
    exact ⟨path, entries, hpath, (Machine.consults_iff hread htext).2 htoml, hfits, rfl⟩

end Program

/-- **Which settings hold.**  A run has settings iff the path of the settings file can be expanded
    and there is nothing at it, or else a text that is TOML and all of whose entries fit: their keys
    are among the four, and their values are of the type of their keys.  Then each setting is the one
    of the command line if it is given there, or else the value that the file has for its key, or
    else the standard one.  No key stands twice, and the value of a key is that of its only entry, so
    this does not depend on other entries, nor on their order.

    Otherwise the run ends with a trouble that is the same whatever is given on the command line.

    The entries of a file of plain lines are what these lines give to their keys, in any order and
    with any comments and blanks; a key that stands twice is a trouble.  So is, whatever follows it in
    the file, a line with another key or a value of the wrong type, and one that is broken.

    A document is filled with these settings: by their policy, over an empty cache for which empty
    secrets count as they say, and over the store of their command; a fetch may take as long as they
    say, or as long as it likes if they say zero. -/
theorem settings_precedence (config? : Option String) (m : Machine) :
    (∀ (v : Program.Voice) (o : Options) s,
      ((Program.settings v o config?).run.run m).1 = .ok s ↔
        ∃ path entries, Settings.pathFor m.environment config? = .ok path ∧
          m.Consults path entries ∧ Settings.Fits entries ∧ s.IsChosen o entries) ∧
    (∀ path entries, m.Consults path entries → entries.Distinct ∧ ∀ name value,
      entries.find? name = some value ↔ ∃ key, (key, value) ∈ entries ∧ key.text = name) ∧
    ((∀ path entries, Settings.pathFor m.environment config? = .ok path →
        m.Consults path entries → ¬ Settings.Fits entries) →
      ∃ trouble, ∀ (v : Program.Voice) (o : Options),
        ((Program.settings v o config?).run.run m).1 = .error trouble) ∧
    (∀ path content lines last, Settings.pathFor m.environment config? = .ok path →
      m.read path = .ok content → Text.decodeUtf8 content = .ok (Toml.source lines last) →
      let given := Toml.givenBy (lines ++ [last])
      ∀ (v : Program.Voice) (o : Options) s,
        ((Program.settings v o config?).run.run m).1 = .ok s ↔
          (Toml.namesOf given).Nodup ∧ Settings.Fits (Settings.entriesFor given) ∧
            s.IsChosen o (Settings.entriesFor given)) ∧
    (∀ path content lines rest, Settings.pathFor m.environment config? = .ok path →
      m.read path = .ok content → Text.decodeUtf8 content = .ok (Toml.written lines ++ rest) →
      (¬ (Toml.namesOf (Toml.givenBy lines)).Nodup ∨
        ¬ Settings.Fits (Settings.entriesFor (Toml.givenBy lines)) ∨
        ∃ (indent : Toml.Gap) (broken : List Char),
          rest = indent.chars ++ broken ∧ Toml.IsBroken broken) →
      ∃ trouble, ∀ (v : Program.Voice) (o : Options),
        ((Program.settings v o config?).run.run m).1 = .error trouble) ∧
    ∀ (s : Settings) (v : Program.Voice) (o : Options) (document : String),
      ((Program.fillDocument v o s document).run.run m).1
        = ((report s.policy document).run s.storeCommand.store
            ⟨.empty s.cachesEmpty, m⟩).result.mapError (fun failure =>
              (Trouble.bare (.failure failure)).during s!"Failed to resolve {o.documentName}") ∧
      ∀ key, (s.storeCommand.store key m).2 = (m.launch s.command (Lpass.showArguments key)).2 ∧
        ∀ run, (s.storeCommand.reply key (.ok run)).outcome
            = .error (.timedOut key.entry key.field s.timeoutSeconds) ↔
          s.timeoutSeconds ≠ 0 ∧ s.timeoutSeconds * 1000 ≤ run.pause := by
  have htrouble : (∀ path entries, Settings.pathFor m.environment config? = .ok path →
      m.Consults path entries → ¬ Settings.Fits entries) →
      ∃ trouble, ∀ (v : Program.Voice) (o : Options),
        ((Program.settings v o config?).run.run m).1 = .error trouble := by
    intro hunfit
    -- What is loaded depends neither on the voice nor on the command line.
    cases hloaded : ((Settings.load Program.silent.note config?).run m).1 with
    | error trouble =>
      refine ⟨trouble, fun v o => ?_⟩
      rw [Program.settings_run, Settings.load_voice v Program.silent, hloaded]
      rfl
    | ok base =>
      obtain ⟨path, entries, hpath, hconsults, hfits, -⟩ :=
        (Settings.load_ok_iff Program.silent config?).1 hloaded
      exact absurd hfits (hunfit path entries hpath hconsults)
  refine ⟨fun v o s => ?_,
    fun path entries hconsults =>
      ⟨hconsults.distinct, fun name value => hconsults.distinct.find?_eq_some_iff⟩,
    htrouble, fun path content lines last hpath hread htext => ?_,
    fun path content lines rest hpath hread htext hspoilt => htrouble ?_,
    fun s v o document => ⟨?_, fun key => ⟨rfl, s.outcome_timedOut_iff key⟩⟩⟩
  · simp only [Settings.isChosen_iff]
    exact Program.settings_ok_iff v o config?
  · intro given v o s
    rw [Program.settings_ok_iff_of_read v o hpath hread htext, Settings.isChosen_iff]
    constructor
    · rintro ⟨base, hparse, rfl⟩
      obtain ⟨hnodup, hfits, rfl⟩ := (Settings.parse_source_iff lines last).1 hparse
      exact ⟨hnodup, hfits, rfl⟩
    · rintro ⟨hnodup, hfits, rfl⟩
      exact ⟨_, (Settings.parse_source_iff lines last).2 ⟨hnodup, hfits, rfl⟩, rfl⟩
  · intro path' entries hpath' hconsults hfits
    obtain rfl := Except.ok.inj (hpath.symm.trans hpath')
    have htoml := (Machine.consults_iff hread htext).1 hconsults
    exact Settings.parse_written_ne_ok hspoilt _
      (Settings.parse_eq_ok_iff.2 ⟨entries, htoml, hfits, rfl⟩)
  · rw [Program.fillDocument_run]

/-- The file in the home directory, which is not below the folder of the run: its values hold but
    for the limit, which the command line sets; with a negative limit in it nothing helps. -/
theorem settings_precedence_home :
    let machine (text : String) : Machine :=
      { environment := ⟨[("HOME", "/root")]⟩
        location := "/work"
        folder := .folder []
        outside := .folder [("root", .folder [(".lpass-resolve", .folder [("config.toml",
          .file (Text.encodeUtf8 text.toList))])])]
        input := []
        printed := []
        told := []
        calls := [] }
    let o : Options :=
      { input := none, output := none, list := false, keepGoing := false, timeoutSeconds := some 5
        command := none, config := none, verbose := false, quiet := false }
    let text := "on_error = \"marker\" # go on\ntimeout_secs = 60\nlpass_command = '/opt/lpass'\n"
    let spoilt := "timeout_secs = -1\n[more]\n"
    (∀ v, ((Program.settings v o none).run.run (machine text)).1
        = .ok ⟨"/opt/lpass", 5, true, .marker⟩) ∧
      ∃ trouble, ∀ v, ((Program.settings v o none).run.run (machine spoilt)).1 = .error trouble := by
  intro machine o text spoilt
  let blank : Toml.Gap := ⟨[], List.all_eq_true.1 rfl⟩
  let space : Toml.Gap := ⟨[' '], List.all_eq_true.1 rfl⟩
  let assign (name : String) (bare : Toml.IsBareKey name) (value : Toml.Literal) : Toml.Assignment :=
    ⟨name, bare, space, space, value⟩
  let line (a : Toml.Assignment) : Toml.Line := ⟨blank, some a, blank, none⟩
  let policy := assign "on_error" ⟨by decide, List.all_eq_true.1 (by decide)⟩
    (.quoted "marker" (by decide))
  let limit (n : Int) :=
    assign "timeout_secs" ⟨by decide, List.all_eq_true.1 (by decide)⟩ (.integer n)
  let command := assign "lpass_command" ⟨by decide, List.all_eq_true.1 (by decide)⟩
    (.exact "/opt/lpass" fun c hc => by
      have hall : ("/opt/lpass".toList.all fun c => Toml.isText c && c ≠ '\'') = true := by decide
      simpa using List.all_eq_true.1 hall c hc)
  refine ⟨fun v => ?_, ?_⟩
  · obtain ⟨-, -, -, hplain, -⟩ := settings_precedence none (machine text)
    let lines : List Toml.Line :=
      [⟨blank, some policy, space, some ⟨" go on".toList, List.all_eq_true.1 (by decide)⟩⟩,
        line (limit 60), line command]
    refine (hplain "/root/.lpass-resolve/config.toml" (Text.encodeUtf8 text.toList) lines
      ⟨blank, none, blank, none⟩ (by decide) (by decide +kernel) (by decide +kernel) v o _).2
      ⟨by decide, by decide, ?_⟩
    exact ⟨by decide, by decide, by decide, by decide⟩
  · obtain ⟨-, -, -, -, hspoilt, -⟩ := settings_precedence none (machine spoilt)
    obtain ⟨trouble, hfails⟩ := hspoilt "/root/.lpass-resolve/config.toml"
      (Text.encodeUtf8 spoilt.toList) [line (limit (-1))] "[more]\n".toList (by decide)
      (by decide +kernel) (by decide +kernel) (.inr (.inl (by decide)))
    exact ⟨trouble, fun v => hfails v o⟩

end SecretFill
