import SecretFill.Job
import SecretFill.Machine.Environment
import SecretFill.Machine.Folder
import SecretFill.Machine.Capacity

namespace SecretFill

/-!
# Machines

A machine is what a job can see and change of its surroundings.  Its input may be unreadable, and
what is printed or written may be too much for it; what it took before that stays.

* `Machine` — the state; what was printed, told and run is kept in order.
* `Machine.find`, `Machine.destination` — what a path stands for, and the file that is written there.
* `Machine.print`, `Machine.write` — bytes are put somewhere, as far as they are taken.
* `Machine.executable`, `Machine.locate` — the program that a name stands for.
* `Machine.answer` — the answer to a request; `Job.run` runs a whole job.
-/

/-- The surroundings of a job. -/
structure Machine where
  /-- The variables. -/
  environment : Environment
  /-- The absolute path of the folder in which the job runs. -/
  location : String
  /-- The folder in which the job runs. -/
  folder : Node
  /-- All else that there is, from the top. -/
  outside : Node := .folder []
  /-- The bytes given to the job. -/
  input : List UInt8
  /-- Why these bytes cannot be read, if they cannot. -/
  inputFault? : Option SystemFault := none
  /-- How much can be printed. -/
  outlet : Capacity := .endless
  /-- How much can be written to files. -/
  disk : Capacity := .endless
  /-- Whether what is printed goes to a terminal. -/
  terminal : Bool := false
  /-- The bytes printed so far. -/
  printed : List UInt8
  /-- The texts told so far. -/
  told : List String
  /-- The lists of arguments with which programs were run so far. -/
  calls : List (List String)
deriving Inhabited

namespace Machine

/-! ### Input and files -/

/-- The bytes given to the job, if they can be read. -/
def given (m : Machine) : Except SystemFault (List UInt8) :=
  match m.inputFault? with
  | some fault => .error fault
  | none => .ok m.input

/-- The names from the top to the folder of the machine. -/
def base (m : Machine) : List String := Path.parts m.location

/-- All that there is, from the top: the folder of the machine stands at its location. -/
def tree (m : Machine) : Node := m.outside.put m.base m.folder

/-- Whether a path begins with the location of the machine. -/
def isHere (m : Machine) (path : String) : Bool :=
  path = m.location || (m.location.toList ++ ['/']).isPrefixOf path.toList

/-- The names from which on a path is followed: an absolute one leads from the top, and so does one
    that begins with the location. -/
def start (m : Machine) (path : String) : List String :=
  if Path.isAbsolute path || m.isHere path then [] else m.base

/-- What a path stands for. -/
def find (m : Machine) (path : String) : Except SystemFault Node := m.tree.find (m.start path) path

/-- The content of the file at a path. -/
def read (m : Machine) (path : String) : Except SystemFault (List UInt8) :=
  m.tree.read (m.start path) path

/-- The names from the top to the file that is written under a path. -/
def destination (m : Machine) (path : String) : Except SystemFault (List String) :=
  m.tree.destination (m.start path) path

/-- Whether names lead into the folder of the machine. -/
def isInside (m : Machine) (names : List String) : Bool := m.base.isPrefixOf names

/-- Puts something under some names. -/
def put (m : Machine) (names : List String) (new : Node) : Machine :=
  { m with
    folder := if m.isInside names then m.folder.put (names.drop m.base.length) new else m.folder
    outside := if m.isInside names then m.outside else m.outside.put names new }

/-- Writes the file under some names, and makes it if it is not there.  It is emptied first, so it
    then has what is taken. -/
def save (m : Machine) (names : List String) (content : List UInt8) : Machine :=
  { m.put names (.file (m.disk.taken content)) with disk := m.disk.left content }

/-- Writes the file at a path, if there can be one. -/
def write (m : Machine) (path : String) (content : List UInt8) :
    Except SystemFault Unit × Machine :=
  match m.destination path with
  | .ok names => (m.disk.result content, m.save names content)
  | .error fault => (.error fault, m)

/-- Prints bytes, as far as they are taken. -/
def print (m : Machine) (content : List UInt8) : Except SystemFault Unit × Machine :=
  (m.outlet.result content,
    { m with printed := m.printed ++ m.outlet.taken content, outlet := m.outlet.left content })

/-! ### Programs -/

/-- The folders that a search path names. -/
def foldersOf (path? : Option String) : List String :=
  match path? with
  | some path => (components ':' path.toList).map String.ofList
  | none => []

/-- The folders in which programs are looked for. -/
def searchPath (m : Machine) : List String := foldersOf (m.environment.get? "PATH")

/-- The program at a path. -/
def programAt (m : Machine) (path : String) : Except SystemFault Tool := do
  match ← m.find path with
  | .program tool => .ok tool
  | _ => .error .notAllowed

/-- The first program of a name in a row of folders.  That one was not allowed counts only if no
    other is found. -/
def search (m : Machine) (name : String) (fault : SystemFault) :
    List String → Except SystemFault Tool
  | [] => .error fault
  | folder :: folders =>
    match m.programAt (Path.join folder name) with
    | .ok tool => .ok tool
    -- A program that may not be run is remembered, and the search goes on.
    | .error e => m.search name (if e = .notAllowed then e else fault) folders

/-- That a text with the character NUL was given to a program. -/
def nulInData : SystemFault := .worded .invalidInput (some "nul byte found in provided data")

/-- The program that is run for a name: with a slash it is a path, without one it is looked for. -/
def executable (m : Machine) (name : String) : Except SystemFault Tool :=
  if name.isEmpty then .error .noSuchFile
  else if Path.hasSlash name then m.programAt name
  else m.search name .noSuchFile m.searchPath

/-- Runs a program. -/
def launch (m : Machine) (name : String) (arguments : List String) :
    Except SystemFault Run × Machine :=
  if (name :: arguments).any fun text => text.toList.contains '\x00' then (.error nulInData, m)
  else
    match m.executable name with
    | .error fault => (.error fault, m)
    | .ok tool => (.ok (tool.run arguments), { m with calls := m.calls ++ [arguments] })

/-- The paths at which a program is looked for: a name with several components is a path. -/
def candidates (location : String) (folders : List String) (name : String) : List String :=
  if 1 < Path.componentCount name then
    if Path.isAbsolute name then [name] else [(Path.parts name).foldl Path.join location]
  else folders.map fun folder => Path.join folder name

/-- Where the program of a name is, as an absolute path. -/
def locate (m : Machine) (name : String) : Option String :=
  (candidates m.location m.searchPath name).find? fun path => (m.programAt path).toBool

/-! ### Requests -/

/-- The answer to a request, and the machine behind it. -/
def answer (m : Machine) : (request : Request) → request.Answer × Machine
  | .lookUp name => (m.environment.get? name, m)
  | .isThere path => ((m.find path).toBool, m)
  | .read path => (m.read path, m)
  | .input => (m.given, m)
  | .write path content => m.write path content
  | .print content => m.print content
  | .tell text => ((), { m with told := m.told ++ [text] })
  | .isTerminal => (m.terminal, m)
  | .locate program => (m.locate program, m)
  | .launch program arguments => m.launch program arguments

end Machine

/-- Runs a job on a machine. -/
def Job.run {α : Type} : Job α → Machine → α × Machine
  | .done result, m => (result, m)
  | .act request resume, m =>
    let (answer, m) := m.answer request
    (resume answer).run m

end SecretFill
