import SecretFill.Machine.SystemFault
import SecretFill.Machine.Tool
import SecretFill.Path.Basic

namespace SecretFill

/-!
# Folders

A tree of folders with files in them.  A path is followed from some folder of the tree on, component
by component; the folder above the top is the top itself.

* `Node` — a file, a program or a folder.
* `Node.at?`, `Node.put` — what stands under a row of names.
* `Node.resolve` — the names on the way to what a path stands for; `Node.find`, `Node.read` — what it
  stands for, and the content of a file.
* `Node.destination` — the names on the way to the file that is written under a path.
-/

/-- A file, a program or a folder. -/
inductive Node where
  /-- A file that is no program. -/
  | file (content : List UInt8)
  /-- A program. -/
  | program (tool : Tool)
  /-- A file that cannot be opened, and why. -/
  | barred (fault : SystemFault)
  /-- A folder with what is in it by name. -/
  | folder (entries : List (String × Node))
deriving Inhabited

namespace Node

/-- Whether it is a folder. -/
def isFolder : Node → Bool
  | folder _ => true
  | _ => false

/-- What a folder has under a name. -/
def child? (n : Node) (name : String) : Option Node :=
  match n with
  | folder entries => entries.lookup name
  | _ => none

/-- What stands at the end of a row of names. -/
def at? : Node → List String → Option Node
  | n, [] => some n
  | n, name :: names => (n.child? name).bind fun child => child.at? names

/-- Puts something under a name, in the place of what was there. -/
def putChild (n : Node) (name : String) (new : Node) : Node :=
  match n with
  | folder entries =>
    if entries.any fun entry => entry.1 == name then
      folder (entries.map fun entry => if entry.1 = name then (name, new) else entry)
    else folder (entries ++ [(name, new)])
  | n => n

/-- Puts something at the end of a row of names, and makes the folders that are missing. -/
def put : Node → List String → Node → Node
  | _, [], new => new
  | n, name :: names, new => n.putChild name (put ((n.child? name).getD (folder [])) names new)

/-- The longest name in bytes. -/
def maxNameSize : Nat := 255

/-- The longest path in bytes. -/
def maxPathSize : Nat := 4095

/-- Follows the components of a path from a row of names on. -/
def follow (root : Node) (here : List String) : List String → Except SystemFault (List String)
  | [] => .ok here
  | part :: parts =>
    match root.at? here with
    | none => .error .noSuchFile
    | some n =>
      if !n.isFolder then .error .noDirectory
      else if part = "" ∨ part = "." then follow root here parts
      else if part = ".." then follow root here.dropLast parts
      else if maxNameSize < part.utf8ByteSize then .error .nameTooLong
      else if (n.child? part).isNone then .error .noSuchFile
      else follow root (here ++ [part]) parts

/-- A path that names something at all. -/
def checkPath (path : String) : Except SystemFault Unit :=
  if path.toList.contains '\x00' then .error .nulInName
  else if path.isEmpty then .error .noSuchFile
  else if maxPathSize < path.utf8ByteSize then .error .nameTooLong
  else .ok ()

/-- The names on the way to what a path stands for, if there is something. -/
def resolve (root : Node) (here : List String) (path : String) :
    Except SystemFault (List String) := do
  checkPath path
  follow root here (Path.split path)

/-- What a path stands for. -/
def find (root : Node) (here : List String) (path : String) : Except SystemFault Node := do
  let names ← resolve root here path
  match root.at? names with
  | some n => .ok n
  | none => .error .noSuchFile

/-- What is read of a file. -/
def content : Node → Except SystemFault (List UInt8)
  | file content => .ok content
  | program _ => .ok []
  | barred fault => .error fault
  | folder _ => .error .aDirectory

/-- The content of the file that a path stands for. -/
def read (root : Node) (here : List String) (path : String) : Except SystemFault (List UInt8) := do
  let n ← find root here path
  n.content

/-- Whether a file can be written in the place of what a folder has under a name. -/
def checkWritable : Option Node → Except SystemFault Unit
  | some (barred fault) => .error fault
  | some (folder _) => .error .aDirectory
  | _ => .ok ()

/-- The names on the way to the file that is written under a path: all but the last component must
    be there. -/
def destination (root : Node) (here : List String) (path : String) :
    Except SystemFault (List String) := do
  checkPath path
  let parts := Path.split path
  let above ← follow root here parts.dropLast
  let name := parts.getLast?.getD ""
  match root.at? above with
  | some (.folder entries) =>
    if name = "" ∨ name = "." ∨ name = ".." then .error .aDirectory
    else if maxNameSize < name.utf8ByteSize then .error .nameTooLong
    else
      checkWritable (entries.lookup name)
      .ok (above ++ [name])
  | _ => .error .noDirectory

end Node

end SecretFill
