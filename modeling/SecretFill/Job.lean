import SecretFill.Machine.SystemFault
import SecretFill.Machine.Tool

namespace SecretFill

/-!
# Jobs

A job is a computation that needs a machine: it reads and writes files, looks up variables, runs
programs and prints.  It does not say on which machine, so that the same job can be run for real
and be reasoned about.

* `Request` — what a job can ask of a machine, and `Request.Answer`, what it gets.
* `Job` — the computation; it is a monad.
-/

/-- What a job can ask of a machine. -/
inductive Request where
  /-- The value of a variable of the environment. -/
  | lookUp (name : String)
  /-- Whether there is something at a path. -/
  | isThere (path : String)
  /-- The content of a file. -/
  | read (path : String)
  /-- The bytes given to the program. -/
  | input
  /-- A file is to be written. -/
  | write (path : String) (content : List UInt8)
  /-- Bytes are to be printed as the result. -/
  | print (content : List UInt8)
  /-- A text is to be told to the user. -/
  | tell (text : String)
  /-- Whether what is printed goes to a terminal. -/
  | isTerminal
  /-- Where a program is. -/
  | locate (program : String)
  /-- A program is to be run. -/
  | launch (program : String) (arguments : List String)
deriving DecidableEq, Repr

/-- What a job gets for a request. -/
abbrev Request.Answer : Request → Type
  | lookUp _ => Option String
  | isThere _ => Bool
  | read _ => Except SystemFault (List UInt8)
  | input => Except SystemFault (List UInt8)
  | write .. => Except SystemFault Unit
  | print _ => Except SystemFault Unit
  | tell _ => Unit
  | isTerminal => Bool
  | locate _ => Option String
  | launch .. => Except SystemFault Run

/-- A computation that needs a machine. -/
inductive Job (α : Type) where
  /-- It has a result. -/
  | done (result : α)
  /-- It asks for something and goes on with the answer. -/
  | act (request : Request) (resume : request.Answer → Job α)

namespace Job

variable {α β : Type}

/-- Goes on with another job. -/
def bind : Job α → (α → Job β) → Job β
  | done result, f => f result
  | act request resume, f => act request fun answer => (resume answer).bind f

instance : Monad Job where
  pure := done
  bind := bind

/-- The job of one request. -/
def ask (request : Request) : Job request.Answer := act request done

end Job

end SecretFill
