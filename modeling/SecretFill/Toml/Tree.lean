import SecretFill.Toml.Value

namespace SecretFill.Toml

/-!
# Building a document

Headers and keys name a table by a path from the top.  A path makes the tables that it needs; it
may not lead into a value, into a table in braces, or by dots into a table with a header.

* `Entries.change?` — changes the table at the end of a path.
* `Entries.openTable?`, `Entries.openItem?` — the headers of a table and of an item of an array.
* `Entries.insert?` — an entry with a dotted key.
-/

namespace Entries

/-- The value of a key. -/
def find? (entries : Entries) (text : String) : Option Value :=
  (List.find? (fun entry => entry.1.text == text) entries).map Prod.snd

/-- Puts a value in the place of the one that a key has. -/
def replace (entries : Entries) (text : String) (value : Value) : Entries :=
  entries.map fun entry => if entry.1.text = text then (entry.1, value) else entry

/-- Whether a path may lead through a table. -/
def mayEnter (dotted : Bool) : Origin → Bool
  | .braces => false
  | .header => !dotted
  | .path | .dotted => true

/-- Changes the last item of an array of tables. -/
def changeLast? (change : Origin → Entries → Option Entries) : List Value → Option (List Value)
  | [] => none
  | [.table span origin entries] =>
    (change origin entries).map fun entries => [.table span origin entries]
  | [_] => none
  | item :: items => (changeLast? change items).map (item :: ·)

/-- Changes the table at the end of a path, the parts of which a dotted key or a header joins. -/
def change? (dotted : Bool) (change : Origin → Entries → Option Entries) :
    List Key → Origin → Entries → Option Entries
  | [], origin, entries => change origin entries
  | key :: path, _, entries =>
    match find? entries key.text with
    | none =>
      let origin := if dotted then Origin.dotted else .path
      (change? dotted change path origin []).map fun inner =>
        entries ++ [(key, .table key.span origin inner)]
    | some (.table span origin inner) =>
      if mayEnter dotted origin then
        (change? dotted change path origin inner).map fun inner =>
          replace entries key.text (.table span origin inner)
      else none
    | some (.array span true items) =>
      (changeLast? (change? dotted change path) items).map fun items =>
        replace entries key.text (.array span true items)
    | some _ => none

/-- The header of a table: there must be no such table yet, or only one that the headers of other
    tables imply. -/
def openTable? (span : Span) (key : Key) (_ : Origin) (entries : Entries) : Option Entries :=
  match find? entries key.text with
  | none => some (entries ++ [(key, .table span .header [])])
  | some (.table _ .path inner) => some (replace entries key.text (.table span .header inner))
  | some _ => none

/-- The header of an item: there must be nothing yet, or an array of such headers. -/
def openItem? (span : Span) (key : Key) (_ : Origin) (entries : Entries) : Option Entries :=
  let item := Value.table span .header []
  match find? entries key.text with
  | none => some (entries ++ [(key, .array span true [item])])
  | some (.array first true items) =>
    some (replace entries key.text (.array first true (items ++ [item])))
  | some _ => none

/-- An entry at the end of a path of the given length: its key must be new, and a dotted key may
    only add to a table made by dotted keys. -/
def place? (dotted : Bool) (key : Key) (value : Value) (origin : Origin) (entries : Entries) :
    Option Entries :=
  if (origin == .dotted) != dotted || (find? entries key.text).isSome then none
  else some (entries ++ [(key, value)])

/-- Adds an entry with a dotted key to a table. -/
def insert? (path : List Key) (key : Key) (value : Value) (origin : Origin) (entries : Entries) :
    Option Entries :=
  change? true (place? (!path.isEmpty) key value) path origin entries

end Entries

end SecretFill.Toml
