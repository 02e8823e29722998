/-
  TOML items — what a document binds its keys to, and which bindings go together.

  * `Item` is a value or a table; a table remembers how it was opened (`Form`), as that decides
    what may be added to it later;
  * `descend` walks down a path of keys, opening tables on the way, and changes the table at
    its end;
  * `define` binds a dotted key, `openTable` and `openRow` are the headers of a table and of a
    row of an array of tables; each is `none` where a key would be bound twice.
-/

namespace ErasureVault.Toml

/-- How a table was opened. -/
inductive Form where
  /-- By a header of its own, or as the document itself. -/
  | header
  /-- On the way to the header of a table below it. -/
  | implied
  /-- On the way to a dotted key. -/
  | dotted
  /-- Between braces, as a value. -/
  | inline
  deriving DecidableEq

/-- What a key is bound to. -/
inductive Item where
  | text (s : String)
  | integer (n : Int)
  | float
  | boolean (b : Bool)
  | dateTime
  | array (items : List Item)
  | table (form : Form) (entries : List (String × Item))
  /-- An array of tables, row after row. -/
  | rows (tables : List (List (String × Item)))

/-- The bindings of a table. -/
abbrev Entries := List (String × Item)

namespace Entries

/-- The bindings with another item at a key that is bound. -/
def replace (key : String) (new : Item) (es : Entries) : Entries :=
  es.map fun (k, item) => if k = key then (k, new) else (k, item)

/-- The bindings after `change` of the table at the end of a path; tables that are not there are
    opened. A dotted key goes through no table that has a header of its own, and nothing goes
    through a value. -/
def descend (dotted : Bool) (change : Form → Entries → Option Entries) :
    (path : List String) → Form → Entries → Option Entries
  | [], form, es => change form es
  | key :: path, _, es =>
    match es.lookup key with
    | none =>
      let form := if dotted then Form.dotted else .implied
      (descend dotted change path form []).map fun sub => es ++ [(key, .table form sub)]
    | some (.table form sub) =>
      if form = .inline ∨ (dotted ∧ form = .header) then none
      else (descend dotted change path form sub).map fun sub => replace key (.table form sub) es
    | some (.rows tables) =>
      match tables.getLast? with
      | some row =>
        (descend dotted change path .header row).map fun row =>
          replace key (.rows (tables.dropLast ++ [row])) es
      | none => none
    | some _ => none

/-- The bindings with a dotted key bound to an item; a key below others must have been opened by
    dotted keys alone. -/
def define (path : List String) (key : String) (item : Item) (es : Entries) : Option Entries :=
  descend true (fun form es =>
    if path ≠ [] ∧ form ≠ .dotted then none
    else if (es.lookup key).isSome then none
    else some (es ++ [(key, item)])) path .header es

/-- The bindings with a table opened by its header, at the key below a path; one that has only been
    passed through may still be opened. -/
def openTable (path : List String) (key : String) (es : Entries) : Option Entries :=
  descend false (fun _ es =>
    match es.lookup key with
    | none => some (es ++ [(key, .table .header [])])
    | some (.table .implied sub) => some (replace key (.table .header sub) es)
    | some _ => none) path .header es

/-- The bindings with one row more in an array of tables, at the key below a path. -/
def openRow (path : List String) (key : String) (es : Entries) : Option Entries :=
  descend false (fun _ es =>
    match es.lookup key with
    | none => some (es ++ [(key, .rows [[]])])
    | some (.rows tables) => some (replace key (.rows (tables ++ [[]])) es)
    | some _ => none) path .header es

/-- The bindings after binding a dotted key in the table at the end of a path that was opened
    before. -/
def defineIn (table path : List String) (key : String) (item : Item) (es : Entries) :
    Option Entries :=
  descend false (fun _ es => define path key item es) table .header es

end Entries

end ErasureVault.Toml
