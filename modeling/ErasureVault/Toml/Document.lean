/-
  TOML documents — tables of items, read from a text.

  * `value` reads one value: a text, a number, a truth value, a date, an array or a table between
    braces, at most `nestingLimit` deep;
  * `statement` reads a line, which binds a key or opens a table, and `document?` reads a whole
    text, or refuses it: `Reading` holds the bindings so far and the table that is open.
-/
import ErasureVault.Toml.DateTime
import ErasureVault.Toml.Item
import ErasureVault.Toml.Number
import ErasureVault.Toml.Text

namespace ErasureVault.Toml

/-! ## Values -/

/-- The items of an array after its bracket, of which there are fewer than `fuel`. -/
def elements (item : Scan Item) : (fuel : Nat) → Scan (List Item)
  | 0, _ => none
  | fuel + 1, t => do
    match ← blankLines t with
    | ']' :: rest => some ([], rest)
    | t =>
      let (first, rest) ← item t
      match ← blankLines rest with
      | ',' :: rest =>
        let (others, rest) ← elements item fuel rest
        some (first :: others, rest)
      | ']' :: rest => some ([first], rest)
      | _ => none

/-- The bindings of a table between braces, after those read before, of which there are fewer than
    `fuel`. -/
def pairs (item : Scan Item) (before : Entries) : (fuel : Nat) → Scan Entries
  | 0, _ => none
  | fuel + 1, t => do
    let ((path, last), rest) ← key t
    let rest ← mark '=' rest
    let (new, rest) ← item (dropBlanks rest)
    let es ← before.define path last new
    match dropBlanks rest with
    | ',' :: rest => pairs item es fuel rest
    | '}' :: rest => some (es, rest)
    | _ => none

/-- A value that is no array or table. -/
def scalar : Scan Item
  | 't' :: 'r' :: 'u' :: 'e' :: rest => some (.boolean true, rest)
  | 'f' :: 'a' :: 'l' :: 's' :: 'e' :: rest => some (.boolean false, rest)
  | t =>
    match t with
    | '"' :: _ | '\'' :: _ => (text t).map fun (s, rest) => (.text s, rest)
    | _ =>
      match dateTime t with
      | .read rest => some (.dateTime, rest)
      | .wrong => none
      | .other => number t

/-- A value in which others may stand up to the depth `depth`. -/
def valueWithin : (depth : Nat) → Scan Item
  | 0, '[' :: _ | 0, '{' :: _ => none
  | depth + 1, '[' :: rest =>
    (elements (valueWithin depth) (rest.length + 1) rest).map fun (items, rest) =>
      (.array items, rest)
  | depth + 1, '{' :: rest =>
    match dropBlanks rest with
    | '}' :: rest => some (.table .inline [], rest)
    | t =>
      (pairs (valueWithin depth) [] (t.length + 1) t).map fun (es, rest) =>
        (.table .inline es, rest)
  | _, t => scalar t

def value : Scan Item :=
  valueWithin nestingLimit

/-! ## Documents -/

/-- A document that has been read in part. -/
structure Reading where
  /-- The bindings so far. -/
  entries : Entries
  /-- The table that the next keys belong to. -/
  table : List String

def binding (r : Reading) (t : List Char) : Option (Reading × List Char) := do
  let ((path, last), rest) ← key t
  let rest ← mark '=' rest
  let (item, rest) ← value (dropBlanks rest)
  let rest ← lineEnd rest
  let entries ← r.entries.defineIn r.table path last item
  some ({ r with entries }, rest)

/-- The header of a table or of a row, after its brackets, which `close` closes. -/
def header (close : List Char) (opening : List String → String → Entries → Option Entries)
    (r : Reading) (t : List Char) : Option (Reading × List Char) := do
  let ((path, last), rest) ← key t
  if ¬ close.isPrefixOf rest then none
  let rest ← lineEnd (rest.drop close.length)
  let entries ← opening path last r.entries
  some (⟨entries, path ++ [last]⟩, rest)

def statement (r : Reading) : List Char → Option (Reading × List Char)
  | '[' :: '[' :: rest =>
    header [']', ']'] (fun path last es => es.openRow path last) r rest
  | '[' :: rest => header [']'] (fun path last es => es.openTable path last) r rest
  | t => binding r t

/-- The statements of a text, of which there are fewer than `fuel`. -/
def statements : (fuel : Nat) → Reading → List Char → Option Reading
  | 0, _, _ => none
  | fuel + 1, r, t => do
    match ← blankLines t with
    | [] => some r
    | t =>
      let (r, rest) ← statement r t
      statements fuel r rest

/-- The bindings of a document, which may begin with a byte order mark. -/
def document? (s : String) : Option Entries :=
  let t :=
    match s.toList with
    | '\uFEFF' :: rest => rest
    | t => t
  (statements (t.length + 1) ⟨[], []⟩ t).map Reading.entries

end ErasureVault.Toml
