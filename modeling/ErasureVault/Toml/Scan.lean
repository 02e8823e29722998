/-
  Scanning TOML — what stands at the front of a text.

  * `Scan α` reads something off the front of a text and gives the rest, or refuses;
  * `dropBlanks`, `newline?` and `lineEnd` read blanks, a line break, and the end of a line with
    its comment; `blankLines` reads everything between two items of an array;
  * `digitsWith` reads digits, between which single underscores may stand.
-/

namespace ErasureVault.Toml

/-- Reads off the front of a text, and gives the rest. -/
abbrev Scan (α : Type) := List Char → Option (α × List Char)

/-! ## Characters -/

def isBlank (c : Char) : Bool :=
  c = ' ' || c = '\t'

/-- Whether a character may stand in a comment or a text: no control but the tabulator. -/
def isText (c : Char) : Bool :=
  c = '\t' || (' ' ≤ c && c ≤ '~') || '\u0080' ≤ c

/-- Whether a character may stand in a key without quotes. -/
def isBare (c : Char) : Bool :=
  c.isAlphanum || c = '-' || c = '_'

def hexValue? (c : Char) : Option Nat :=
  if c.isDigit then some (c.toNat - 48)
  else if 'a' ≤ c ∧ c ≤ 'f' then some (c.toNat - 87)
  else if 'A' ≤ c ∧ c ≤ 'F' then some (c.toNat - 55)
  else none

/-! ## Blanks and lines -/

def dropBlanks (t : List Char) : List Char :=
  t.dropWhile isBlank

/-- The text after a line break. -/
def newline? : List Char → Option (List Char)
  | '\n' :: rest => some rest
  | '\r' :: '\n' :: rest => some rest
  | _ => none

/-- The text after a comment, up to the end of its line. -/
def dropComment : List Char → List Char
  | '#' :: rest => rest.dropWhile isText
  | t => t

/-- The text after blanks, a comment and the end of the line. -/
def lineEnd (t : List Char) : Option (List Char) :=
  match dropComment (dropBlanks t) with
  | [] => some []
  | rest => newline? rest

/-- The text after any blanks, comments and line breaks; `inComment` says that it begins within a
    comment. -/
def blankLinesFrom (inComment : Bool) : List Char → Option (List Char)
  | [] => some []
  | '\n' :: rest => blankLinesFrom false rest
  | '\r' :: '\n' :: rest => blankLinesFrom false rest
  | c :: rest =>
    if inComment then if isText c then blankLinesFrom true rest else none
    else if isBlank c then blankLinesFrom false rest
    else if c = '#' then blankLinesFrom true rest
    else if c = '\r' then none
    else some (c :: rest)

/-- The text after any blanks, comments and line breaks. -/
def blankLines (t : List Char) : Option (List Char) :=
  blankLinesFrom false t

/-! ## Digits -/

/-- The digits at the front, each of which may follow an underscore after the first. -/
def moreDigits (isDigit : Char → Bool) : Scan (List Char)
  | '_' :: c :: rest =>
    if isDigit c then (moreDigits isDigit rest).map fun (ds, rest) => (c :: ds, rest) else none
  | '_' :: [] => none
  | c :: rest =>
    if isDigit c then (moreDigits isDigit rest).map fun (ds, rest) => (c :: ds, rest)
    else some ([], c :: rest)
  | [] => some ([], [])

/-- At least one digit, and single underscores between digits. -/
def digitsWith (isDigit : Char → Bool) : Scan (List Char)
  | c :: rest =>
    if isDigit c then (moreDigits isDigit rest).map fun (ds, rest) => (c :: ds, rest) else none
  | [] => none

/-- Exactly two decimal digits. -/
def twoDigits : Scan Nat
  | a :: b :: rest =>
    if a.isDigit && b.isDigit then some ((a.toNat - 48) * 10 + (b.toNat - 48), rest) else none
  | _ => none

end ErasureVault.Toml
