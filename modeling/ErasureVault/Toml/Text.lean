/-
  TOML texts — strings between quotes, and keys.

  * `basicText` and `literalText` read a string of one line after its opening quote, with and
    without escapes; `basicLines` and `literalLines` those between three quotes, in which lines
    may break and up to two quotes may stand;
  * `text` reads a string of any of the four kinds;
  * `key` reads a dotted key.
-/
import ErasureVault.Toml.Scan

namespace ErasureVault.Toml

/-! ## Escapes -/

/-- The character with the number that the first `n` hexadecimal digits of a text write. -/
def hexChar (n : Nat) (t : List Char) : Option Char := do
  let digits ← (t.take n).mapM hexValue?
  if digits.length ≠ n then none
  let number := digits.foldl (fun m d => 16 * m + d) 0
  if number.isValidChar then some (Char.ofNat number) else none

/-- The character that an escape stands for, and the number of characters after its backslash. -/
def escape? : List Char → Option (Char × Nat)
  | 'b' :: _ => some ('\x08', 1)
  | 't' :: _ => some ('\t', 1)
  | 'n' :: _ => some ('\n', 1)
  | 'f' :: _ => some ('\x0c', 1)
  | 'r' :: _ => some ('\r', 1)
  | '"' :: _ => some ('"', 1)
  | '\\' :: _ => some ('\\', 1)
  | 'u' :: rest => (hexChar 4 rest).map (·, 5)
  | 'U' :: rest => (hexChar 8 rest).map (·, 9)
  | _ => none

/-! ## Strings of one line -/

/-- A string with escapes, up to its closing quote, after the characters `seen`, the last first. -/
def basicText (seen : List Char) : Scan String
  | [] => none
  | '"' :: rest => some (String.ofList seen.reverse, rest)
  | '\\' :: rest =>
    match escape? rest with
    | some (c, n) => basicText (c :: seen) (rest.drop n)
    | none => none
  | c :: rest => if isText c then basicText (c :: seen) rest else none
termination_by t => t.length
decreasing_by all_goals grind

/-- A string without escapes, up to its closing quote. -/
def literalText (t : List Char) : Option (String × List Char) :=
  match t.span fun c => isText c && c ≠ '\'' with
  | (s, '\'' :: rest) => some (String.ofList s, rest)
  | _ => none

/-! ## Strings of several lines -/

/-- Whether the rest of a line after a backslash is blank, so that the string goes on at the next
    character that is not blank. -/
def continuesBelow (t : List Char) : Bool :=
  (newline? (dropBlanks t)).isSome

/-- The string before three closing quotes, of which up to five may stand together. -/
def closing (quote : Char) (seen t : List Char) : String × List Char :=
  let extra := ((t.take 2).takeWhile (· = quote)).length
  (String.ofList (seen.reverse ++ List.replicate extra quote), t.drop extra)

/-- A string of several lines with escapes, after the characters `seen`; blanks and line breaks are
    left out while `skipping`. -/
def basicLines (skipping : Bool) (seen : List Char) : Scan String
  | [] => none
  | '"' :: '"' :: '"' :: rest => some (closing '"' seen rest)
  | '\r' :: '\n' :: rest => basicLines skipping (if skipping then seen else '\n' :: seen) rest
  | '\n' :: rest => basicLines skipping (if skipping then seen else '\n' :: seen) rest
  | '\\' :: rest =>
    if continuesBelow rest then basicLines true seen rest
    else
      match escape? rest with
      | some (c, n) => basicLines false (c :: seen) (rest.drop n)
      | none => none
  | c :: rest =>
    if skipping && isBlank c then basicLines true seen rest
    else if isText c then basicLines false (c :: seen) rest
    else none
termination_by t => t.length
decreasing_by all_goals grind

/-- A string of several lines without escapes, after the characters `seen`. -/
def literalLines (seen : List Char) : Scan String
  | [] => none
  | '\'' :: '\'' :: '\'' :: rest => some (closing '\'' seen rest)
  | '\r' :: '\n' :: rest => literalLines ('\n' :: seen) rest
  | '\n' :: rest => literalLines ('\n' :: seen) rest
  | c :: rest => if isText c then literalLines (c :: seen) rest else none

/-- The text after a line break, if it begins with one. -/
def dropNewline (t : List Char) : List Char :=
  (newline? t).getD t

def text : Scan String
  | '"' :: '"' :: '"' :: rest => basicLines false [] (dropNewline rest)
  | '"' :: rest => basicText [] rest
  | '\'' :: '\'' :: '\'' :: rest => literalLines [] (dropNewline rest)
  | '\'' :: rest => literalText rest
  | _ => none

/-! ## Keys -/

def keyPart : Scan String
  | '"' :: rest => basicText [] rest
  | '\'' :: rest => literalText rest
  | t =>
    match t.span isBare with
    | ([], _) => none
    | (s, rest) => some (String.ofList s, rest)

/-- The parts of a key of at most `limit` parts, with blanks around each. -/
def keyWithin : (limit : Nat) → Scan (List String)
  | 0, _ => none
  | limit + 1, t => do
    let (part, rest) ← keyPart (dropBlanks t)
    match dropBlanks rest with
    | '.' :: rest =>
      let (parts, rest) ← keyWithin limit rest
      some (part :: parts, rest)
    | rest => some ([part], rest)

/-- The greatest number of parts of a key, and of values within each other. -/
def nestingLimit : Nat := 79

/-- A dotted key: the parts before the last, and the last. -/
def key : Scan (List String × String) := fun t => do
  let (parts, rest) ← keyWithin nestingLimit t
  let last ← parts.getLast?
  some ((parts.dropLast, last), rest)

end ErasureVault.Toml
