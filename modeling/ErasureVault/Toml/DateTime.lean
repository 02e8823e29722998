/-
  TOML dates and times.

  * `dateTime` reads a date, a time of day, or both, with or without an offset; `Found` tells a text
    that begins with none of them from one that begins with a wrong one;
  * `daysIn year month` is the length of a month.
-/
import ErasureVault.Toml.Scan

namespace ErasureVault.Toml

/-- What stands at the front of a text. -/
inductive Found where
  /-- Something else. -/
  | other
  /-- A wrong date or time. -/
  | wrong
  /-- A date or a time, before the rest. -/
  | read (rest : List Char)

def daysIn (year month : Nat) : Nat :=
  if month = 2 then
    if year % 4 = 0 ∧ (year % 100 ≠ 0 ∨ year % 400 = 0) then 29 else 28
  else if month = 4 ∨ month = 6 ∨ month = 9 ∨ month = 11 then 30
  else 31

/-- Two digits that write a number within bounds. -/
def twoDigitsIn (least greatest : Nat) : Scan Nat := fun t => do
  let (n, rest) ← twoDigits t
  if least ≤ n ∧ n ≤ greatest then some (n, rest) else none

def mark (c : Char) : List Char → Option (List Char)
  | d :: rest => if d = c then some rest else none
  | [] => none

/-- The text after a fraction of a second, if there is one. -/
def dropFraction : List Char → List Char
  | '.' :: c :: rest => if c.isDigit then rest.dropWhile Char.isDigit else '.' :: c :: rest
  | t => t

/-- The minutes and seconds of a time, after its hour and a colon. -/
def minutesAndSeconds (t : List Char) : Option (List Char) := do
  let (_, rest) ← twoDigitsIn 0 59 t
  let rest ← mark ':' rest
  let (_, rest) ← twoDigitsIn 0 60 rest
  some (dropFraction rest)

def timeOfDay (t : List Char) : Found :=
  match (twoDigitsIn 0 23 t).bind fun (_, rest) => mark ':' rest with
  | none => .other
  | some rest =>
    match minutesAndSeconds rest with
    | some rest => .read rest
    | none => .wrong

/-- The text after an offset, if there is one. -/
def offset : List Char → Found
  | 'Z' :: rest | 'z' :: rest => .read rest
  | '+' :: rest | '-' :: rest =>
    match (do
      let (_, rest) ← twoDigitsIn 0 23 rest
      let rest ← mark ':' rest
      twoDigitsIn 0 59 rest) with
    | some (_, rest) => .read rest
    | none => .wrong
  | t => .read t

/-- The month and the day of a date, after its year and a hyphen. -/
def monthAndDay (year : Nat) (t : List Char) : Option (List Char) := do
  let (month, rest) ← twoDigitsIn 1 12 t
  let rest ← mark '-' rest
  let (_, rest) ← twoDigitsIn 1 (daysIn year month) rest
  some rest

/-- The time and the offset after a date, if there are any. -/
def afterDate (t : List Char) : Found :=
  match t with
  | c :: rest =>
    if c = 'T' ∨ c = 't' ∨ c = ' ' then
      match timeOfDay rest with
      | .other => .read t
      | .wrong => .wrong
      | .read rest => offset rest
    else .read t
  | [] => .read t

/-- A date, a time, or both. -/
def dateTime (t : List Char) : Found :=
  match t with
  | a :: b :: c :: d :: '-' :: rest =>
    if [a, b, c, d].all Char.isDigit then
      let year := [a, b, c, d].foldl (fun n c => n * 10 + (c.toNat - 48)) 0
      match monthAndDay year rest with
      | some rest => afterDate rest
      | none => .wrong
    else timeOfDay t
  | _ => timeOfDay t

end ErasureVault.Toml
