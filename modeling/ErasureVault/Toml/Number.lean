/-
  TOML numbers — integers of 64 bits, and floats.

  * `integer` reads a decimal integer with its sign, or one in base 16, 8 or 2 without; one that
    does not fit into 64 bits is refused;
  * `number` reads an integer or a float; a float is refused if it is as large as infinity
    (`overflows`), and its value is not kept.
-/
import ErasureVault.Toml.Item
import ErasureVault.Toml.Scan

namespace ErasureVault.Toml

def valueOf (base : Nat) (digits : List Char) : Nat :=
  digits.foldl (fun n c => n * base + (hexValue? c).getD 0) 0

def integerBounds : Int × Int := (-9223372036854775808, 9223372036854775807)

def bounded (n : Int) : Option Item :=
  if integerBounds.1 ≤ n ∧ n ≤ integerBounds.2 then some (.integer n) else none

/-! ## Integers -/

/-- Whether a character is a digit of the given base. -/
def isDigitOf (base : Nat) (c : Char) : Bool :=
  (hexValue? c).any (· < base)

/-- Digits of another base than ten, after its mark. -/
def basedInteger (base : Nat) : Scan Item := fun t => do
  let (digits, rest) ← digitsWith (isDigitOf base) t
  let item ← bounded (valueOf base digits)
  some (item, rest)

/-- A sign, which may be missing; whether it is a minus. -/
def sign : List Char → Bool × List Char
  | '+' :: rest => (false, rest)
  | '-' :: rest => (true, rest)
  | t => (false, t)

/-- The digits of a decimal integer, which begins with a zero only if it is zero. -/
def wholeDigits : Scan (List Char)
  | '0' :: rest => some (['0'], rest)
  | t => digitsWith Char.isDigit t

/-! ## Floats -/

/-- A decimal number with its exponent: `digits · 10 ^ exponent`. -/
structure Decimal where
  digits : Nat
  exponent : Int

/-- Whether a decimal number is nearer to the least power of two that no double reaches than to
    the greatest double, or beyond. -/
def overflows (d : Decimal) : Bool :=
  let bound := (1 <<< 1024) - (1 <<< 970)
  if d.digits = 0 then false
  else
    let magnitude := (Nat.toDigits 10 d.digits).length + d.exponent
    if magnitude < 300 then false
    else if 320 < magnitude then true
    else if 0 ≤ d.exponent then bound ≤ d.digits * Nat.pow 10 d.exponent.toNat
    else bound * Nat.pow 10 (-d.exponent).toNat ≤ d.digits

/-- The digits after a point, if there is one. -/
def fraction : Scan (List Char)
  | '.' :: rest => digitsWith Char.isDigit rest
  | t => some ([], t)

/-- The number after an `e`, or zero if there is none. -/
def exponent : Scan Int
  | c :: rest =>
    if c = 'e' ∨ c = 'E' then do
      let (negative, rest) := sign rest
      let (digits, rest) ← digitsWith Char.isDigit rest
      let n : Int := valueOf 10 digits
      some (if negative then -n else n, rest)
    else some (0, c :: rest)
  | [] => some (0, [])

/-- Whether a text goes on with a fraction or an exponent. -/
def isFloat : List Char → Bool
  | c :: _ => c = '.' || c = 'e' || c = 'E'
  | [] => false

/-- A decimal integer or a float, after its sign. -/
def decimal (negative : Bool) : Scan Item := fun t => do
  let (whole, rest) ← wholeDigits t
  if isFloat rest then
    let (part, rest) ← fraction rest
    let (power, rest) ← exponent rest
    let d : Decimal := ⟨valueOf 10 (whole ++ part), power - part.length⟩
    if overflows d && !negative then none else some (.float, rest)
  else
    let n : Int := valueOf 10 whole
    let item ← bounded (if negative then -n else n)
    some (item, rest)

def number : Scan Item
  | '0' :: 'x' :: rest => basedInteger 16 rest
  | '0' :: 'o' :: rest => basedInteger 8 rest
  | '0' :: 'b' :: rest => basedInteger 2 rest
  | t =>
    match sign t with
    | (_, 'i' :: 'n' :: 'f' :: rest) => some (.float, rest)
    | (_, 'n' :: 'a' :: 'n' :: rest) => some (.float, rest)
    | (negative, rest) => decimal negative rest

end ErasureVault.Toml
