/-
  Base 58: byte strings as texts over 58 letters and digits.

  * `encode b` reads `b` as a number, the highest byte first, and writes it in base 58; a
    zero byte at the front is written as the letter of zero;
  * `decode t` reads such a text, or says which character is the first outside the alphabet;
  * `digit?` and `letter` relate the letters to their digits (`digit?_letter`,
    `letter_of_digit?`).
-/
import ErasureVault.Bytes
import ErasureVault.Text.Positional
import ErasureVault.Text.Quoted

namespace ErasureVault.Base58

/-- The letters of the digits from 0 to 57: no zero, capital I, capital O or small l. -/
def alphabet : List Char :=
  ['1', '2', '3', '4', '5', '6', '7', '8', '9', 'A', 'B', 'C', 'D', 'E', 'F', 'G', 'H', 'J', 'K',
   'L', 'M', 'N', 'P', 'Q', 'R', 'S', 'T', 'U', 'V', 'W', 'X', 'Y', 'Z', 'a', 'b', 'c', 'd', 'e',
   'f', 'g', 'h', 'i', 'j', 'k', 'm', 'n', 'o', 'p', 'q', 'r', 's', 't', 'u', 'v', 'w', 'x', 'y',
   'z']

def letter (d : Nat) : Char :=
  alphabet.getD d '1'

def digit? (c : Char) : Option Nat :=
  alphabet.idxOf? c

inductive Fault where
  /-- The character at `index` is not in the alphabet. -/
  | notInAlphabet (c : Char) (index : Nat)
  /-- The character that begins at `index` is not even ASCII. -/
  | notAscii (index : Nat)
  deriving DecidableEq

def Fault.message : Fault → String
  | .notInAlphabet c index =>
    "provided string contained invalid character " ++ Text.quoteChar c ++ " at byte "
      ++ toString index
  | .notAscii index =>
    "provided string contained non-ascii character starting at byte " ++ toString index

/-- The digits of a text whose first character stands at `index`. -/
def digitsFrom (index : Nat) : List Char → Except Fault (List Nat)
  | [] => .ok []
  | c :: rest =>
    match digit? c with
    | some d => (digitsFrom (index + 1) rest).map (d :: ·)
    | none => .error (if c.toNat < 128 then .notInAlphabet c index else .notAscii index)

/-- The same number, with as many zeros in front, from one base to another. -/
def rebase (source target : Nat) (ds : List Nat) : List Nat :=
  ds.takeWhile (· == 0) ++ Positional.digits target (Positional.value source ds)

def encode (b : Bytes) : String :=
  String.ofList ((rebase 256 58 (b.map UInt8.toNat)).map letter)

/-- The byte string that a text writes in base 58. -/
def decode (t : String) : Except Fault Bytes :=
  (digitsFrom 0 t.toList).map fun ds => (rebase 58 256 ds).map UInt8.ofNat

/-! ## Letters and digits -/

theorem digit?_letter : ∀ d < 58, digit? (letter d) = some d := by decide

theorem letter_of_digit? {c : Char} {d : Nat} (h : digit? c = some d) : letter d = c ∧ d < 58 := by
  obtain ⟨hd, hc, _⟩ := List.idxOf?_eq_some_iff.1 h
  exact ⟨by simpa [letter, List.getD, hd] using hc, hd⟩

end ErasureVault.Base58
