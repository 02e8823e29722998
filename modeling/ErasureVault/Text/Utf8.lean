/-
  UTF-8 — texts as byte strings, and where a byte string stops being a text.

  * `utf8 s` are the bytes of the text `s`, and `ofUtf8 b` reads them
    (`ofUtf8_utf8`: every text reads back; `utf8_injective`);
  * `Utf8Fault` is the place of the first bytes that begin no character, and
    `utf8Fault` finds it: a character is taken off the front while there is one.
-/
import ErasureVault.Bytes

namespace ErasureVault.Text

/-- The first place at which a byte string is no UTF-8 text. -/
inductive Utf8Fault where
  /-- The `count` bytes from `index` on begin no character. -/
  | invalid (index count : Nat)
  /-- The bytes from `index` on begin a character, and end inside it. -/
  | truncated (index : Nat)
  deriving DecidableEq

def Utf8Fault.message : Utf8Fault → String
  | .invalid index count =>
    "invalid utf-8 sequence of " ++ toString count ++ " bytes from index " ++ toString index
  | .truncated index => "incomplete utf-8 byte sequence from index " ++ toString index

/-! ## Characters at the front of a byte string -/

/-- What stands at the front of a byte string. -/
inductive Utf8Front where
  /-- A character of `extra` bytes after its first. -/
  | character (extra : Nat)
  /-- `count` bytes that begin no character. -/
  | invalid (count : Nat)
  /-- The beginning of a character. -/
  | truncated
  deriving DecidableEq

/-- For the first byte of a longer character: the least and the greatest second byte, and how
    many bytes follow that. -/
def secondByte (lead : UInt8) : Option (UInt8 × UInt8 × Nat) :=
  if 0xC2 ≤ lead ∧ lead ≤ 0xDF then some (0x80, 0xBF, 0)
  else if lead = 0xE0 then some (0xA0, 0xBF, 1)
  else if lead = 0xED then some (0x80, 0x9F, 1)
  else if 0xE1 ≤ lead ∧ lead ≤ 0xEF then some (0x80, 0xBF, 1)
  else if lead = 0xF0 then some (0x90, 0xBF, 2)
  else if lead = 0xF4 then some (0x80, 0x8F, 2)
  else if 0xF1 ≤ lead ∧ lead ≤ 0xF3 then some (0x80, 0xBF, 2)
  else none

/-- The last `owed` bytes of a character of which `seen` bytes have been read. -/
def lastBytes (seen : Nat) : (owed : Nat) → Bytes → Utf8Front
  | 0, _ => .character (seen - 1)
  | _ + 1, [] => .truncated
  | owed + 1, b :: rest =>
    if 0x80 ≤ b ∧ b ≤ 0xBF then lastBytes (seen + 1) owed rest else .invalid seen

/-- The front of a byte string that begins with `lead`. -/
def utf8Front (lead : UInt8) (rest : Bytes) : Utf8Front :=
  if lead < 0x80 then .character 0
  else
    match secondByte lead with
    | none => .invalid 1
    | some (least, greatest, owed) =>
      match rest with
      | [] => .truncated
      | b :: rest =>
        if least ≤ b ∧ b ≤ greatest then lastBytes 2 owed rest else .invalid 1

/-- The first fault of the bytes from `index` on, if there is one. -/
def utf8FaultFrom (index : Nat) : Bytes → Option Utf8Fault
  | [] => none
  | lead :: rest =>
    match utf8Front lead rest with
    | .character extra => utf8FaultFrom (index + 1 + extra) (rest.drop extra)
    | .invalid count => some (.invalid index count)
    | .truncated => some (.truncated index)
termination_by b => b.length
decreasing_by simp only [List.length_drop, List.length_cons]; omega

/-- The first fault of a byte string, if there is one. -/
def utf8Fault (b : Bytes) : Option Utf8Fault :=
  utf8FaultFrom 0 b

/-! ## Texts -/

def utf8 (s : String) : Bytes :=
  s.toByteArray.data.toList

/-- The text whose bytes are `b`, or the first fault. -/
def ofUtf8 (b : Bytes) : Except Utf8Fault String :=
  match String.fromUTF8? ⟨b.toArray⟩ with
  | some s => .ok s
  | none => .error ((utf8Fault b).getD (.truncated b.length))

theorem ofUtf8_utf8 (s : String) : ofUtf8 (utf8 s) = .ok s := by
  have h : (⟨(utf8 s).toArray⟩ : ByteArray) = s.toByteArray := by simp [utf8]
  simp [ofUtf8, h, String.fromUTF8?, s.isValidUTF8, String.fromUTF8]

theorem utf8_injective {s t : String} (h : utf8 s = utf8 t) : s = t := by
  have hs := ofUtf8_utf8 s
  rw [h, ofUtf8_utf8 t] at hs
  exact (Except.ok.inj hs).symm

end ErasureVault.Text
