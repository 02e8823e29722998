/-
  Quoted text: how a text or a character is shown inside quotation marks.

  * `quote s` puts a text between double quotes and `quoteChar c` a character between
    single ones; the enclosing quote, the backslash and `\0`, `\t`, `\n`, `\r` are written
    with a backslash, and what does not print with its number in braces;
  * `prints c` says which characters print: all but the marks and the invisible ones, and
    hence every sign of ASCII (`prints_of_ascii`).
-/
import ErasureVault.Text.Invisible
import ErasureVault.Text.Marks

namespace ErasureVault.Text

/-- Whether a character is shown as itself; a mark would join the quote before it. -/
def prints (c : Char) : Bool :=
  !marks.contains c && !invisible.contains c

/-- The signs of ASCII, the space among them, are shown as themselves. -/
theorem prints_of_ascii {c : Char} (h : 32 ≤ c.toNat) (h' : c.toNat < 127) : prints c = true := by
  have hm : ∀ r ∈ marks, 127 ≤ r.1 := by decide +kernel
  have hi : ∀ r ∈ invisible, r.2 < 32 ∨ 127 ≤ r.1 := by decide +kernel
  have hm' : ¬ marks.contains c := by
    rintro hc
    obtain ⟨r, hr, _⟩ := Ranges.contains_iff.1 hc
    have := hm r hr
    omega
  have hi' : ¬ invisible.contains c := by
    rintro hc
    obtain ⟨r, hr, _⟩ := Ranges.contains_iff.1 hc
    have := hi r hr
    omega
  simp only [prints, hm', hi', Bool.not_false, Bool.and_self]

def hexDigits (n : Nat) : String :=
  String.ofList (Nat.toDigits 16 n)

/-- A character as it is shown between two marks `quote`. -/
def escape (quote c : Char) : String :=
  if c = quote ∨ c = '\\' then String.ofList ['\\', c]
  else if c = '\x00' then "\\0"
  else if c = '\t' then "\\t"
  else if c = '\n' then "\\n"
  else if c = '\r' then "\\r"
  else if prints c then String.singleton c
  else "\\u\x7b" ++ hexDigits c.toNat ++ "\x7d"

def quoteChar (c : Char) : String :=
  "'" ++ escape '\'' c ++ "'"

def quote (s : String) : String :=
  "\"" ++ String.join (s.toList.map (escape '"')) ++ "\""

end ErasureVault.Text
