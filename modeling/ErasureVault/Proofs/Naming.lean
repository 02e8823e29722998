/-
  Keys are exact: one text for one digest, and all of the same length.

  * A number between two powers of a base has that many digits (`Positional.length_digits`), so
    every key has 45 letters (`Digest.length_key`). Each is one byte long, and the short form, which
    takes the first eight bytes, always has them (`Digest.debugKey?_eq`);
  * a repair that asks for the size under the text of the scan, and not under the key of the digest
    it is read as, is the same repair (`Cluster.repairKeyUnder_eq_repairKey`);
  * `Digest.key_exact` puts this together, with the bijection between digests and keys.
-/
import ErasureVault.Cluster.Repair
import ErasureVault.Proofs.Key
import ErasureVault.Text.Utf8
import Mathlib.Algebra.Group.Nat.Defs
import Mathlib.Data.List.Induction

namespace ErasureVault

variable {α β : Type}

/-! ## How many digits a number has -/

namespace Positional

/-- The first digit says between which multiples of a power of the base the number lies. -/
theorem value_cons_bounds {base : ℕ} (d : ℕ) {ds : List ℕ} (h : ∀ e ∈ ds, e < base) :
    d * base ^ ds.length ≤ value base (d :: ds) ∧
      value base (d :: ds) + 1 ≤ (d + 1) * base ^ ds.length := by
  induction ds using List.reverseRecOn with
  | nil => simp [value]
  | append_singleton ds e ih =>
    obtain ⟨hlow, hhigh⟩ := ih fun e' he => h e' (by simp [he])
    have he : e < base := h e (by simp)
    have hlow' := Nat.mul_le_mul_right base hlow
    have hhigh' := Nat.mul_le_mul_right base hhigh
    rw [Nat.add_mul, Nat.one_mul] at hhigh'
    rw [← List.cons_append, value_append_singleton, List.length_append, List.length_singleton,
      Nat.pow_succ, ← Nat.mul_assoc, ← Nat.mul_assoc]
    omega

theorem length_digits {base n k : ℕ} (hb : 2 ≤ base) (hle : base ^ k ≤ n)
    (hlt : n < base ^ (k + 1)) : (digits base n).length = k + 1 := by
  induction k generalizing n with
  | zero =>
    have hq : n / base = 0 := Nat.div_eq_of_lt (by simpa using hlt)
    have hpos : 0 < n := (Nat.pow_pos (by omega)).trans_le hle
    rw [digits_pos hb hpos, hq, digits_zero]
    rfl
  | succ k ih =>
    have hpos : 0 < n := (Nat.pow_pos (by omega)).trans_le hle
    have hle' : base ^ k ≤ n / base := (Nat.le_div_iff_mul_le (by omega)).2 hle
    have hlt' : n / base < base ^ (k + 1) := (Nat.div_lt_iff_lt_mul (by omega)).2 hlt
    rw [digits_pos hb hpos, List.length_append, ih hle' hlt', List.length_singleton]

end Positional

namespace Base58

open Positional

/-- Without a zero in front, only the number counts. -/
theorem rebase_cons_of_ne_zero {source target d : ℕ} (hd : d ≠ 0) (ds : List ℕ) :
    rebase source target (d :: ds) = digits target (value source (d :: ds)) := by
  rw [rebase, List.takeWhile_cons_of_neg (by simpa using hd), List.nil_append]

/-- A byte that is neither very small nor very large, and 32 bytes after it, are 45 letters. -/
theorem length_encode {c : UInt8} {b : Bytes} (hle : 4 ≤ c.toNat) (hlt : c.toNat < 195)
    (hb : b.length = 32) : (encode (c :: b)).length = 45 := by
  obtain ⟨hlow, hhigh⟩ := value_cons_bounds c.toNat (map_toNat_lt b)
  rw [List.length_map, hb] at hlow hhigh
  have hleast : 58 ^ 44 ≤ 4 * 256 ^ 32 := by decide
  have hmost : 195 * 256 ^ 32 ≤ 58 ^ 45 := by decide
  have hfrom : 58 ^ 44 ≤ value 256 (c.toNat :: b.map UInt8.toNat) :=
    hleast.trans ((Nat.mul_le_mul_right _ hle).trans hlow)
  have hto : value 256 (c.toNat :: b.map UInt8.toNat) < 58 ^ 45 :=
    hhigh.trans ((Nat.mul_le_mul_right _ hlt).trans hmost)
  rw [encode, String.length_ofList, List.length_map, List.map_cons,
    rebase_cons_of_ne_zero (by omega), length_digits (by decide) hfrom hto]

theorem utf8Size_letter : ∀ d < 58, (letter d).utf8Size = 1 := by decide

end Base58

/-! ## Texts cut by bytes -/

namespace Text

theorem utf8_append (s t : String) : utf8 (s ++ t) = utf8 s ++ utf8 t := by
  simp [utf8]

theorem length_utf8_ofList {cs : List Char} (h : ∀ c ∈ cs, c.utf8Size = 1) :
    (utf8 (String.ofList cs)).length = cs.length := by
  induction cs with
  | nil => rfl
  | cons c cs ih =>
    obtain ⟨hc, hcs⟩ := List.forall_mem_cons.1 h
    have hcons : String.ofList (c :: cs) = String.ofList [c] ++ String.ofList cs := by
      rw [← String.ofList_append, List.singleton_append]
    have hone : (utf8 (String.ofList [c])).length = 1 := by
      simp [utf8, List.utf8Encode, hc]
    rw [hcons, utf8_append, List.length_append, hone, ih hcs, List.length_cons, Nat.add_comm]

/-- The text of the first `n` bytes; there is none if the text is shorter, or if they end inside a
character. -/
def firstBytes? (n : ℕ) (t : String) : Option String :=
  if n ≤ (utf8 t).length then (ofUtf8 ((utf8 t).take n)).toOption else none

theorem firstBytes?_append (s t : String) : firstBytes? (utf8 s).length (s ++ t) = some s := by
  have hle : (utf8 s).length ≤ (utf8 s ++ utf8 t).length := by simp
  rw [firstBytes?, utf8_append, if_pos hle, List.take_left, ofUtf8_utf8]
  rfl

end Text

/-! ## Keys -/

namespace Digest

/-- `debugKey`, which cuts the key by bytes. -/
def debugKey? (d : Digest) : Option String :=
  (Text.firstBytes? 8 d.key).map fun short => "BlockId(" ++ short ++ ")"

/-- **Every key has 45 letters.** -/
theorem length_key (d : Digest) : d.key.length = 45 := by
  obtain ⟨a, b, hb⟩ := d
  have hcode : 4 ≤ a.code.toNat ∧ a.code.toNat < 195 := by cases a <;> decide
  exact Base58.length_encode hcode.1 hcode.2 hb

theorem utf8Size_of_mem_key {d : Digest} {c : Char} (h : c ∈ d.key.toList) : c.utf8Size = 1 := by
  rw [key, Base58.encode, String.toList_ofList] at h
  obtain ⟨e, he, rfl⟩ := List.mem_map.1 h
  exact Base58.utf8Size_letter e (Base58.rebase_lt (by decide) e he)

/-- The first eight bytes of a key are its first eight letters. -/
theorem debugKey?_eq (d : Digest) : d.debugKey? = some d.debugKey := by
  have hsplit :
      String.ofList (d.key.toList.take 8) ++ String.ofList (d.key.toList.drop 8) = d.key := by
    rw [← String.ofList_append, List.take_append_drop, String.ofList_toList]
  have hshort : (Text.utf8 (String.ofList (d.key.toList.take 8))).length = 8 := by
    rw [Text.length_utf8_ofList fun c hc => utf8Size_of_mem_key (List.mem_of_mem_take hc),
      List.length_take, String.length_toList, length_key]
    rfl
  have hfirst := Text.firstBytes?_append (String.ofList (d.key.toList.take 8))
    (String.ofList (d.key.toList.drop 8))
  rw [hshort, hsplit] at hfirst
  rw [debugKey?, hfirst]
  rfl

theorem ofKeyBytes_eq_error {raw : Bytes} {e : Failure} (h : ofKeyBytes raw = .error e) :
    ∃ reason, e = .badKey reason := by
  cases raw with
  | nil => exact ⟨_, (Except.error.inj h).symm⟩
  | cons c bytes =>
    rw [ofKeyBytes] at h
    by_cases hlen : bytes.length = 32
    · rw [dif_pos hlen, Algorithm.ofCode] at h
      cases hc : Algorithm.ofCode? c with
      | none =>
        rw [hc] at h
        exact ⟨_, (Except.error.inj h).symm⟩
      | some a =>
        rw [hc] at h
        cases h
    · rw [dif_neg hlen] at h
      exact ⟨_, (Except.error.inj h).symm⟩

/-- The texts that are no keys are refused, and no others. -/
theorem ofKey_eq_badKey_iff {text : String} :
    (∃ reason, ofKey text = .error (.badKey reason)) ↔ ¬∃ d : Digest, text = d.key := by
  constructor
  · rintro ⟨reason, h⟩ ⟨d, rfl⟩
    rw [ofKey_eq_ok_iff.2 rfl] at h
    cases h
  · intro hnone
    cases h : ofKey text with
    | ok d => exact absurd ⟨d, ofKey_eq_ok_iff.1 h⟩ hnone
    | error e =>
      rw [ofKey] at h
      cases hraw : Base58.decode text with
      | ok raw =>
        rw [hraw] at h
        obtain ⟨reason, rfl⟩ := ofKeyBytes_eq_error h
        exact ⟨reason, rfl⟩
      | error fault =>
        rw [hraw] at h
        exact ⟨fault.message, h.symm⟩

end Digest

/-! ## One text throughout a repair -/

/-- What follows an outcome matters only where it is a value. -/
theorem Op.ofOutcome_bind_congr {o : Outcome α} {f f' : α → Op β}
    (h : ∀ a, o = .ok a → f a = f' a) : (Op.ofOutcome o >>= f) = Op.ofOutcome o >>= f' := by
  cases o with
  | ok a => exact h a rfl
  | error e => rfl

namespace Cluster

/-- `repairKey`, which asks for the size under the text of the scan. -/
def repairKeyUnder (token : Token) (slot : ℕ) (key : String) : Op (Option ℕ) :=
  let look : Lookups := { Lookups.plain token with size := fun text _ => agreedSizeUnder token text }
  repairKeyBy look token slot key

/-- The digest that a text is read as has that text as its key. -/
theorem repairKeyUnder_eq_repairKey (token : Token) (slot : ℕ) (key : String) :
    repairKeyUnder token slot key = repairKey token slot key := by
  refine bind_congr fun c => bind_congr fun target => bind_congr fun held => ?_
  split
  · rfl
  · refine Op.ofOutcome_bind_congr fun id hid => ?_
    obtain rfl := Digest.ofKey_eq_ok_iff.1 hid
    rfl

end Cluster

/-! ## Keys are exact -/

/-- **Keys are a bijective encoding of the digests.** A text is read as a digest exactly if it is
its key, and every other text is refused; different digests have different keys, whatever their hash
functions. The size of a block that is repaired is asked for under the text of the scan. A key has
45 characters, and the short form, cut by bytes, never reaches beyond it. -/
theorem Digest.key_exact (text : String) (d : Digest) :
    (ofKey text = .ok d ↔ text = d.key) ∧
    ((∃ reason, ofKey text = .error (.badKey reason)) ↔ ¬∃ d' : Digest, text = d'.key) ∧
    Function.Injective key ∧
    (∀ token slot, Cluster.repairKeyUnder token slot text = Cluster.repairKey token slot text) ∧
    d.key.length = 45 ∧ d.debugKey? = some d.debugKey :=
  ⟨ofKey_eq_ok_iff, ofKey_eq_badKey_iff, fun _ _ => key_injective,
    fun token slot => Cluster.repairKeyUnder_eq_repairKey token slot text,
    length_key d, debugKey?_eq d⟩

end ErasureVault
