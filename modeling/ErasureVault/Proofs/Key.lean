/-
  Keys: digests and the texts that name them, one for one.

  * Going to another base and back gives the same digits (`Base58.rebase_rebase`), so base 58
    loses nothing of a byte string, and nothing of a text (`decode_encode`, `encode_decode`);
  * a text is read as a digest exactly if it is its key (`Digest.ofKey_eq_ok_iff`), and
    different digests have different keys (`Digest.key_injective`).
-/
import ErasureVault.Block.Key
import Mathlib.Data.List.TakeWhile

namespace ErasureVault

/-! ## Base 58 -/

namespace Positional

theorem value_zeros_append {base : ℕ} {zs : List ℕ} (hz : ∀ d ∈ zs, d = 0) (ds : List ℕ) :
    value base (zs ++ ds) = value base ds := by
  induction zs with
  | nil => rfl
  | cons z zs ih =>
    obtain rfl := hz z (by simp)
    rw [← ih fun d hd => hz d (by simp [hd])]
    simp [value]

end Positional

namespace Base58

open Positional

theorem mem_takeWhile_zero {ds : List ℕ} {d : ℕ} (h : d ∈ ds.takeWhile (· == 0)) : d = 0 := by
  simpa using List.mem_takeWhile_imp h

/-- The zeros in front of the digits of a number are those put there. -/
theorem takeWhile_zero_append_digits (ds : List ℕ) (base n : ℕ) :
    (ds.takeWhile (· == 0) ++ digits base n).takeWhile (· == 0) = ds.takeWhile (· == 0) := by
  rw [List.takeWhile_append_of_pos fun d hd => by simp [mem_takeWhile_zero hd]]
  have hnil : (digits base n).takeWhile (· == 0) = [] := by
    cases hd : digits base n with
    | nil => rfl
    | cons d rest =>
      have hne : d ≠ 0 := fun h => head_digits_ne_zero base n (by rw [hd, h]; rfl)
      simp [hne]
  rw [hnil, List.append_nil]

/-- **Going to another base and back gives the same digits.** -/
theorem rebase_rebase {source target : ℕ} (hs : 2 ≤ source) (ht : 2 ≤ target) {ds : List ℕ}
    (hlt : ∀ d ∈ ds, d < source) : rebase target source (rebase source target ds) = ds := by
  have hsplit : ds.takeWhile (· == 0) ++ ds.dropWhile (· == 0) = ds :=
    List.takeWhile_append_dropWhile
  have hvalue : value target (rebase source target ds) = value source (ds.dropWhile (· == 0)) := by
    rw [rebase, value_zeros_append fun _ => mem_takeWhile_zero, value_digits target _ ht]
    rw [← value_zeros_append (fun _ => mem_takeWhile_zero) (ds.dropWhile (· == 0)), hsplit]
  have hhead : (ds.dropWhile (· == 0)).head? ≠ some 0 := by
    intro h
    have := List.head?_dropWhile_not (· == 0) ds
    simp [h] at this
  have hdrop : ∀ d ∈ ds.dropWhile (· == 0), d < source := fun d hd =>
    hlt d ((List.dropWhile_suffix _).subset hd)
  rw [rebase, hvalue, digits_value source _ hs hdrop hhead]
  rw [rebase, takeWhile_zero_append_digits, hsplit]

theorem rebase_lt {source target : ℕ} (ht : 2 ≤ target) {ds : List ℕ} :
    ∀ d ∈ rebase source target ds, d < target := by
  intro d hd
  rcases List.mem_append.1 hd with h | h
  · have := mem_takeWhile_zero h
    omega
  · exact digits_lt target _ d h

theorem digitsFrom_map_letter {ds : List ℕ} (h : ∀ d ∈ ds, d < 58) (index : ℕ) :
    digitsFrom index (ds.map letter) = .ok ds := by
  induction ds generalizing index with
  | nil => rfl
  | cons d ds ih =>
    rw [List.map_cons, digitsFrom, digit?_letter d (h d (by simp))]
    simp [ih (fun e he => h e (by simp [he])), Except.map]

theorem map_letter_of_digitsFrom {index : ℕ} {cs : List Char} {ds : List ℕ}
    (h : digitsFrom index cs = .ok ds) : ds.map letter = cs ∧ ∀ d ∈ ds, d < 58 := by
  induction cs generalizing index ds with
  | nil =>
    obtain rfl := Except.ok.inj h
    simp
  | cons c cs ih =>
    rw [digitsFrom] at h
    cases hc : digit? c with
    | none => simp [hc] at h
    | some d =>
      simp only [hc] at h
      cases hr : digitsFrom (index + 1) cs with
      | error e => simp [hr, Except.map] at h
      | ok rest =>
        rw [hr] at h
        obtain rfl := Except.ok.inj h
        obtain ⟨hl, hlt⟩ := letter_of_digit? hc
        obtain ⟨hrest, hall⟩ := ih hr
        exact ⟨by rw [List.map_cons, hl, hrest], List.forall_mem_cons.2 ⟨hlt, hall⟩⟩

theorem map_toNat_lt (b : Bytes) : ∀ d ∈ b.map UInt8.toNat, d < 256 := by
  intro d hd
  obtain ⟨c, -, rfl⟩ := List.mem_map.1 hd
  exact c.toNat_lt

theorem decode_encode (b : Bytes) : decode (encode b) = .ok b := by
  rw [decode, encode, String.toList_ofList, digitsFrom_map_letter (rebase_lt (by decide))]
  rw [Except.map, rebase_rebase (by decide) (by decide) (map_toNat_lt b), List.map_map]
  have hid : UInt8.ofNat ∘ UInt8.toNat = id := funext fun _ => UInt8.ofNat_toNat
  rw [hid, List.map_id]

theorem encode_decode {t : String} {b : Bytes} (h : decode t = .ok b) : encode b = t := by
  rw [decode] at h
  cases hd : digitsFrom 0 t.toList with
  | error e => simp [hd, Except.map] at h
  | ok ds =>
    rw [hd] at h
    obtain rfl := Except.ok.inj h
    obtain ⟨hl, hlt⟩ := map_letter_of_digitsFrom hd
    have hbytes : (rebase 58 256 ds).map (UInt8.toNat ∘ UInt8.ofNat) = rebase 58 256 ds := by
      refine (List.map_congr_left fun d hd => ?_).trans (List.map_id _)
      exact UInt8.toNat_ofNat_of_lt' (rebase_lt (by decide) d hd)
    rw [encode, List.map_map, hbytes, rebase_rebase (by decide) (by decide) hlt, hl,
      String.ofList_toList]

end Base58

/-! ## Keys -/

namespace Digest

theorem ofKeyBytes_eq_ok_iff {raw : Bytes} {d : Digest} :
    ofKeyBytes raw = .ok d ↔ raw = d.algorithm.code :: d.bytes := by
  obtain ⟨a, bytes, hlen⟩ := d
  cases raw with
  | nil => simp [ofKeyBytes]
  | cons c rest =>
    rw [ofKeyBytes]
    constructor
    · intro h
      split at h
      · cases hc : Algorithm.ofCode? c with
        | none => simp [Algorithm.ofCode, hc, Except.map] at h
        | some a' =>
          simp only [Algorithm.ofCode, hc, Except.map, Except.ok.injEq, mk.injEq] at h
          obtain ⟨rfl, rfl⟩ := h
          rw [Algorithm.ofCode?_eq_some_iff.1 hc]
      · simp at h
    · intro h
      obtain ⟨rfl, rfl⟩ := List.cons.inj h
      rw [dif_pos hlen, Algorithm.ofCode, Algorithm.ofCode?_eq_some_iff.2 rfl]
      rfl

/-- **A text is read as a digest exactly if it is its key.** -/
theorem ofKey_eq_ok_iff {key : String} {d : Digest} : ofKey key = .ok d ↔ key = d.key := by
  rw [ofKey]
  constructor
  · intro h
    cases hraw : Base58.decode key with
    | error e => simp [hraw] at h
    | ok raw =>
      simp only [hraw] at h
      rw [Digest.key, ← ofKeyBytes_eq_ok_iff.1 h, Base58.encode_decode hraw]
  · rintro rfl
    rw [Digest.key, Base58.decode_encode]
    exact ofKeyBytes_eq_ok_iff.2 rfl

/-- Different digests have different keys. -/
theorem key_injective {d d' : Digest} (h : d.key = d'.key) : d = d' := by
  have hd : ofKey d.key = .ok d := ofKey_eq_ok_iff.2 rfl
  rw [ofKey_eq_ok_iff.2 h] at hd
  exact (Except.ok.inj hd).symm

end Digest

end ErasureVault
