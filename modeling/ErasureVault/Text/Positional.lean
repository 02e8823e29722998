/-
  Positional numerals: numbers as digit lists, the highest digit first.

  * `value base ds` is the number written by the digits `ds`, and `digits base n` writes
    `n` without a leading zero;
  * `value_digits`, `digits_value`: each undoes the other, on digits below the base that
    do not begin with a zero; `digits_lt` and `head_digits_ne_zero`: `digits` writes such.
-/

namespace ErasureVault.Positional

/-- The number that the digits write, the highest first. -/
def value (base : Nat) (ds : List Nat) : Nat :=
  ds.foldl (fun n d => n * base + d) 0

/-- The digits of a number, the highest first; zero has none. -/
def digits (base n : Nat) : List Nat :=
  if _h : base < 2 ∨ n = 0 then [] else digits base (n / base) ++ [n % base]
termination_by n
decreasing_by exact Nat.div_lt_self (by omega) (by omega)

@[simp] theorem value_nil (base : Nat) : value base [] = 0 := rfl

theorem value_append_singleton (base : Nat) (ds : List Nat) (d : Nat) :
    value base (ds ++ [d]) = value base ds * base + d := by
  simp [value]

theorem value_digits (base n : Nat) (hb : 2 ≤ base) : value base (digits base n) = n := by
  fun_induction digits base n with
  | case1 n h => simp; omega
  | case2 n _ ih => rw [value_append_singleton, ih, Nat.mul_comm, Nat.div_add_mod]

theorem digits_lt (base n : Nat) : ∀ d ∈ digits base n, d < base := by
  fun_induction digits base n with
  | case1 => simp
  | case2 n h ih =>
    intro d hd
    rcases List.mem_append.1 hd with hd | hd
    · exact ih d hd
    · rw [List.mem_singleton.1 hd]; exact Nat.mod_lt _ (by omega)

theorem digits_zero (base : Nat) : digits base 0 = [] := by
  rw [digits]; simp

theorem digits_pos {base n : Nat} (hb : 2 ≤ base) (hn : 0 < n) :
    digits base n = digits base (n / base) ++ [n % base] := by
  rw [digits, dif_neg (by omega)]

theorem head_digits_ne_zero (base n : Nat) : (digits base n).head? ≠ some 0 := by
  fun_induction digits base n with
  | case1 => simp
  | case2 n h ih =>
    by_cases hq : n / base = 0
    · have : n % base = n := Nat.mod_eq_of_lt ((Nat.div_eq_zero_iff_lt (by omega)).1 hq)
      simp [hq, digits_zero, this]; omega
    · rw [List.head?_append]
      have : digits base (n / base) ≠ [] := by
        rw [digits_pos (by omega) (Nat.pos_of_ne_zero hq)]; simp
      cases hd : digits base (n / base) with
      | nil => exact absurd hd this
      | cons d ds => rw [hd] at ih; simpa using ih

/-- Digits that do not begin with a zero are the digits of the number they write. -/
theorem digits_value (base : Nat) (ds : List Nat) (hb : 2 ≤ base) (hlt : ∀ d ∈ ds, d < base)
    (hhead : ds.head? ≠ some 0) : digits base (value base ds) = ds := by
  induction hn : ds.length generalizing ds with
  | zero => rw [List.eq_nil_of_length_eq_zero hn]; exact digits_zero base
  | succ n ih =>
    obtain ⟨init, d, rfl⟩ : ∃ init d, ds = init ++ [d] :=
      ⟨ds.dropLast, ds.getLast (by intro h; simp [h] at hn),
        (List.dropLast_concat_getLast _).symm⟩
    have hd : d < base := hlt d (by simp)
    have hinit : digits base (value base init) = init := by
      refine ih init (fun e he => hlt e (by simp [he])) ?_ (by simpa using hn)
      cases init with
      | nil => simp
      | cons e init => simpa using hhead
    have hq : (value base init * base + d) / base = value base init := by
      rw [Nat.mul_comm, Nat.mul_add_div (by omega), Nat.div_eq_of_lt hd, Nat.add_zero]
    have hr : (value base init * base + d) % base = d := by
      rw [Nat.mul_comm, Nat.mul_add_mod, Nat.mod_eq_of_lt hd]
    have hpos : 0 < value base init * base + d := by
      cases init with
      | nil => simp at hhead ⊢; omega
      | cons e init =>
        have : value base (e :: init) ≠ 0 := by
          intro h; rw [h, digits_zero] at hinit; simp at hinit
        have := Nat.mul_pos (Nat.pos_of_ne_zero this) (show 0 < base by omega)
        omega
    rw [value_append_singleton, digits_pos hb hpos, hq, hr, hinit]

end ErasureVault.Positional
