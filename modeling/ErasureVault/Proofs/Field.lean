/-
  The field with 256 elements is a field.

  The product is additive in each factor (`mul_add'`, `add_mul'`), and every element is a sum of
  the eight powers of `x` (`sum_induction`); hence the laws of a commutative ring need only be
  checked on those powers. The inverse is checked element by element.
-/
import ErasureVault.Code.Gf256
import Mathlib.GroupTheory.OrderOfElement
import Mathlib.Data.Nat.Factors
import Mathlib.Algebra.Field.Basic

namespace ErasureVault.Gf256

/-! ## Sums -/

theorem zero_add' (a : Gf256) : 0 + a = a :=
  ext_byte UInt8.zero_xor

theorem add_self (a : Gf256) : a + a = 0 :=
  ext_byte UInt8.xor_self

theorem add_comm' (a b : Gf256) : a + b = b + a :=
  ext_byte (UInt8.xor_comm ..)

theorem add_assoc' (a b c : Gf256) : a + b + c = a + (b + c) :=
  ext_byte (UInt8.xor_assoc ..)

theorem ofNat_byte (a : Gf256) : ofNat a.byte.toNat = a :=
  ext_byte (by simp [byte_ofNat])

/-- An element other than zero is the greatest power of `x` in it and the rest. -/
theorem ofNat_eq_add : ∀ n < 256, n ≠ 0 →
    ofNat n = ofNat (2 ^ n.log2) + ofNat (n - 2 ^ n.log2) ∧ n.log2 < 8 := by
  decide +kernel

/-- A sum closed property of the powers of `x` is one of all elements. -/
theorem sum_induction {P : Gf256 → Prop} (zero : P 0) (add : ∀ a b, P a → P b → P (a + b))
    (pow : ∀ i < 8, P (ofNat (2 ^ i))) (a : Gf256) : P a := by
  suffices ∀ n < 256, P (ofNat n) by
    rw [← ofNat_byte a]
    exact this _ a.byte.toNat_lt
  intro n
  induction n using Nat.strong_induction_on with
  | _ n ih =>
    intro hn
    by_cases h0 : n = 0
    · rw [h0]
      exact zero
    · obtain ⟨he, hl⟩ := ofNat_eq_add n hn h0
      have hpos : 0 < 2 ^ n.log2 := Nat.two_pow_pos _
      rw [he]
      exact add _ _ (pow _ hl) (ih _ (by omega) (by omega))

/-! ## Products -/

/-- A byte has the bit `i` or not. -/
theorem and_two_pow : ∀ i < 8, ∀ n < 256,
    UInt8.ofNat n &&& UInt8.ofNat (2 ^ i) = 0 ∨
      UInt8.ofNat n &&& UInt8.ofNat (2 ^ i) = UInt8.ofNat (2 ^ i) := by
  decide +kernel

/-- Picking `c` by the bit `i` is additive. -/
theorem ite_bit_xor {i : Nat} (hi : i < 8) (a b c : UInt8) :
    (if (a ^^^ b) &&& UInt8.ofNat (2 ^ i) = 0 then 0 else c) =
      (if a &&& UInt8.ofNat (2 ^ i) = 0 then 0 else c) ^^^
        (if b &&& UInt8.ofNat (2 ^ i) = 0 then 0 else c) := by
  have hx : (a ^^^ b) &&& UInt8.ofNat (2 ^ i) =
      (a &&& UInt8.ofNat (2 ^ i)) ^^^ (b &&& UInt8.ofNat (2 ^ i)) :=
    UInt8.toNat_inj.1 (by simp only [UInt8.toNat_and, UInt8.toNat_xor, Nat.and_xor_distrib_right])
  have hbit (d : UInt8) := and_two_pow i hi d.toNat d.toNat_lt
  simp only [UInt8.ofNat_toNat] at hbit
  rw [hx]
  rcases hbit a with ha | ha <;> rcases hbit b with hb | hb <;> rw [ha, hb] <;>
    by_cases h : UInt8.ofNat (2 ^ i) = 0 <;> simp [h]

theorem timesX_xor (a b : UInt8) : timesX (a ^^^ b) = timesX a ^^^ timesX b := by
  have h := ite_bit_xor (i := 7) (by omega) a b 0x1D
  have h80 : UInt8.ofNat (2 ^ 7) = 0x80 := rfl
  rw [h80] at h
  rw [timesX, timesX, timesX, UInt8.shiftLeft_xor, h]
  ac_rfl

theorem mulBits_xor_left (n : Nat) (a b c : UInt8) :
    mulBits n (a ^^^ b) c = mulBits n a c ^^^ mulBits n b c := by
  induction n generalizing a b c with
  | zero => simp only [mulBits, UInt8.xor_self]
  | succ n ih =>
    rw [mulBits, mulBits, mulBits, timesX_xor, ih]
    split
    · rw [UInt8.zero_xor, UInt8.zero_xor, UInt8.zero_xor]
    · ac_rfl

theorem mulBits_xor_right (n : Nat) (a b c : UInt8) :
    mulBits n a (b ^^^ c) = mulBits n a b ^^^ mulBits n a c := by
  induction n generalizing a b c with
  | zero => simp only [mulBits, UInt8.xor_self]
  | succ n ih =>
    have h := ite_bit_xor (i := 0) (by omega) b c a
    have h1 : UInt8.ofNat (2 ^ 0) = 1 := rfl
    rw [h1] at h
    rw [mulBits, mulBits, mulBits, UInt8.shiftRight_xor, ih, h]
    ac_rfl

/-- Products with `x` move out of the first factor. -/
theorem mulBits_timesX (n : Nat) (a b : UInt8) :
    mulBits n (timesX a) b = timesX (mulBits n a b) := by
  induction n generalizing a b with
  | zero => simp [mulBits, timesX]
  | succ n ih =>
    rw [mulBits, mulBits, timesX_xor, ih]
    split
    · rw [show timesX 0 = 0 by decide]
    · rfl

theorem add_mul' (a b c : Gf256) : (a + b) * c = a * c + b * c :=
  ext_byte (mulBits_xor_left 8 ..)

theorem mul_add' (a b c : Gf256) : a * (b + c) = a * b + a * c :=
  ext_byte (mulBits_xor_right 8 ..)

theorem zero_mul' (a : Gf256) : 0 * a = 0 := by
  have h := add_mul' 0 0 a
  rw [zero_add'] at h
  rw [h, add_self]

theorem mul_zero' (a : Gf256) : a * 0 = 0 := by
  have h := mul_add' a 0 0
  rw [zero_add'] at h
  rw [h, add_self]

/-! ## The ring laws -/

theorem one_mul' (a : Gf256) : 1 * a = a := by
  induction a using sum_induction with
  | zero => exact mul_zero' 1
  | add a b ha hb => rw [mul_add', ha, hb]
  | pow i hi => revert i; decide +kernel

theorem mul_comm' (a b : Gf256) : a * b = b * a := by
  induction a using sum_induction with
  | zero => rw [zero_mul', mul_zero']
  | add a a' ha ha' => rw [add_mul', mul_add', ha, ha']
  | pow i hi =>
    induction b using sum_induction with
    | zero => rw [zero_mul', mul_zero']
    | add b b' hb hb' => rw [add_mul', mul_add', hb, hb']
    | pow j hj => revert i j; decide +kernel

/-- The product with `x`. -/
def mulX (a : Gf256) : Gf256 :=
  ⟨timesX a.byte⟩

theorem mulX_mul (a b : Gf256) : mulX a * b = mulX (a * b) :=
  ext_byte (mulBits_timesX 8 ..)

theorem mul_mulX (a b : Gf256) : a * mulX b = mulX (a * b) := by
  rw [mul_comm', mulX_mul, mul_comm']

/-- The powers of `x` come from one another. -/
theorem ofNat_two_pow_succ : ∀ i < 7, ofNat (2 ^ (i + 1)) = mulX (ofNat (2 ^ i)) := by
  decide +kernel

theorem mul_assoc' (a b c : Gf256) : a * b * c = a * (b * c) := by
  induction b using sum_induction with
  | zero => rw [mul_zero', zero_mul', mul_zero']
  | add b b' hb hb' => rw [mul_add', add_mul', add_mul', mul_add', hb, hb']
  | pow i hi =>
    induction i with
    | zero =>
      rw [show ofNat (2 ^ 0) = 1 from rfl, one_mul', mul_comm' a, one_mul']
    | succ i ih =>
      rw [ofNat_two_pow_succ i (by omega), mul_mulX, mulX_mul, mulX_mul, mul_mulX, ih (by omega)]

instance : CommRing Gf256 where
  add_assoc := add_assoc'
  zero_add := zero_add'
  add_zero a := by rw [add_comm', zero_add']
  add_comm := add_comm'
  nsmul := nsmulRec
  neg_add_cancel := add_self
  zsmul := zsmulRec
  sub_eq_add_neg _ _ := rfl
  left_distrib := mul_add'
  right_distrib := add_mul'
  zero_mul := zero_mul'
  mul_zero := mul_zero'
  mul_assoc := mul_assoc'
  one_mul := one_mul'
  mul_one a := by rw [mul_comm', one_mul']
  mul_comm := mul_comm'

/-! ## Inverses -/

/-- The element `x`, of which all units are powers. -/
def generator : Gf256 := ofNat 2

theorem generator_pow : generator ^ 255 = 1 := by decide +kernel

/-- **The order of `x` is 255.** -/
theorem orderOf_generator : orderOf generator = 255 := by
  refine orderOf_eq_of_pow_and_pow_div_prime (by omega) generator_pow fun p hp hd => ?_
  have hp' : p ∈ Nat.primeFactors 255 := Nat.mem_primeFactors.2 ⟨hp, hd, by omega⟩
  have hf : Nat.primeFactors 255 = {3, 5, 17} := by decide +kernel
  rw [hf] at hp'
  simp only [Finset.mem_insert, Finset.mem_singleton] at hp'
  rcases hp' with rfl | rfl | rfl <;> decide +kernel

/-- The elements, numbered. -/
def equivFin : Gf256 ≃ Fin 256 where
  toFun a := ⟨a.byte.toNat, a.byte.toNat_lt⟩
  invFun n := ofNat n
  left_inv := ofNat_byte
  right_inv n := Fin.ext (by simp [byte_ofNat])

instance : Fintype Gf256 := Fintype.ofEquiv _ equivFin.symm

theorem generator_pow_ne_zero (j : ℕ) : generator ^ j ≠ 0 := by
  intro h
  have hone : (generator ^ j) ^ 255 = 1 := by
    rw [← pow_mul, mul_comm, pow_mul, generator_pow, one_pow]
  rw [h, zero_pow (by omega)] at hone
  exact absurd hone (by decide)

/-- The powers of `x` are all elements other than zero, as there are as many of them. -/
theorem image_generator_pow :
    (Finset.range 255).image (generator ^ ·) = Finset.univ.erase (0 : Gf256) := by
  have hinj : Set.InjOn (generator ^ ·) (Finset.range 255 : Set ℕ) := by
    have := pow_injOn_Iio_orderOf (x := generator)
    rw [orderOf_generator] at this
    simpa using this
  have hcard : (Finset.univ.erase (0 : Gf256)).card = 255 := by
    rw [Finset.card_erase_of_mem (Finset.mem_univ _), Finset.card_univ,
      Fintype.card_congr equivFin, Fintype.card_fin]
  refine Finset.eq_of_subset_of_card_le (fun b hb => ?_) ?_
  · obtain ⟨j, -, rfl⟩ := Finset.mem_image.1 hb
    exact Finset.mem_erase.2 ⟨generator_pow_ne_zero j, Finset.mem_univ _⟩
  · rw [hcard, Finset.card_image_of_injOn hinj, Finset.card_range]

theorem exists_generator_pow {a : Gf256} (ha : a ≠ 0) : ∃ j, generator ^ j = a := by
  have hmem : a ∈ (Finset.range 255).image (generator ^ ·) := by
    rw [image_generator_pow]
    exact Finset.mem_erase.2 ⟨ha, Finset.mem_univ _⟩
  obtain ⟨j, -, hj⟩ := Finset.mem_image.1 hmem
  exact ⟨j, hj⟩

theorem squares_eq_pow (n : Nat) (a : Gf256) : squares n a = a ^ (2 ^ n - 1) := by
  induction n generalizing a with
  | zero => rfl
  | succ n ih =>
    have h : 2 ^ (n + 1) - 1 = 1 + 2 * (2 ^ n - 1) := by have := Nat.two_pow_pos n; omega
    rw [squares, ih, h, pow_add, pow_mul, pow_one, pow_two]

theorem mul_inv_cancel' (a : Gf256) (h : a ≠ 0) : a * a⁻¹ = 1 := by
  obtain ⟨j, rfl⟩ := exists_generator_pow h
  have hinv : (generator ^ j)⁻¹ = (generator ^ j) ^ 254 := by
    change squares 7 (generator ^ j * generator ^ j) = _
    rw [squares_eq_pow, ← pow_two, ← pow_mul]
    rfl
  calc generator ^ j * (generator ^ j)⁻¹ = (generator ^ j) ^ 255 := by rw [hinv, ← pow_succ']
    _ = (generator ^ 255) ^ j := by rw [← pow_mul, ← pow_mul, mul_comm]
    _ = 1 := by rw [generator_pow, one_pow]

/-- **The bytes are a field.** -/
instance : Field Gf256 where
  exists_pair_ne := ⟨0, 1, by decide⟩
  mul_inv_cancel := mul_inv_cancel'
  inv_zero := by decide +kernel
  nnqsmul := _
  qsmul := _

end ErasureVault.Gf256
