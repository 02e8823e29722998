/-
  The field with 256 elements: polynomials of degree below eight over the two-element
  field, modulo x⁸ + x⁴ + x³ + x² + 1.

  * an element is a byte, the coefficient of `xⁱ` in bit `i`; `Gf256.ofNat` numbers the
    elements by their bytes;
  * the sum, and the difference, is the exclusive or; the product adds up the shifts `a·xⁱ`
    of one factor for the bits `i` of the other (`timesX`, `mulBits`);
  * `a⁻¹` is `a²⁵⁴`, as the 255 units of the field form a group.
-/

namespace ErasureVault

/-- An element of the field with 256 elements. -/
structure Gf256 where
  /-- The coefficients of the polynomial, that of `xⁱ` in bit `i`. -/
  byte : UInt8
  deriving DecidableEq

namespace Gf256

def ofNat (n : Nat) : Gf256 :=
  ⟨UInt8.ofNat n⟩

instance : Zero Gf256 := ⟨⟨0⟩⟩

instance : One Gf256 := ⟨⟨1⟩⟩

instance : Inhabited Gf256 := ⟨0⟩

instance : Add Gf256 := ⟨fun a b => ⟨a.byte ^^^ b.byte⟩⟩

instance : Neg Gf256 := ⟨fun a => a⟩

instance : Sub Gf256 := ⟨fun a b => ⟨a.byte ^^^ b.byte⟩⟩

/-- The product with `x`, reduced. -/
def timesX (a : UInt8) : UInt8 :=
  (a <<< 1) ^^^ (if a &&& 0x80 = 0 then 0 else 0x1D)

/-- The product of `a` and the polynomial in the low `n` bits of `b`. -/
def mulBits : (n : Nat) → (a b : UInt8) → UInt8
  | 0, _, _ => 0
  | n + 1, a, b => (if b &&& 1 = 0 then 0 else a) ^^^ mulBits n (timesX a) (b >>> 1)

instance : Mul Gf256 := ⟨fun a b => ⟨mulBits 8 a.byte b.byte⟩⟩

/-- The product of `a, a², a⁴, …`, of `n` factors. -/
def squares : (n : Nat) → Gf256 → Gf256
  | 0, _ => 1
  | n + 1, a => a * squares n (a * a)

/-- The inverse `a²⁵⁴` of an element other than zero; that of zero is zero. -/
instance : Inv Gf256 := ⟨fun a => squares 7 (a * a)⟩

instance : Div Gf256 := ⟨fun a b => a * b⁻¹⟩

theorem ext_byte {a b : Gf256} (h : a.byte = b.byte) : a = b := by
  cases a; cases b; simp_all

theorem byte_ofNat (n : Nat) : (ofNat n).byte = UInt8.ofNat n := rfl

theorem zero_byte : (0 : Gf256).byte = 0 := rfl

theorem one_byte : (1 : Gf256).byte = 1 := rfl

theorem add_byte (a b : Gf256) : (a + b).byte = a.byte ^^^ b.byte := rfl

theorem sub_eq_add (a b : Gf256) : a - b = a + b := rfl

theorem mul_byte (a b : Gf256) : (a * b).byte = mulBits 8 a.byte b.byte := rfl

theorem ofNat_injective_below {m n : Nat} (hm : m < 256) (hn : n < 256)
    (h : ofNat m = ofNat n) : m = n := by
  have := congrArg (fun a : Gf256 => a.byte.toNat) h
  simp only [byte_ofNat, UInt8.toNat_ofNat'] at this
  omega

end Gf256

end ErasureVault
