/-
  Interpolation — the values of the least polynomial through given points.

  * `nodeProduct ns c x` is the product of `x - n` over the nodes `n` other than `c`;
  * `weights ns` are the inverses of `nodeProduct ns c c`, one a node `c`, and
    `coefficients ns ws x` what each node contributes at `x`: `nodeProduct ns c x` times its
    weight, the Lagrange polynomial of `c` at `x`;
  * `combine n cs shards` adds up shards of `n` bytes, each times its coefficient; hence
    `valuesAt n points x` are, byte by byte, the values at `x` of the polynomials of
    degree below the number of points that take the given values at the given nodes.
-/
import ErasureVault.Bytes
import ErasureVault.Code.Gf256

namespace ErasureVault.Interpolation

/-! ## Coefficients -/

/-- The product of `x - n` over the nodes `n` other than `c`. -/
def nodeProduct (nodes : List Gf256) (c x : Gf256) : Gf256 :=
  nodes.foldl (fun p n => if n = c then p else p * (x - n)) 1

/-- What makes the polynomial of each node one at that node. -/
def weights (nodes : List Gf256) : List Gf256 :=
  nodes.map fun c => (nodeProduct nodes c c)⁻¹

/-- The values at `x` of the polynomials that are one at one node and zero at the others. -/
def coefficients (nodes ws : List Gf256) (x : Gf256) : List Gf256 :=
  List.zipWith (fun c w => nodeProduct nodes c x * w) nodes ws

/-! ## Sums of shards -/

/-- The shard `s` times `c`, added to `sum`. -/
def addScaled (sum : Bytes) (c : Gf256) (s : Bytes) : Bytes :=
  List.zipWith (fun a b => (⟨a⟩ + c * ⟨b⟩ : Gf256).byte) sum s

/-- The sum of shards of `n` bytes, each times its coefficient. -/
def combine (n : Nat) (cs : List Gf256) (shards : List Bytes) : Bytes :=
  (List.zip cs shards).foldl (fun sum (c, s) => addScaled sum c s) (List.replicate n 0)

/-- Points of equal length: their nodes, the weights of the nodes, and the shard at each. -/
structure Points where
  /-- Where the values are known. -/
  nodes : List Gf256
  /-- The weight of each node. -/
  weights : List Gf256
  /-- The values at each node, one a byte. -/
  shards : List Bytes
  /-- How many bytes each shard has. -/
  length : Nat

/-- The points of shards of `n` bytes at the slots of their numbers. -/
def Points.ofShards (n : Nat) (shards : List (Nat × Bytes)) : Points :=
  let nodes := shards.map fun (slot, _) => Gf256.ofNat slot
  ⟨nodes, Interpolation.weights nodes, shards.map Prod.snd, n⟩

/-- The values at the slot `x` of the polynomials through the points. -/
def Points.valuesAt (p : Points) (x : Nat) : Bytes :=
  combine p.length (coefficients p.nodes p.weights (Gf256.ofNat x)) p.shards

/-! ## Lengths -/

theorem length_addScaled (sum : Bytes) (c : Gf256) (s : Bytes) (h : s.length = sum.length) :
    (addScaled sum c s).length = sum.length := by
  simp [addScaled, h]

/-- A sum of shards of `n` bytes has `n` bytes. -/
theorem length_combine (n : Nat) (cs : List Gf256) (shards : List Bytes)
    (h : ∀ s ∈ shards, s.length = n) : (combine n cs shards).length = n := by
  suffices ∀ (l : List (Gf256 × Bytes)) (sum : Bytes), (∀ p ∈ l, p.2.length = sum.length) →
      (l.foldl (fun sum (c, s) => addScaled sum c s) sum).length = sum.length by
    rw [combine, this] <;> simp
    exact fun c s hp => h s (List.of_mem_zip hp).2
  intro l
  induction l with
  | nil => intro sum _; rfl
  | cons p l ih =>
    intro sum hl
    have hp : (addScaled sum p.1 p.2).length = sum.length :=
      length_addScaled sum p.1 p.2 (hl p (by simp))
    rw [List.foldl_cons, ih _ (fun q hq => by rw [hp]; exact hl q (by simp [hq])), hp]

end ErasureVault.Interpolation
