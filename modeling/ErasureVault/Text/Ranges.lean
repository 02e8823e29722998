/-
  Ranges — sets of characters, as closed ranges of their numbers.

  * `Ranges.contains rs c` says whether a character lies in one of the ranges (`contains_iff`);
  * `Ranges.ascending rs` checks that the ranges are in order, that none is empty and that none
    touches the next, as each set has one such list.
-/

namespace ErasureVault.Text

/-- Ranges of numbers of characters, each with its least and its greatest. -/
abbrev Ranges := List (Nat × Nat)

namespace Ranges

def contains (rs : Ranges) (c : Char) : Bool :=
  rs.any fun (least, greatest) => least ≤ c.toNat && c.toNat ≤ greatest

/-- Whether the ranges stand in ascending order, none empty and no two adjacent. -/
def ascending : Ranges → Bool
  | [] => true
  | [(least, greatest)] => least ≤ greatest
  | (least, greatest) :: (next, last) :: rest =>
    least ≤ greatest && greatest + 1 < next && ascending ((next, last) :: rest)

/-- A character is in a set if it lies within one of the ranges. -/
theorem contains_iff {rs : Ranges} {c : Char} :
    rs.contains c = true ↔ ∃ r ∈ rs, r.1 ≤ c.toNat ∧ c.toNat ≤ r.2 := by
  simp [contains]

end Ranges

end ErasureVault.Text
