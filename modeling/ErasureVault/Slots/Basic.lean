/-
  Slots — the numbered places of a cluster and what is bound to them.

  * `rebind index new bindings` puts a binding in the place of another and gives the one
    it replaced (`rebind_eq_ok_iff`, `length_rebind`); no other place changes;
  * `describeBindings` is the text shown for the addresses bound to the slots.
-/
import ErasureVault.Failure
import ErasureVault.Text.Quoted

namespace ErasureVault.Slots

variable {β : Type}

/-- Replaces the binding at an index, and gives the old one. -/
def rebind (index : Nat) (new : β) (bindings : List β) : Except Failure (β × List β) :=
  match bindings[index]? with
  | some old => .ok (old, bindings.set index new)
  | none => .error (.noSuchSlot index bindings.length)

/-- A binding is replaced exactly if there is one at the index. -/
theorem rebind_eq_ok_iff {index : Nat} {new old : β} {bindings after : List β} :
    rebind index new bindings = .ok (old, after) ↔
      bindings[index]? = some old ∧ after = bindings.set index new := by
  unfold rebind
  cases bindings[index]? <;> simp [eq_comm]

theorem length_rebind {index : Nat} {new old : β} {bindings after : List β}
    (h : rebind index new bindings = .ok (old, after)) : after.length = bindings.length := by
  rw [(rebind_eq_ok_iff.1 h).2, List.length_set]

/-- Without a slot at the index, the failure names it. -/
theorem rebind_eq_error_iff {index : Nat} {new : β} {bindings : List β} {e : Failure} :
    rebind index new bindings = .error e ↔
      bindings.length ≤ index ∧ e = .noSuchSlot index bindings.length := by
  unfold rebind
  cases h : bindings[index]? with
  | none => simp [List.getElem?_eq_none_iff.1 h, eq_comm]
  | some old =>
    have := (List.getElem?_eq_some_iff.1 h).1
    simp; omega

def describeBindings (addresses : List String) : String :=
  "[" ++ ", ".intercalate (addresses.map fun a =>
    "NodeSlot \x7b address: " ++ Text.quote a ++ " \x7d") ++ "]"

end ErasureVault.Slots
