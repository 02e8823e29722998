/-
  Tasks — what a gate looks like from within, when many use the slots at once.

  Behind a gate are two locks. Who wants a snapshot shares the first and copies the table, unless
  somebody is writing it; who rebinds a slot owns the first, locks the second too, writes the table,
  and gives both back. Tasks take turns in any order.

  * `Lock` is a lock that many may share or one may own;
  * `Stage` says how far a task has come, and `Move` what it does next;
  * `Shared` is the table with its locks and all tasks; `Shared.step` lets one task make one move, if
    it can, and `Shared.run` lets tasks make moves one after the other;
  * `Rebinds index new before reply after`: a table that was `before` is `after` once its slot is
    rebound, and `reply` is what the one who does it gets.
-/
import Mathlib.Logic.Function.Basic
import ErasureVault.Slots.Basic

namespace ErasureVault.Slots

/-! ## Locks -/

structure Lock where
  sharers : List Nat
  owner : Option Nat

namespace Lock

/-- The lock that nobody has. -/
def free : Lock :=
  ⟨[], none⟩

/-- Lets a task share the lock, unless somebody owns it. -/
def share (task : Nat) (l : Lock) : Option Lock :=
  if l.owner = none then some { l with sharers := l.sharers ++ [task] } else none

/-- Lets a task own the lock, unless somebody has it. -/
def own (task : Nat) (l : Lock) : Option Lock :=
  if l.owner = none ∧ l.sharers = [] then some { l with owner := some task } else none

/-- Takes the lock from a task that shares it. -/
def unshare (task : Nat) (l : Lock) : Lock :=
  { l with sharers := l.sharers.filter (· ≠ task) }

/-- Takes the lock from its owner. -/
def disown (l : Lock) : Lock :=
  { l with owner := none }

theorem share_eq_some_iff {task : Nat} {l l' : Lock} :
    l.share task = some l' ↔ l.owner = none ∧ l' = { l with sharers := l.sharers ++ [task] } := by
  rw [share, Option.ite_none_right_eq_some, Option.some_inj, eq_comm (a := l')]

theorem own_eq_some_iff {task : Nat} {l l' : Lock} :
    l.own task = some l' ↔
      (l.owner = none ∧ l.sharers = []) ∧ l' = { l with owner := some task } := by
  rw [own, Option.ite_none_right_eq_some, Option.some_inj, eq_comm (a := l')]

end Lock

/-! ## Tasks -/

variable {β : Type}

/-- How far a task has come. -/
inductive Stage (β : Type) where
  /-- It has nothing, but for the reply to its last rebinding, if that was the last that it did. -/
  | outside (reply : Option (Except Failure β))
  /-- It shares the gate, and has not looked at the table yet. -/
  | entered
  /-- It shares the gate, and holds a snapshot. -/
  | holding (view : List β)
  /-- It owns the gate. -/
  | alone (index : Nat) (new : β)
  /-- It owns the gate, and has locked the table. -/
  | locked (index : Nat) (new : β)
  /-- It has written the table, and gives back nothing yet. -/
  | written (index : Nat) (new : β) (reply : Except Failure β)

inductive Move (β : Type) where
  /-- Shares the gate. -/
  | enter
  /-- Copies the table. -/
  | look
  /-- Gives back the snapshot, and the gate. -/
  | leave
  /-- Owns the gate, to rebind a slot. -/
  | seize (index : Nat) (new : β)
  /-- Locks the table. -/
  | lock
  /-- Writes the table, if it has the slot. -/
  | write
  /-- Gives back table and gate. -/
  | finish

/-- A table that many tasks use. -/
structure Shared (β : Type) where
  bindings : List β
  gate : Lock
  /-- The task that has locked the table. -/
  writer : Option Nat
  stage : Nat → Stage β

/-- What becomes of a table whose slot is rebound, and the reply: the binding that was replaced, or
    why none was. -/
def Rebinds (index : Nat) (new : β) (before : List β) (reply : Except Failure β)
    (after : List β) : Prop :=
  match reply with
  | .ok old => rebind index new before = .ok (old, after)
  | .error e => rebind index new before = .error e ∧ after = before

namespace Shared

def ofBindings (bindings : List β) : Shared β :=
  ⟨bindings, .free, none, fun _ => .outside none⟩

def setStage (task : Nat) (stage : Stage β) (s : Shared β) : Shared β :=
  { s with stage := Function.update s.stage task stage }

section setStage

variable (task : Nat) (stage stage' : Stage β) (s : Shared β)

@[simp] theorem setStage_bindings : (s.setStage task stage).bindings = s.bindings := rfl

@[simp] theorem setStage_gate : (s.setStage task stage).gate = s.gate := rfl

@[simp] theorem setStage_writer : (s.setStage task stage).writer = s.writer := rfl

@[simp] theorem setStage_self : (s.setStage task stage).stage task = stage :=
  Function.update_self ..

@[simp] theorem setStage_setStage :
    (s.setStage task stage).setStage task stage' = s.setStage task stage' := by
  rw [setStage, setStage, setStage, Function.update_idem]

end setStage

theorem setStage_of_ne {task n : Nat} (h : n ≠ task) (stage : Stage β) (s : Shared β) :
    (s.setStage task stage).stage n = s.stage n :=
  Function.update_of_ne h ..

/-- Lets a task make a move, if it has come that far and no lock keeps it from it. -/
def step (task : Nat) (m : Move β) (s : Shared β) : Option (Shared β) :=
  match m, s.stage task with
  | .enter, .outside _ => (s.gate.share task).map fun gate => { s with gate }.setStage task .entered
  | .look, .entered =>
    if s.writer = none then some (s.setStage task (.holding s.bindings)) else none
  | .leave, .holding _ =>
    some ({ s with gate := s.gate.unshare task }.setStage task (.outside none))
  | .seize index new, .outside _ =>
    (s.gate.own task).map fun gate => { s with gate }.setStage task (.alone index new)
  | .lock, .alone index new =>
    if s.writer = none then
      some ({ s with writer := some task }.setStage task (.locked index new))
    else none
  | .write, .locked index new =>
    match rebind index new s.bindings with
    | .ok (old, bindings) => some ({ s with bindings }.setStage task (.written index new (.ok old)))
    | .error e => some (s.setStage task (.written index new (.error e)))
  | .finish, .written _ _ reply =>
    some ({ s with gate := s.gate.disown, writer := none }.setStage task (.outside (some reply)))
  | _, _ => none

/-- Lets tasks make moves one after the other, as long as each can. -/
def run : List (Nat × Move β) → Shared β → Option (Shared β)
  | [], s => some s
  | (task, m) :: moves, s => (s.step task m).bind (run moves)

end Shared

end ErasureVault.Slots
