/-
  Gates — how slots are rebound while others use them.

  Whoever uses the slots holds a snapshot of the bindings; a rebinding waits until no snapshot is
  held. Those who wait are served in the order in which they came, and a snapshot waits behind a
  waiting rebinding.

  * `Gate` holds the bindings, the snapshots held and the waiting requests;
  * `Gate.hold?` and `Gate.rebind?` serve a request at once or not at all; `Gate.request` lets it
    wait, as a task whose result `Gate.poll` collects; `Gate.release` gives a snapshot back;
  * `Gate.serve` grants waiting requests from the front as far as possible.
-/
import ErasureVault.Slots.Basic

namespace ErasureVault

inductive Request (β : Type) where
  | snapshot
  | rebind (index : Nat) (new : β)

inductive Reply (β : Type) where
  /-- The number of the snapshot that is now held. -/
  | snapshot (number : Nat)
  /-- The binding that was replaced. -/
  | rebound (old : Except Failure β)

/-- Bindings with those who use them and those who wait to. -/
structure Gate (β : Type) where
  bindings : List β
  /-- The snapshots held, with their numbers. -/
  held : List (Nat × List β)
  /-- The number of snapshots handed out so far. -/
  snapshots : Nat
  /-- The requests that wait, with the numbers of their tasks, the first in front. -/
  queue : List (Nat × Request β)
  /-- The number of tasks so far. -/
  tasks : Nat
  /-- The replies that have not been collected, with the numbers of their tasks. -/
  replies : List (Nat × Reply β)

namespace Gate

variable {β : Type}

def ofBindings (bindings : List β) : Gate β :=
  ⟨bindings, [], 0, [], 0, []⟩

/-! ## Granting requests -/

def grantSnapshot (g : Gate β) : Nat × Gate β :=
  (g.snapshots, { g with
    held := g.held ++ [(g.snapshots, g.bindings)], snapshots := g.snapshots + 1 })

def grantRebind (index : Nat) (new : β) (g : Gate β) : Except Failure β × Gate β :=
  match Slots.rebind index new g.bindings with
  | .ok (old, bindings) => (.ok old, { g with bindings })
  | .error e => (.error e, g)

def answer (task : Nat) (r : Reply β) (g : Gate β) : Gate β :=
  { g with replies := g.replies ++ [(task, r)] }

/-- Grants the given requests from the front, as far as possible; the others wait. -/
def serveAll : List (Nat × Request β) → Gate β → Gate β
  | [], g => { g with queue := [] }
  | (task, .snapshot) :: rest, g =>
    let (number, g) := g.grantSnapshot
    serveAll rest (g.answer task (.snapshot number))
  | (task, .rebind index new) :: rest, g =>
    if g.held.isEmpty then
      let (old, g) := g.grantRebind index new
      serveAll rest (g.answer task (.rebound old))
    else { g with queue := (task, .rebind index new) :: rest }

/-- Grants the waiting requests as far as possible. -/
def serve (g : Gate β) : Gate β :=
  serveAll g.queue g

/-! ## Steps -/

/-- Takes a snapshot, unless somebody waits. -/
def hold? (g : Gate β) : Option (Nat × Gate β) :=
  if g.queue.isEmpty then some g.grantSnapshot else none

/-- Rebinds a slot, unless a snapshot is held or somebody waits. -/
def rebind? (index : Nat) (new : β) (g : Gate β) : Option (Except Failure β × Gate β) :=
  if g.held.isEmpty && g.queue.isEmpty then some (g.grantRebind index new) else none

/-- Makes a request that waits for its turn, and gives the number of its task. -/
def request (r : Request β) (g : Gate β) : Nat × Gate β :=
  (g.tasks, serve { g with queue := g.queue ++ [(g.tasks, r)], tasks := g.tasks + 1 })

/-- Gives a snapshot back, and says whether it was held. -/
def release (number : Nat) (g : Gate β) : Bool × Gate β :=
  (g.held.any fun (n, _) => n = number,
    serve { g with held := g.held.filter fun (n, _) => n ≠ number })

def held? (number : Nat) (g : Gate β) : Option (List β) :=
  g.held.lookup number

/-- Collects the reply to a task, once. -/
def poll (task : Nat) (g : Gate β) : Option (Reply β) × Gate β :=
  (g.replies.lookup task, { g with replies := g.replies.filter fun (t, _) => t ≠ task })

end Gate

end ErasureVault
