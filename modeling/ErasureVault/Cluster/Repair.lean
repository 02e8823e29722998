/-
  Repairing slots — giving a slot the shards that it should hold, by the keys of another.

  * `Lookups` is what a repair looks up on its way, and `Lookups.plain` how it does so;
  * `Cluster.repairKey` gives a slot its shard of one block, unless it holds the key already: the
    block is read from the other slots and checked against its id before its shard is written;
  * `Cluster.repairKeys` does so for the keys of a scan, one after the other, and stops at the
    first failure; `RepairReport` counts what was done;
  * `Cluster.repair` scans one slot to repair another, `Cluster.rebind` binds a slot to another
    node, and `Cluster.replace` does both;
  * `Cluster.repairKeyBy` and so on are the same with any lookups.
-/
import ErasureVault.Cluster.Read
import ErasureVault.Slots.Basic

namespace ErasureVault

structure RepairReport where
  /-- The keys that were looked at. -/
  scanned : Nat
  /-- The keys whose shard was written. -/
  repaired : Nat
  /-- The keys that the slot held already. -/
  skipped : Nat
  /-- The bytes of the shards written. -/
  written : Nat
  deriving DecidableEq

namespace RepairReport

/-- The report of a repair that has done nothing yet. -/
def empty : RepairReport := ⟨0, 0, 0, 0⟩

/-- The report with one key more, whose shard of `written` bytes was written, or which was skipped. -/
def add (r : RepairReport) (written : Option Nat) : RepairReport :=
  match written with
  | some n =>
    { r with scanned := r.scanned + 1, repaired := r.repaired + 1, written := r.written + n }
  | none => { r with scanned := r.scanned + 1, skipped := r.skipped + 1 }

end RepairReport

/-- The shard of a slot in a rebuilt stripe; an empty block has empty shards. -/
def shardOf (slot size : Nat) (s : Stripe) : Outcome Bytes :=
  match s[slot]?.join with
  | some b => .ok b
  | none =>
    if size = 0 then .ok []
    else .error (.coding ("slot " ++ toString slot ++ " shard was not reconstructed"))

namespace Cluster

/-! ## Lookups -/

/-- What a slot is bound to. -/
def bindingAt (c : Cluster) (slot : Nat) : Outcome Binding :=
  match c.slots[slot]? with
  | some b => .ok b
  | none => .error (.noSuchSlot slot c.slots.length)

theorem bindingAt_eq_ok_iff {c : Cluster} {slot : Nat} {b : Binding} :
    c.bindingAt slot = .ok b ↔ c.slots[slot]? = some b := by
  rw [bindingAt]
  cases c.slots[slot]? <;> simp

/-- The keys of the node that a slot is bound to. -/
def scanSlot (slot : Nat) : Op (List (Except Failure String)) := do
  let c ← Op.cluster
  match c.slots[slot]? with
  | some b =>
    Op.modifyCluster fun c => c.modifyNode b.node Node.tick
    return (c.node b.node).scan
  | none => throw (.noSuchSlot slot c.slots.length)

end Cluster

/-- What a repair looks up on its way. -/
structure Lookups where
  /-- The keys of the slot that is scanned. -/
  scan : Nat → Op (List (Except Failure String))
  /-- What the slot that is repaired is bound to. -/
  target : Cluster → Nat → Op Binding
  /-- The size of the block that the scan lists under a text, which is read as a digest. -/
  size : String → Digest → Op Nat
  /-- The shard of the slot in the stripe of a block of that size. -/
  shard : Nat → Nat → Stripe → Op Bytes

/-- The lookups of a repair, none of which goes beyond the end of a list. -/
def Lookups.plain (token : Token) : Lookups where
  scan := Cluster.scanSlot
  target c slot := Op.ofOutcome (c.bindingAt slot)
  size _ id := Cluster.agreedSize token id
  shard slot size s := Op.ofOutcome (shardOf slot size s)

namespace Cluster

/-! ## Operations -/

/-- Gives a slot its shard of one block; `none` if the slot holds the key already. -/
def repairKeyBy (look : Lookups) (token : Token) (slot : Nat) (key : String) : Op (Option Nat) := do
  let c ← Op.cluster
  let target ← look.target c slot
  let held ← Op.callSlot "get_meta" token slot target (Node.getRecord key)
  if held.isOk then return none
  let id ← Op.ofOutcome (Digest.ofKey key)
  let size ← look.size key id
  let stripe ← collect token key size (some slot)
  let stripe ← restore (if c.geometry.data ≤ slot then .everything else .data) size stripe
  let _ ← Op.ofOutcome (Block.ofParts id (c.geometry.payload size stripe))
  let shard ← look.shard slot size stripe
  let record ← Op.ofOutcome (SizeRecord.ofSize size)
  let stored ← Op.callSlot "put" token slot target (Node.put key record.encode shard)
  Op.ofOutcome (stored.map fun _ => some shard.length)

/-- Gives a slot its shards of the blocks whose keys a scan lists. -/
def repairKeysBy (look : Lookups) (token : Token) (slot : Nat) :
    List (Except Failure String) → RepairReport → Op RepairReport
  | [], report => return report
  | item :: items, report => do
    Op.checkToken token
    let key ← Op.ofOutcome item
    let written ← repairKeyBy look token slot key
    Op.count (.repair written.isSome)
    repairKeysBy look token slot items (report.add written)

/-- Gives the slot `slot` the shards of all blocks that the slot `source` knows. -/
def repairBy (look : Lookups) (token : Token) (source slot : Nat) : Op RepairReport :=
  .timed "repair" do
    let total := (← Op.cluster).slots.length
    if total ≤ source then throw (.noSuchSlot source total)
    if total ≤ slot then throw (.noSuchSlot slot total)
    let items ← look.scan source
    repairKeysBy look token slot items .empty

/-- Binds a slot to another node, and gives the old binding. -/
def rebind (slot : Nat) (new : Binding) : Op Binding := do
  let c ← Op.cluster
  let (old, slots) ← Op.ofOutcome (Slots.rebind slot new c.slots)
  Op.modifyCluster fun c => { c with slots }
  return old

/-- Binds a slot to another node, and gives that the shards of all blocks that the slot `source`
    knows. -/
def replaceBy (look : Lookups) (token : Token) (source slot : Nat) (new : Binding) :
    Op RepairReport := do
  let _ ← rebind slot new
  repairBy look token source slot

def repairKey (token : Token) (slot : Nat) (key : String) : Op (Option Nat) :=
  repairKeyBy (.plain token) token slot key

def repairKeys (token : Token) (slot : Nat) (items : List (Except Failure String))
    (report : RepairReport) : Op RepairReport :=
  repairKeysBy (.plain token) token slot items report

def repair (token : Token) (source slot : Nat) : Op RepairReport :=
  repairBy (.plain token) token source slot

def replace (token : Token) (source slot : Nat) (new : Binding) : Op RepairReport :=
  replaceBy (.plain token) token source slot new

end Cluster

end ErasureVault
