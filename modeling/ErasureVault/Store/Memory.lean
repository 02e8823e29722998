/-
  Memory stores: one table whose entries hold a shard and its record.

  * `MemoryStore` is such a table with its counters;
  * `put`, `get`, `getRecord` and `delete` are the operations of a store, and give the store as
    they leave it; `corrupt` replaces a shard behind the back of the counters of writes, and
    `clear` forgets everything.
-/
import ErasureVault.Store.Meter
import ErasureVault.Table

namespace ErasureVault

/-- A shard with the record kept beside it. -/
structure Entry where
  record : Bytes
  data : Bytes
  deriving DecidableEq

def Entry.footprint (e : Entry) : Nat :=
  e.record.length + e.data.length

/-- A store that keeps its entries in memory. -/
structure MemoryStore where
  table : Table Entry
  meter : Meter

namespace MemoryStore

def empty (capacity : Nat) : MemoryStore :=
  ⟨.empty, .fresh capacity 0⟩

def footprint (s : MemoryStore) (k : Bytes) : Nat :=
  (s.table.get? k).elim 0 Entry.footprint

def put (s : MemoryStore) (k record data : Bytes) : Except Failure MemoryStore :=
  (s.meter.accept (s.footprint k) (record.length + data.length)).map fun meter =>
    ⟨s.table.insert k ⟨record, data⟩, meter⟩

def get (s : MemoryStore) (k : Bytes) : Option Bytes × MemoryStore :=
  ((s.table.get? k).map Entry.data, { s with meter := s.meter.read })

def getRecord (s : MemoryStore) (k : Bytes) : Option Bytes × MemoryStore :=
  ((s.table.get? k).map Entry.record, { s with meter := s.meter.read })

def delete (s : MemoryStore) (k : Bytes) : Bool × MemoryStore :=
  match s.table.get? k with
  | some e => (true, ⟨s.table.erase k, s.meter.release e.footprint⟩)
  | none => (false, s)

def size (s : MemoryStore) (k : Bytes) : Option Nat :=
  (s.table.get? k).map fun e => e.data.length

def keys (s : MemoryStore) : List Bytes :=
  s.table.keys

def usage (s : MemoryStore) : Usage :=
  ⟨s.table.size, s.meter⟩

/-- Replaces the shard of a key, and says whether it was there. -/
def corrupt (s : MemoryStore) (k data : Bytes) : Bool × MemoryStore :=
  match s.table.get? k with
  | some e =>
    (true, ⟨s.table.insert k { e with data },
      { s.meter with used := s.meter.used - e.data.length + data.length }⟩)
  | none => (false, s)

def clear (s : MemoryStore) : MemoryStore :=
  ⟨.empty, { s.meter with used := 0 }⟩

end MemoryStore

end ErasureVault
