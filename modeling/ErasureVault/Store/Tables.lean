/-
  Table stores — shards and records in two tables that outlive the process.

  * `Tables` are the two tables on disk; they change by single writes (`TableWrite`,
    `Tables.apply`), each of which happens wholly or not at all;
  * `putWrites` and `deleteWrites` are the writes of an operation in their order: a record is
    written after its shard and removed before it, so that a record never lacks its shard;
  * `TableStore` adds the counters, which are lost when the store is closed: `TableStore.openOn`
    counts the bytes afresh;
  * `Tables.insertRaw` sets a record of a named table from outside.
-/
import ErasureVault.Store.Meter
import ErasureVault.Table

namespace ErasureVault

structure Tables where
  shards : Table Bytes
  records : Table Bytes

inductive TableWrite where
  | setShard (k data : Bytes)
  | setRecord (k record : Bytes)
  | dropShard (k : Bytes)
  | dropRecord (k : Bytes)
  deriving DecidableEq

/-- The writes that store a shard and its record, the shard first. -/
def putWrites (k record data : Bytes) : List TableWrite :=
  [.setShard k data, .setRecord k record]

/-- The writes that remove a shard and its record, the record first. -/
def deleteWrites (k : Bytes) : List TableWrite :=
  [.dropRecord k, .dropShard k]

namespace Tables

def empty : Tables :=
  ⟨.empty, .empty⟩

def apply (t : Tables) : TableWrite → Tables
  | .setShard k data => { t with shards := t.shards.insert k data }
  | .setRecord k record => { t with records := t.records.insert k record }
  | .dropShard k => { t with shards := t.shards.erase k }
  | .dropRecord k => { t with records := t.records.erase k }

def applyAll (t : Tables) (writes : List TableWrite) : Tables :=
  writes.foldl apply t

def footprint (t : Tables) (k : Bytes) : Nat :=
  (t.shards.get? k).elim 0 List.length + (t.records.get? k).elim 0 List.length

def totalBytes (t : Tables) : Nat :=
  t.shards.total List.length + t.records.total List.length

/-- Sets a value in the table of the given name; other names are not part of the store. -/
def insertRaw (t : Tables) (name : String) (k data : Bytes) : Tables :=
  if name = "shards" then t.apply (.setShard k data)
  else if name = "meta" then t.apply (.setRecord k data)
  else t

end Tables

/-- A store that keeps its entries in two tables. -/
structure TableStore where
  tables : Tables
  meter : Meter

namespace TableStore

def openOn (capacity : Nat) (t : Tables) : TableStore :=
  ⟨t, .fresh capacity t.totalBytes⟩

def put (s : TableStore) (k record data : Bytes) : Except Failure TableStore :=
  (s.meter.accept (s.tables.footprint k) (record.length + data.length)).map fun meter =>
    ⟨s.tables.applyAll (putWrites k record data), meter⟩

def get (s : TableStore) (k : Bytes) : Option Bytes × TableStore :=
  (s.tables.shards.get? k, { s with meter := s.meter.read })

def getRecord (s : TableStore) (k : Bytes) : Option Bytes × TableStore :=
  (s.tables.records.get? k, { s with meter := s.meter.read })

/-- Removes a key, and says whether either table held it. -/
def delete (s : TableStore) (k : Bytes) : Bool × TableStore :=
  let held := (s.tables.records.get? k).isSome || (s.tables.shards.get? k).isSome
  (held,
    ⟨s.tables.applyAll (deleteWrites k),
      if held then s.meter.release (s.tables.footprint k) else s.meter⟩)

def size (s : TableStore) (k : Bytes) : Option Nat :=
  (s.tables.shards.get? k).map List.length

/-- The keys that have a record, ascending. -/
def keys (s : TableStore) : List Bytes :=
  s.tables.records.keys

def usage (s : TableStore) : Usage :=
  ⟨s.tables.records.size, s.meter⟩

end TableStore

end ErasureVault
