/-
  Stores — where a node keeps its shards, each with the record of its block.

  * `Store` is a memory store, a table store, or one that is offline and fails every call;
  * `Store.put`, `get`, `getRecord`, `delete`, `size`, `scan`, `usage` and `flush` are its
    operations; keys are texts, kept as their bytes, and a scan reads them back, with a failure
    in the place of a key that is no text;
  * `Backend` says which store to open, `Backend.create` opens a new one and `Backend.reopen`
    closes one and opens it again;
  * `StoreSettings` are the settings of a table store.
-/
import ErasureVault.Store.Memory
import ErasureVault.Store.Tables
import ErasureVault.Text.Utf8

namespace ErasureVault

/-- A place for shards and their records. -/
inductive Store where
  | memory (s : MemoryStore)
  | tables (s : TableStore)
  /-- A store that fails every call. -/
  | offline

/-- What an operation on a store gives: its outcome, and the store as it leaves it. -/
abbrev StoreResult (α : Type) := Except Failure α × Store

namespace Store

/-- The failure of every call of a store that is offline. -/
def offlineFailure : Failure := .storage "offline"

def put (key : String) (record data : Bytes) (s : Store) : StoreResult Unit :=
  match s with
  | memory m =>
    match m.put (Text.utf8 key) record data with
    | .ok m => (.ok (), memory m)
    | .error e => (.error e, s)
  | tables t =>
    match t.put (Text.utf8 key) record data with
    | .ok t => (.ok (), tables t)
    | .error e => (.error e, s)
  | offline => (.error offlineFailure, s)

def get (key : String) : Store → StoreResult (Option Bytes)
  | memory m => let (b, m) := m.get (Text.utf8 key); (.ok b, memory m)
  | tables t => let (b, t) := t.get (Text.utf8 key); (.ok b, tables t)
  | offline => (.error offlineFailure, offline)

def getRecord (key : String) : Store → StoreResult (Option Bytes)
  | memory m => let (b, m) := m.getRecord (Text.utf8 key); (.ok b, memory m)
  | tables t => let (b, t) := t.getRecord (Text.utf8 key); (.ok b, tables t)
  | offline => (.error offlineFailure, offline)

def delete (key : String) : Store → StoreResult Bool
  | memory m => let (b, m) := m.delete (Text.utf8 key); (.ok b, memory m)
  | tables t => let (b, t) := t.delete (Text.utf8 key); (.ok b, tables t)
  | offline => (.error offlineFailure, offline)

/-- The length of the shard of a key, if it has one. -/
def size (key : String) : Store → Except Failure (Option Nat)
  | memory m => .ok (m.size (Text.utf8 key))
  | tables t => .ok (t.size (Text.utf8 key))
  | offline => .error offlineFailure

/-- A key as a scan reads it. -/
def scannedKey (k : Bytes) : Except Failure String :=
  match Text.ofUtf8 k with
  | .ok key => .ok key
  | .error fault => .error (.storage ("non-UTF-8 key: " ++ fault.message))

def scan : Store → Except Failure (List (Except Failure String))
  | memory m => .ok (m.keys.map scannedKey)
  | tables t => .ok (t.keys.map scannedKey)
  | offline => .error offlineFailure

/-- The keys, or the first failure of a scan. -/
def allKeys (s : Store) : Except Failure (List String) := do
  (← s.scan).mapM id

/-- The records and the shards of some keys, read one after the other. -/
def readAll : List String → Store → StoreResult (List (String × Option Bytes × Option Bytes))
  | [], s => (.ok [], s)
  | key :: keys, s =>
    let (record, s) := s.getRecord key
    let (shard, s) := s.get key
    let (others, s) := readAll keys s
    ((do return (key, ← record, ← shard) :: (← others)), s)

def dump (s : Store) : StoreResult (List (String × Option Bytes × Option Bytes)) :=
  match s.allKeys with
  | .ok keys => readAll keys s
  | .error e => (.error e, s)

def usage : Store → Except Failure Usage
  | memory m => .ok m.usage
  | tables t => .ok t.usage
  | offline => .error offlineFailure

def flush : Store → Except Failure Unit
  | memory _ | tables _ => .ok ()
  | offline => .error offlineFailure

/-- Replaces a shard in memory, and says whether it was there. -/
def corrupt (key : String) (data : Bytes) : Store → Bool × Store
  | memory m => let (b, m) := m.corrupt (Text.utf8 key) data; (b, memory m)
  | s => (false, s)

def clear : Store → Store
  | memory m => memory m.clear
  | s => s

end Store

/-! ## Opening stores -/

inductive Backend where
  | memory
  /-- Tables that outlive the store, with a capacity. -/
  | persistent
  /-- Tables that outlive the store, without a limit. -/
  | unlimited
  /-- Tables that vanish with the store, without a limit. -/
  | temporary
  | offline
  deriving DecidableEq

namespace Backend

/-- The capacity that a kind of store makes of the one asked for. -/
def capacity (b : Backend) (asked : Nat) : Nat :=
  match b with
  | memory | persistent => asked
  | unlimited | temporary | offline => 0

def create (b : Backend) (asked : Nat) : Store :=
  match b with
  | memory => .memory (.empty (b.capacity asked))
  | persistent | unlimited | temporary => .tables (.openOn (b.capacity asked) .empty)
  | offline => .offline

/-- A new store in a directory that cannot be one. -/
def createBlocked (b : Backend) (asked : Nat) : Except Failure Store :=
  match b with
  | persistent | unlimited => .error (.storage "cannot open")
  | memory | temporary | offline => .ok (b.create asked)

/-- The store after closing and opening it again: what was kept in tables that outlive it is
    still there. -/
def reopen (b : Backend) (asked : Nat) (s : Store) : Store :=
  match b, s with
  | persistent, .tables t | unlimited, .tables t => .tables (.openOn (b.capacity asked) t.tables)
  | _, _ => b.create asked

/-- The store after closing it, setting a value in the table of the given name, and opening it
    again. -/
def insertRaw (b : Backend) (asked : Nat) (name : String) (k data : Bytes) (s : Store) : Store :=
  match s with
  | .tables t => b.reopen asked (.tables { t with tables := t.tables.insertRaw name k data })
  | s => b.reopen asked s

end Backend

structure StoreSettings where
  path : String
  capacity : Nat
  cache : Nat
  deriving DecidableEq

/-- The settings in a given directory: no limit, and a cache of 256 MiB. -/
def StoreSettings.inDirectory (path : String) : StoreSettings :=
  ⟨path, 0, 256 * 1024 * 1024⟩

/-- The settings where nothing is said. -/
def StoreSettings.standard : StoreSettings :=
  .inDirectory "./stripestore_data"

end ErasureVault
