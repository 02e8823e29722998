/-
  Nodes — stores that are reached by calls, and the disturbances on the way.

  * `Method` lists the calls of a node;
  * `Disturbance` says what happens to one call besides the work of the store: it may be late,
    be refused, break down, have its answer replaced, or lose its answer after the work is done;
    `Node.weather` gives the disturbance of each call by its number;
  * `Node.put`, `get`, `getRecord`, `getSize` and `delete` are the calls: what is attempted, and the
    node after a call that runs to its end; a key that is not there is the failure `keyUnknown`;
  * `Node.scan` lists the keys.
-/
import ErasureVault.Block.SizeRecord
import ErasureVault.Call.Basic
import ErasureVault.Store.Basic

namespace ErasureVault

inductive Method where
  | put
  | get
  | getRecord
  | delete
  | size
  | allKeys
  deriving DecidableEq

/-- What happens to a call. -/
inductive Effect where
  /-- The store answers. -/
  | pass
  /-- The call fails before it reaches the store. -/
  | refuse (e : Failure)
  /-- The call breaks down before it reaches the store. -/
  | panic
  /-- The store works, but a value that it gives is replaced. -/
  | forge (b : Bytes)
  /-- The store works, but its answer is lost. -/
  | lose (e : Failure)
  /-- A scan breaks off after some keys. -/
  | breakOff (keys : Nat) (e : Failure)

/-- What happens to a call, and after how many milliseconds. -/
structure Disturbance where
  delay : Nat
  effect : Effect

/-- A call that goes through at once. -/
def Disturbance.calm : Disturbance := ⟨0, .pass⟩

/-- A store that is reached by calls. -/
structure Node where
  /-- The address at which the node was set up. -/
  name : String
  store : Store
  /-- What happens to each call, by the number of calls before it. -/
  weather : Nat → Method → Disturbance
  /-- The number of calls so far. -/
  calls : Nat

namespace Node

def ofStore (name : String) (s : Store) : Node :=
  ⟨name, s, fun _ _ => .calm, 0⟩

instance : Inhabited Node := ⟨ofStore "" .offline⟩

def tick (n : Node) : Node :=
  { n with calls := n.calls + 1 }

/-! ## The work of the store -/

/-- The failure of a node that does not hold a key. -/
def absent {α : Type} (key : String) : Option α → Except Failure α
  | some a => .ok a
  | none => .error (.keyUnknown key)

/-- The value that a store gives for a key. -/
def found {α : Type} (key : String) : StoreResult (Option α) → StoreResult α
  | (.ok a, s) => (absent key a, s)
  | (.error e, s) => (.error e, s)

def storedShard (key : String) (s : Store) : StoreResult Bytes :=
  found key (s.get key)

def storedRecord (key : String) (s : Store) : StoreResult Bytes :=
  found key (s.getRecord key)

def removeKey (key : String) (s : Store) : StoreResult Unit :=
  match s.delete key with
  | (.ok true, s) => (.ok (), s)
  | (.ok false, s) => (.error (.keyUnknown key), s)
  | (.error e, s) => (.error e, s)

def storedSize (key : String) (s : Store) : Except Failure Nat := do
  absent key (← s.size key)

/-- The keys, one after the other; a store that cannot be scanned gives its failure. -/
def scanItems (s : Store) : List (Except Failure String) :=
  match s.scan with
  | .ok items => items
  | .error e => [.error e]

/-! ## Calls -/

/-- A call on the work of the store: what is attempted, and the node after it has run. -/
def call {α : Type} (m : Method) (work : Store → StoreResult α) (forge : Bytes → α → α)
    (n : Node) : Attempt α × Node :=
  let d := n.weather n.calls m
  let (answer, store) := work n.store
  match d.effect with
  | .pass | .breakOff .. => (⟨d.delay, .ofOutcome answer⟩, { n with store })
  | .refuse e => (⟨d.delay, .failure e⟩, n)
  | .panic => (⟨d.delay, .panic⟩, n)
  | .forge b => (⟨d.delay, .ofOutcome (answer.map (forge b))⟩, { n with store })
  | .lose e => (⟨d.delay, .failure e⟩, { n with store })

def put (key : String) (record data : Bytes) : Node → Attempt Unit × Node :=
  call .put (Store.put key record data) fun _ a => a

def get (key : String) : Node → Attempt Bytes × Node :=
  call .get (storedShard key) fun b _ => b

def getRecord (key : String) : Node → Attempt Bytes × Node :=
  call .getRecord (storedRecord key) fun b _ => b

/-- Asks for the size of a block, as the record of its key states it. -/
def getSize (key : String) (n : Node) : Attempt SizeRecord × Node :=
  let (attempt, n) := n.getRecord key
  (attempt.mapOutcome SizeRecord.decode, n)

def delete (key : String) : Node → Attempt Unit × Node :=
  call .delete (removeKey key) fun _ a => a

/-- The keys of a node, which are listed without waiting. -/
def scan (n : Node) : List (Except Failure String) :=
  match (n.weather n.calls .allKeys).effect with
  | .refuse e | .lose e => [.error e]
  | .breakOff keys e => (scanItems n.store).take keys ++ [.error e]
  | .pass | .panic | .forge _ => scanItems n.store

end Node

end ErasureVault
