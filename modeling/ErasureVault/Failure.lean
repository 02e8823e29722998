/-
  Failures — everything that an operation of the vault can report instead of a result.

  * `Failure` lists the causes; one of them, `slotsFailed`, holds the failures of single slots;
  * `Failure.category` is the coarse class by which readers and writers treat a failure, with
    `Failure.isMissing` (`isMissing_iff`) and `Failure.isCanceled` (`isCanceled_iff`);
  * `Failure.message` is the text shown for a failure;
  * `Failure.canceledByCaller` is the one cancellation to which all others are reduced.
-/

namespace ErasureVault

/-- The classes of failures. -/
inductive Category where
  /-- Shard counts or settings that can never work. -/
  | configuration
  /-- Too few slots agree; trying later may help. -/
  | quorum
  /-- Stored data that contradicts its name or its record. -/
  | corruption
  /-- A key that is not there. -/
  | missing
  /-- A slot that refuses to answer. -/
  | denied
  /-- An operation that its caller gave up. -/
  | canceled
  /-- A slot that cannot be reached in time. -/
  | transport
  /-- Shards that cannot be coded. -/
  | coding
  /-- A node that cannot keep its data. -/
  | storage
  /-- Arguments that mean nothing. -/
  | input
  deriving DecidableEq

inductive Failure where
  /-- A geometry needs data shards and parity shards. -/
  | badGeometry (data parity : Nat)
  /-- A geometry with more shards than the field has elements. -/
  | tooManyShards (total max : Nat)
  /-- Settings that contradict each other. -/
  | misconfigured (reason : String)
  /-- Fewer than `required` slots agree; `failed` slots gave no value. -/
  | readQuorum (agreeing required failed : Nat)
  /-- Fewer than `required` slots stored their shard. -/
  | writeQuorum (succeeded required : Nat)
  /-- Some of `total` slots failed, each with its own failure. -/
  | slotsFailed (total : Nat) (failures : List (Nat × Failure))
  /-- Data whose digest is not the expected one. -/
  | digestMismatch (expected actual : String)
  /-- Bytes that are no size record. -/
  | badRecord (reason : String)
  /-- Shards that cannot be encoded or rebuilt. -/
  | coding (reason : String)
  /-- Fewer shards than the data needs. -/
  | shardsMissing (available required : Nat)
  /-- A block that no slot knows. -/
  | blockUnknown (key : String)
  /-- A key that one slot does not hold. -/
  | keyUnknown (key : String)
  /-- A slot that refuses the request. -/
  | denied (who : String)
  /-- A request that was given up. -/
  | canceled (what : String)
  /-- A slot that cannot be reached. -/
  | transport (reason : String)
  /-- A slot that did not answer within the limit of `limit` milliseconds. -/
  | slotTimeout (slot limit : Nat)
  /-- An index that none of the `total` slots has. -/
  | noSuchSlot (index total : Nat)
  /-- A text that names no block. -/
  | badKey (reason : String)
  /-- A block whose size does not fit into its record. -/
  | blockTooLarge (size max : Nat)
  /-- A node that cannot read or write. -/
  | storage (reason : String)
  /-- A node with no room left. -/
  | storageFull (used capacity : Nat)
  /-- A value that cannot be written as bytes or read from them. -/
  | encoding (reason : String)

namespace Failure

/-! ## Equality -/

mutual

def decideEq (x y : Failure) : Decidable (x = y) :=
  if h : x.ctorIdx = y.ctorIdx then
    match x, y, h with
    | .badGeometry a b, .badGeometry c d, _ => decidable_of_iff (a = c ∧ b = d) (by simp)
    | .tooManyShards a b, .tooManyShards c d, _ => decidable_of_iff (a = c ∧ b = d) (by simp)
    | .misconfigured a, .misconfigured b, _ => decidable_of_iff (a = b) (by simp)
    | .readQuorum a b c, .readQuorum d e f, _ =>
      decidable_of_iff (a = d ∧ b = e ∧ c = f) (by simp)
    | .writeQuorum a b, .writeQuorum c d, _ => decidable_of_iff (a = c ∧ b = d) (by simp)
    | .slotsFailed a fs, .slotsFailed b gs, _ =>
      match decideEqSlots fs gs with
      | isTrue h => decidable_of_iff (a = b) (by simp [h])
      | isFalse h => isFalse (by simp [h])
    | .digestMismatch a b, .digestMismatch c d, _ => decidable_of_iff (a = c ∧ b = d) (by simp)
    | .badRecord a, .badRecord b, _ => decidable_of_iff (a = b) (by simp)
    | .coding a, .coding b, _ => decidable_of_iff (a = b) (by simp)
    | .shardsMissing a b, .shardsMissing c d, _ => decidable_of_iff (a = c ∧ b = d) (by simp)
    | .blockUnknown a, .blockUnknown b, _ => decidable_of_iff (a = b) (by simp)
    | .keyUnknown a, .keyUnknown b, _ => decidable_of_iff (a = b) (by simp)
    | .denied a, .denied b, _ => decidable_of_iff (a = b) (by simp)
    | .canceled a, .canceled b, _ => decidable_of_iff (a = b) (by simp)
    | .transport a, .transport b, _ => decidable_of_iff (a = b) (by simp)
    | .slotTimeout a b, .slotTimeout c d, _ => decidable_of_iff (a = c ∧ b = d) (by simp)
    | .noSuchSlot a b, .noSuchSlot c d, _ => decidable_of_iff (a = c ∧ b = d) (by simp)
    | .badKey a, .badKey b, _ => decidable_of_iff (a = b) (by simp)
    | .blockTooLarge a b, .blockTooLarge c d, _ => decidable_of_iff (a = c ∧ b = d) (by simp)
    | .storage a, .storage b, _ => decidable_of_iff (a = b) (by simp)
    | .storageFull a b, .storageFull c d, _ => decidable_of_iff (a = c ∧ b = d) (by simp)
    | .encoding a, .encoding b, _ => decidable_of_iff (a = b) (by simp)
  else isFalse fun e => h (e ▸ rfl)

def decideEqSlots : (fs gs : List (Nat × Failure)) → Decidable (fs = gs)
  | [], [] => isTrue rfl
  | [], _ :: _ => isFalse (by simp)
  | _ :: _, [] => isFalse (by simp)
  | (i, x) :: fs, (j, y) :: gs =>
    match decideEq x y, decideEqSlots fs gs with
    | isTrue h, isTrue h' => decidable_of_iff (i = j) (by simp [h, h'])
    | isFalse h, _ => isFalse (by simp [h])
    | _, isFalse h => isFalse (by simp [h])

end

instance : DecidableEq Failure := decideEq

/-! ## Classes -/

def category : Failure → Category
  | badGeometry .. | tooManyShards .. | misconfigured _ => .configuration
  | readQuorum .. | writeQuorum .. | slotsFailed .. => .quorum
  | digestMismatch .. | badRecord _ => .corruption
  | blockUnknown _ | keyUnknown _ => .missing
  | denied _ => .denied
  | canceled _ => .canceled
  | transport _ | slotTimeout .. => .transport
  | coding _ | shardsMissing .. => .coding
  | storage _ | storageFull .. | encoding _ => .storage
  | noSuchSlot .. | badKey _ | blockTooLarge .. => .input

/-- Whether the failure says that a key is not there. -/
def isMissing (e : Failure) : Bool :=
  e.category = .missing

def isCanceled (e : Failure) : Bool :=
  e.category = .canceled

/-- The cancellation that an operation reports, whichever slot noticed it first. -/
def canceledByCaller : Failure :=
  canceled "operation canceled"

theorem isMissing_iff {e : Failure} :
    e.isMissing ↔ ∃ key, e = blockUnknown key ∨ e = keyUnknown key := by
  cases e <;> simp [isMissing, category]

theorem isCanceled_iff {e : Failure} : e.isCanceled ↔ ∃ what, e = canceled what := by
  cases e <;> simp [isCanceled, category]

@[simp] theorem isCanceled_canceledByCaller : canceledByCaller.isCanceled = true := rfl

/-! ## Texts -/

mutual

def message : Failure → String
  | badGeometry data parity =>
    "invalid shard count: data=" ++ toString data ++ ", parity=" ++ toString parity
  | tooManyShards total max =>
    "max shard count exceeded: " ++ toString total ++ " > " ++ toString max
  | misconfigured reason => "Configuration error: " ++ reason
  | readQuorum agreeing required failed =>
    "read quorum not met: " ++ toString agreeing ++ "/" ++ toString required
      ++ " slots agree (" ++ toString failed ++ " failed)"
  | writeQuorum succeeded required =>
    "write quorum not met: " ++ toString succeeded ++ "/" ++ toString required
      ++ " slots stored the shard"
  | slotsFailed total failures =>
    toString failures.length ++ " of " ++ toString total ++ " slots failed: "
      ++ slotMessages failures
  | digestMismatch expected actual => "hash mismatch: expected " ++ expected ++ ", got " ++ actual
  | badRecord reason => "Invalid shard metadata: " ++ reason
  | coding reason => "Erasure coding error: " ++ reason
  | shardsMissing available required =>
    "Insufficient shards: have " ++ toString available ++ ", need " ++ toString required
  | blockUnknown key => "block not found: " ++ key
  | keyUnknown key => "key not found on slot: " ++ key
  | denied who => "access denied: " ++ who
  | canceled what => "request canceled: " ++ what
  | transport reason => "Transport error: " ++ reason
  | slotTimeout slot limit =>
    "slot " ++ toString slot ++ " timed out after " ++ toString limit ++ "ms"
  | noSuchSlot index total =>
    "Invalid slot index: " ++ toString index ++ " (slots: " ++ toString total ++ ")"
  | badKey reason => "Invalid block ID: " ++ reason
  | blockTooLarge size max =>
    "Block too large: " ++ toString size ++ " bytes (max: " ++ toString max ++ ")"
  | storage reason => "Storage error: " ++ reason
  | storageFull used capacity =>
    "Storage full: " ++ toString used ++ " / " ++ toString capacity ++ " bytes"
  | encoding reason => "Serialization error: " ++ reason

/-- The failures of single slots, one after the other. -/
def slotMessages : List (Nat × Failure) → String
  | [] => ""
  | [(slot, e)] => "slot " ++ toString slot ++ ": " ++ message e
  | (slot, e) :: rest => "slot " ++ toString slot ++ ": " ++ message e ++ "; " ++ slotMessages rest

end

end Failure

end ErasureVault
