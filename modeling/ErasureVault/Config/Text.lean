/-
  Configurations as texts — the settings of a cluster in a TOML document.

  * `Config.ofEntries?` takes the settings from the bindings of a document; what is missing has
    its standard value, and other keys are passed over;
  * `Config.ofText` reads and validates a text, and `Config.ofFile` the content of a file.
-/
import ErasureVault.Config.Basic
import ErasureVault.Toml.Document

namespace ErasureVault.Config

open Toml (Item Entries)

/-- An integer that is not negative; those of a document are below 2 ^ 63. -/
def natural? : Item → Option UInt64
  | .integer n => if 0 ≤ n then some (.ofNat n.toNat) else none
  | _ => none

def text? : Item → Option String
  | .text s => some s
  | _ => none

def texts? : Item → Option (List String)
  | .array items => items.mapM text?
  | _ => none

def policyOf? : String → Option WritePolicy
  | "quorum" => some .quorum
  | "best_effort" => some .bestEffort
  | _ => none

/-- Whether an item is an array or a table with nothing in it. -/
def isVoid : Item → Bool
  | .array items => items.isEmpty
  | .table _ entries => entries.isEmpty
  | _ => false

/-- A policy: its name, or a table that binds its name to nothing. -/
def policy? : Item → Option WritePolicy
  | .text s => policyOf? s
  | .table _ [(name, item)] => if isVoid item then policyOf? name else none
  | _ => none

/-- The setting of a key as `read` takes it, or its standard value if the key is not bound. -/
def setting {α : Type} (es : Entries) (key : String) (read : Item → Option α) (standard : α) :
    Option α :=
  match es.lookup key with
  | some item => read item
  | none => some standard

/-- The settings that the bindings of a document make. -/
def ofEntries? (es : Entries) : Option Config := do
  return {
    dataShards := ← setting es "data_shards" natural? standard.dataShards
    parityShards := ← setting es "parity_shards" natural? standard.parityShards
    nodes := ← setting es "nodes" texts? standard.nodes
    policy := ← setting es "write_policy" policy? standard.policy
    slotTimeout := ← setting es "slot_timeout_ms" (fun i => (natural? i).map some)
      standard.slotTimeout }

/-- The settings that a text makes, if they fit together. -/
def ofText (s : String) : Except ConfigFailure Config := do
  match (Toml.document? s).bind ofEntries? with
  | none => throw .malformed
  | some c =>
    c.validate
    return c

/-- The settings that the content of a file makes; without a file there is none. -/
def ofFile (content : Option Bytes) : Except ConfigFailure Config :=
  match content with
  | none => .error (.unreadable "No such file or directory (os error 2)")
  | some b =>
    match Text.ofUtf8 b with
    | .ok s => ofText s
    | .error _ => .error (.unreadable "stream did not contain valid UTF-8")

end ErasureVault.Config
