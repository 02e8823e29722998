/-
  Configurations — how many shards, on which nodes, and when a write counts as done.

  * `Config` holds the settings of a cluster, and `Config.validate` says whether they fit
    together: counts of shards that are accepted, one node for each shard, and a time limit above
    zero;
  * `Config.withOverrides` takes counts from the environment, where they are numbers
    (`word?`);
  * `ConfigFailure` is what can be wrong with a configuration;
  * `Setup.ofConfigM` connects to the nodes of a configuration, in the order of the slots, and
    sets them up.
-/
import ErasureVault.Cluster.Basic

namespace ErasureVault

inductive ConfigFailure where
  /-- Its file cannot be read. -/
  | unreadable (reason : String)
  /-- Its text is not one. -/
  | malformed
  /-- Its settings do not fit together. -/
  | invalid (reason : String)
  deriving DecidableEq

def ConfigFailure.message : ConfigFailure → String
  | unreadable reason => "Failed to read config file: " ++ reason
  | malformed => "Failed to parse config file"
  | invalid reason => "Invalid configuration: " ++ reason

structure Config where
  dataShards : UInt64
  parityShards : UInt64
  /-- The address of each slot. -/
  nodes : List String
  policy : WritePolicy
  /-- The milliseconds that a slot has for a call, if there is a limit. -/
  slotTimeout : Option UInt64
  deriving DecidableEq

namespace Config

def standard : Config :=
  ⟨4, 2, [], .quorum, none⟩

def counts (c : Config) : Except ConfigFailure Counts :=
  match Counts.ofWords c.dataShards c.parityShards with
  | .ok n => .ok n
  | .error e => .error (.invalid e.message)

def validate (c : Config) : Except ConfigFailure Unit := do
  let n ← c.counts
  if c.nodes.length ≠ n.total.toNat then
    throw (.invalid ("expected " ++ toString n.total ++ " node addresses (k="
      ++ toString c.dataShards ++ " + m=" ++ toString c.parityShards ++ "), got "
      ++ toString c.nodes.length))
  if c.slotTimeout = some 0 then throw (.invalid "slot_timeout_ms cannot be 0")

/-! ## Environment -/

/-- The number that the bytes write in decimal, after at most one plus, if it fits into 64 bits. -/
def word? (b : Bytes) : Option UInt64 :=
  let digits :=
    match b with
    | 0x2B :: rest => rest
    | _ => b
  if digits.isEmpty || digits.any (fun d => d < 0x30 || 0x39 < d) then none
  else
    let n := digits.foldl (fun n d => n * 10 + (d.toNat - 48)) 0
    if n < UInt64.size then some (.ofNat n) else none

/-- The settings with the counts of the environment in the place of their own; what is not a
    number is passed over. -/
def withOverrides (environment : String → Option Bytes) (c : Config) : Config :=
  let number name := (environment name).bind word?
  { c with
    dataShards := (number "STRIPESTORE_DATA_SHARDS").getD c.dataShards
    parityShards := (number "STRIPESTORE_PARITY_SHARDS").getD c.parityShards
    slotTimeout := (number "STRIPESTORE_SLOT_TIMEOUT_MS").or c.slotTimeout }

end Config

/-! ## Setting up -/

/-- The setup of a configuration; `connect` makes the node of each slot from its number and
    address, and may have effects of its own. -/
def Setup.ofConfigM {m : Type → Type} [Monad m] [MonadExcept Failure m] (c : Config)
    (connect : Nat → String → m Node) : m Setup := do
  match c.validate with
  | .error e => throw (.misconfigured e.message)
  | .ok () =>
    let nodes ← c.nodes.zipIdx.mapM fun a => do return (a.1, ← connect a.2 a.1)
    let setup ← MonadExcept.ofExcept (Setup.ofNodes c.dataShards c.parityShards nodes)
    return { setup with policy := c.policy, limit := c.slotTimeout.map UInt64.toNat }

/-- The setup of a configuration whose nodes can be made without effects. -/
def Setup.ofConfig (c : Config) (connect : Nat → String → Except Failure Node) :
    Except Failure Setup :=
  Setup.ofConfigM c connect

end ErasureVault
