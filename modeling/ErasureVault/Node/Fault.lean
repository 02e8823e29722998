/-
  Faults: lasting disturbances of a node, as an operator meets them.

  * `FaultKind` lists the ways in which a node misbehaves, and `Fault` adds a delay and the
    calls to which it applies;
  * `Fault.disturb name f m` is what happens to a call `m` of the node of the given name, and
    `Node.withFault` sets or clears the fault of a node.
-/
import ErasureVault.Node.Basic

namespace ErasureVault

inductive FaultKind where
  /-- The node refuses connections, and says which node it is. -/
  | down
  /-- The node refuses connections. -/
  | refused
  /-- The node denies access. -/
  | deny
  /-- Every call fails with the same failure. -/
  | error (e : Failure)
  /-- Every call breaks down. -/
  | panic
  /-- Calls only take their time. -/
  | slow
  /-- Shards are replaced by other bytes. -/
  | shard (b : Bytes)
  /-- Records are replaced by other bytes. -/
  | record (b : Bytes)
  /-- Records state another size. -/
  | drift (r : SizeRecord)
  /-- A scan breaks off after some keys. -/
  | scanError (keys : Nat)

/-- A lasting fault: its kind, the milliseconds by which it delays calls, and the calls that it
    affects, all of them if none are named. -/
structure Fault where
  kind : FaultKind
  delay : Nat
  methods : Option (List Method)

namespace Fault

def affects (f : Fault) (m : Method) : Bool :=
  match f.methods with
  | some ms => ms.contains m
  | none => true

/-- What a fault makes of a call of the node of the given name. -/
def effect (name : String) (f : Fault) (m : Method) : Effect :=
  match f.kind with
  | .down => .refuse (.transport (name ++ ": connection refused"))
  | .refused => .refuse (.transport "connection refused")
  | .deny => .refuse (.denied name)
  | .error e => .refuse e
  | .panic => .panic
  | .slow => .pass
  | .shard b => if m = .get then .forge b else .pass
  | .record b => if m = .getRecord then .forge b else .pass
  | .drift r => if m = .getRecord then .forge r.encode else .pass
  | .scanError keys =>
    if m = .allKeys then .breakOff keys (.transport (name ++ ": scan interrupted")) else .pass

/-- What happens to a call of the node of the given name. -/
def disturb (name : String) (f : Fault) (m : Method) : Disturbance :=
  if f.affects m then ⟨f.delay, f.effect name m⟩ else .calm

end Fault

def Node.withFault (n : Node) (f : Option Fault) : Node :=
  { n with weather := fun _ m => f.elim .calm fun f => f.disturb n.name m }

end ErasureVault
