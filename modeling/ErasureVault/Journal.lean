/-
  Journals — what an operator can count: operations, failing slots and repaired shards.

  * `Event` is one thing that happened, and `Event.keys` are the counters that it raises;
  * `Journal.totals` counts the events of a journal under each key;
  * `Metric` lists the counters with their names and descriptions.
-/

namespace ErasureVault

/-! ## Metrics -/

/-- The kinds of counters. -/
inductive Metric where
  | operations
  | durations
  | slotErrors
  | slotPanics
  | repairs
  deriving DecidableEq

namespace Metric

def all : List Metric :=
  [operations, durations, slotErrors, slotPanics, repairs]

def name : Metric → String
  | operations => "stripestore_dagnode_ops_total"
  | durations => "stripestore_dagnode_op_duration_seconds"
  | slotErrors => "stripestore_slot_errors_total"
  | slotPanics => "stripestore_slot_panics_total"
  | repairs => "stripestore_repair_shards_total"

def description : Metric → String
  | operations => "counter: DagNode operations by operation and outcome"
  | durations => "histogram: DagNode operation duration in seconds"
  | slotErrors => "counter: Per-slot errors absorbed during fan-out"
  | slotPanics => "counter: Per-slot tasks that panicked and were converted to errors"
  | repairs => "counter: Shards handled by repair, by outcome"

/-- The key of a metric with its labels. -/
def key (m : Metric) (labels : List (String × String)) : String :=
  m.name ++ "\x7b" ++ ",".intercalate (labels.map fun (l, v) => l ++ "=" ++ v) ++ "\x7d"

end Metric

/-! ## Events -/

inductive Event where
  /-- An operation ended, well or not. -/
  | operation (name : String) (ok : Bool)
  /-- A call of a slot failed. -/
  | slotError (label : String)
  /-- A call of a slot broke down. -/
  | slotPanic (label : String)
  /-- A repair met a key, whose shard it wrote or found in place. -/
  | repair (written : Bool)
  deriving DecidableEq

def Event.keys : Event → List String
  | operation name ok =>
    [Metric.operations.key [("op", name), ("outcome", if ok then "ok" else "error")],
      Metric.durations.key [("op", name)]]
  | slotError label => [Metric.slotErrors.key [("op", label)]]
  | slotPanic label => [Metric.slotPanics.key [("op", label)]]
  | repair written => [Metric.repairs.key [("outcome", if written then "repaired" else "skipped")]]

/-- The events so far, the latest first. -/
abbrev Journal := List Event

namespace Journal

/-- How often each counter was raised. -/
def totals (j : Journal) : List (String × Nat) :=
  let keys := j.flatMap Event.keys
  keys.eraseDups.map fun key => (key, keys.count key)

end Journal

end ErasureVault
