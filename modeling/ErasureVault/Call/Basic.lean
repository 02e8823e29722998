/-
  Calls — what one slot answers, and when, if its caller may give up or has set a limit.

  * `Token` says when the caller gives up, on a clock that starts with the operation;
  * `Attempt` is what a slot does when called: it takes some time, and then answers, fails or
    breaks down (`Reaction`);
  * `Terms` are the conditions of a call, and `Terms.cutOff` says whether and when a call that
    takes `delay` is stopped: at once by a caller who has given up (`cutOff_of_canceled`), later
    by one who gives up in between, or at the limit; a call that ends at the limit is in time;
  * `Terms.settle` is what becomes of a call: `Settled` holds the outcome, how long it took,
    and whether the call ran to its end, as one that was stopped leaves no trace.
-/
import ErasureVault.Journal
import ErasureVault.Quorum

namespace ErasureVault

/-! ## Tokens -/

/-- When the caller gives up, in milliseconds since the operation began. -/
inductive Token where
  | never
  | after (ms : Nat)
  deriving DecidableEq

namespace Token

/-- The token of a caller who has given up before the operation begins. -/
def canceled : Token := after 0

/-- Whether the caller has given up at the time `now`. -/
def isCanceled (t : Token) (now : Nat) : Bool :=
  match t with
  | never => false
  | after ms => ms ≤ now

@[simp] theorem isCanceled_never (now : Nat) : never.isCanceled now = false := rfl

@[simp] theorem isCanceled_canceled (now : Nat) : canceled.isCanceled now = true := by
  simp [canceled, isCanceled]

end Token

/-! ## Attempts -/

variable {α : Type}

inductive Reaction (α : Type) where
  | value (a : α)
  | failure (e : Failure)
  /-- The call breaks down without an answer. -/
  | panic

def Reaction.ofOutcome : Outcome α → Reaction α
  | .ok a => .value a
  | .error e => .failure e

/-- What a slot does when called: it waits for `delay` milliseconds, then reacts. -/
structure Attempt (α : Type) where
  delay : Nat
  reaction : Reaction α

/-- The attempt whose value is read by `f`, which may fail. -/
def Attempt.mapOutcome {β : Type} (f : α → Outcome β) (a : Attempt α) : Attempt β :=
  ⟨a.delay,
    match a.reaction with
    | .value b => .ofOutcome (f b)
    | .failure e => .failure e
    | .panic => .panic⟩

structure Terms where
  /-- What is called, for messages and counters. -/
  label : String
  token : Token
  /-- The milliseconds that a slot has, if there is a limit. -/
  limit : Option Nat
  /-- The time at which the call begins. -/
  start : Nat

structure Settled (α : Type) where
  outcome : Outcome α
  elapsed : Nat
  /-- Whether the call ran to its end. -/
  reached : Bool
  /-- What is counted of it. -/
  events : Journal

namespace Terms

/-- How long a call that takes `delay` milliseconds can last. -/
def duration (t : Terms) (delay : Nat) : Nat :=
  match t.limit with
  | some limit => min limit delay
  | none => delay

def cancellation (t : Terms) (slot : Nat) : Failure :=
  .canceled (t.label ++ " on slot " ++ toString slot)

/-- How a call that takes `delay` milliseconds is stopped, and after how long, if it is. -/
def cutOff (t : Terms) (slot delay : Nat) : Option (Failure × Nat) :=
  match t.token with
  | .after ms =>
    if ms ≤ t.start then some (t.cancellation slot, 0)
    else if ms < t.start + t.duration delay then some (t.cancellation slot, ms - t.start)
    else late
  | .never => late
where
  /-- How a call is stopped by the limit, if it is. -/
  late : Option (Failure × Nat) :=
    match t.limit with
    | some limit => if limit < delay then some (.slotTimeout slot limit, limit) else none
    | none => none

/-- What is counted of the outcome of a call: a failure, unless it says that a key is not there. -/
def eventsOf (t : Terms) : Outcome α → Journal
  | .ok _ => []
  | .error e => if e.isMissing then [] else [.slotError t.label]

/-- The outcome of a slot that broke down. -/
def panicFailure (t : Terms) (slot : Nat) : Failure :=
  .transport ("slot " ++ toString slot ++ ": " ++ t.label ++ " task panicked")

/-- The outcome of a call that ran to its end, and what is counted of it. -/
def conclude (t : Terms) (slot : Nat) : Reaction α → Outcome α × Journal
  | .value a => (.ok a, [])
  | .failure e => (.error e, t.eventsOf (.error e : Outcome α))
  | .panic => (.error (t.panicFailure slot), [.slotPanic t.label])

def settle (t : Terms) (slot : Nat) (a : Attempt α) : Settled α :=
  match t.cutOff slot a.delay with
  | some (e, elapsed) => ⟨.error e, elapsed, false, t.eventsOf (.error e : Outcome α)⟩
  | none =>
    let (outcome, events) := t.conclude slot a.reaction
    ⟨outcome, a.delay, true, events⟩

/-- A caller who has given up stops a call at once. -/
theorem cutOff_of_canceled {t : Terms} (h : t.token.isCanceled t.start) (slot delay : Nat) :
    t.cutOff slot delay = some (t.cancellation slot, 0) := by
  unfold cutOff
  cases ht : t.token with
  | never => simp [ht] at h
  | after ms =>
    simp only [ht, Token.isCanceled, decide_eq_true_eq] at h
    simp [h]

/-- Without a limit and a caller who gives up, a call runs to its end. -/
theorem cutOff_eq_none {t : Terms} (ht : t.token = .never) (hl : t.limit = none)
    (slot delay : Nat) : t.cutOff slot delay = none := by
  simp [cutOff, cutOff.late, ht, hl]

end Terms

/-! ## All slots at once -/

/-- The time until the last of some calls has settled. -/
def latest (calls : List (Settled α)) : Nat :=
  (calls.map Settled.elapsed).foldl max 0

def countedOf (calls : List (Settled α)) : Journal :=
  calls.flatMap Settled.events

/-- What becomes of the calls of all slots, the attempt of each slot in its place. -/
def Terms.settleAll (t : Terms) (attempts : List (Attempt α)) : List (Settled α) :=
  attempts.zipIdx.map fun (a, slot) => t.settle slot a

end ErasureVault
