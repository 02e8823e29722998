/-
  Snapshots are of the table as it is.

  * `Shared.Step` says move by move what a task does to a shared table (`step_eq_some_iff`);
  * `Shared.Sound`: every task has what its stage says (`Stage.Fits`), so that a snapshot held is of
    the table as it is, and the gate is not shared while somebody owns it. Every move keeps it so
    (`Step.sound`), hence every run (`sound_of_run`);
  * `Begun`: a task has begun to rebind a slot, and not finished yet. While it is at it nobody
    else writes, so in the end the table is the one that it found, rebound (`finish_of_run`);
  * `Gate.Shows`: a gate has the bindings and the snapshots of a shared table on which nobody rebinds.
    Whatever a gate is used for (`Gate.Use`), tasks can do as well (`Gate.exists_shows`);
  * `snapshots_current` says what follows for both.
-/
import Mathlib.Data.List.Induction
import Mathlib.Data.Nat.Notation
import ErasureVault.Slots.Gate
import ErasureVault.Slots.Tasks

namespace ErasureVault

open Function

variable {β : Type}

namespace Slots

/-! ## Tables before and after -/

/-- A table rebound at an index that it has: that place is new, and the reply is what was there. -/
theorem Rebinds.of_lt {index : ℕ} {new : β} {before after : List β} {reply : Except Failure β}
    (h : Rebinds index new before reply after) (hindex : index < before.length) :
    reply = .ok before[index] ∧ after = before.set index new := by
  cases reply with
  | ok old =>
    obtain ⟨hold, hafter⟩ := rebind_eq_ok_iff.1 h
    rw [List.getElem?_eq_getElem hindex] at hold
    exact ⟨congrArg _ (Option.some.inj hold).symm, hafter⟩
  | error e => exact absurd hindex (Nat.not_lt.2 (rebind_eq_error_iff.1 h.1).1)

/-- A table is left alone if it has no such index, and the reply names it. -/
theorem Rebinds.of_le {index : ℕ} {new : β} {before after : List β} {reply : Except Failure β}
    (h : Rebinds index new before reply after) (hindex : before.length ≤ index) :
    reply = .error (.noSuchSlot index before.length) ∧ after = before := by
  cases reply with
  | ok old =>
    obtain ⟨hold, -⟩ := rebind_eq_ok_iff.1 h
    rw [List.getElem?_eq_none hindex] at hold
    cases hold
  | error e =>
    obtain ⟨-, rfl⟩ := rebind_eq_error_iff.1 h.1
    exact ⟨rfl, h.2⟩

theorem Rebinds.length_eq {index : ℕ} {new : β} {before after : List β} {reply : Except Failure β}
    (h : Rebinds index new before reply after) : after.length = before.length := by
  cases reply with
  | ok old => exact length_rebind h
  | error e => rw [h.2]

/-! ## Moves -/

namespace Shared

/-- What a task does to a shared table. -/
inductive Step (task : ℕ) (s : Shared β) : Move β → Shared β → Prop
  | enter {reply} (hstage : s.stage task = .outside reply) (howner : s.gate.owner = none) :
      Step task s .enter
        ({ s with gate := { s.gate with sharers := s.gate.sharers ++ [task] } }.setStage task .entered)
  | look (hstage : s.stage task = .entered) (hwriter : s.writer = none) :
      Step task s .look (s.setStage task (.holding s.bindings))
  | leave {view} (hstage : s.stage task = .holding view) :
      Step task s .leave ({ s with gate := s.gate.unshare task }.setStage task (.outside none))
  | seize {reply} (index : ℕ) (new : β) (hstage : s.stage task = .outside reply)
      (howner : s.gate.owner = none) (hsharers : s.gate.sharers = []) :
      Step task s (.seize index new)
        ({ s with gate := { s.gate with owner := some task } }.setStage task (.alone index new))
  | lock {index new} (hstage : s.stage task = .alone index new) (hwriter : s.writer = none) :
      Step task s .lock ({ s with writer := some task }.setStage task (.locked index new))
  | write {index new reply bindings} (hstage : s.stage task = .locked index new)
      (hrebinds : Rebinds index new s.bindings reply bindings) :
      Step task s .write ({ s with bindings }.setStage task (.written index new reply))
  | finish {index new reply} (hstage : s.stage task = .written index new reply) :
      Step task s .finish
        ({ s with gate := s.gate.disown, writer := none }.setStage task (.outside (some reply)))

variable {task : ℕ} {m : Move β} {s s' : Shared β} {bindings : List β}
  {moves : List (ℕ × Move β)}

theorem Step.of_step (h : s.step task m = some s') : Step task s m s' := by
  unfold step at h
  split at h
  case h_1 reply hstage =>
    obtain ⟨gate, hgate, rfl⟩ := Option.map_eq_some_iff.1 h
    obtain ⟨howner, rfl⟩ := Lock.share_eq_some_iff.1 hgate
    exact .enter hstage howner
  case h_2 hstage =>
    obtain ⟨hwriter, hs'⟩ := Option.ite_none_right_eq_some.1 h
    exact Option.some.inj hs' ▸ .look hstage hwriter
  case h_3 hstage => exact Option.some.inj h ▸ .leave hstage
  case h_4 hstage =>
    obtain ⟨gate, hgate, rfl⟩ := Option.map_eq_some_iff.1 h
    obtain ⟨⟨howner, hsharers⟩, rfl⟩ := Lock.own_eq_some_iff.1 hgate
    exact .seize _ _ hstage howner hsharers
  case h_5 hstage =>
    obtain ⟨hwriter, hs'⟩ := Option.ite_none_right_eq_some.1 h
    exact Option.some.inj hs' ▸ .lock hstage hwriter
  case h_6 index new hstage =>
    split at h
    · next old table hok =>
      have hrebinds : Rebinds index new s.bindings (.ok old) table := hok
      exact Option.some.inj h ▸ .write hstage hrebinds
    · next e herror =>
      have hrebinds : Rebinds index new s.bindings (.error e) s.bindings := ⟨herror, rfl⟩
      exact Option.some.inj h ▸ .write hstage hrebinds
  case h_7 hstage => exact Option.some.inj h ▸ .finish hstage
  case h_8 => cases h

theorem Step.step_eq (h : Step task s m s') : s.step task m = some s' := by
  cases h with
  | enter hstage howner =>
    simp only [step, hstage, Lock.share_eq_some_iff.2 ⟨howner, rfl⟩, Option.map_some]
  | look hstage hwriter => simp only [step, hstage, if_pos hwriter]
  | leave hstage => simp only [step, hstage]
  | seize index new hstage howner hsharers =>
    simp only [step, hstage, Lock.own_eq_some_iff.2 ⟨⟨howner, hsharers⟩, rfl⟩, Option.map_some]
  | lock hstage hwriter => simp only [step, hstage, if_pos hwriter]
  | @write index new reply bindings hstage hrebinds =>
    cases reply with
    | ok old =>
      have hok : rebind index new s.bindings = .ok (old, bindings) := hrebinds
      simp only [step, hstage, hok]
    | error e =>
      obtain ⟨herror, rfl⟩ := hrebinds
      simp only [step, hstage, herror]
  | finish hstage => simp only [step, hstage]

theorem step_eq_some_iff : s.step task m = some s' ↔ Step task s m s' :=
  ⟨Step.of_step, Step.step_eq⟩

/-! ## Runs -/

theorem run_append (moves more : List (ℕ × Move β)) (s : Shared β) :
    run (moves ++ more) s = (run moves s).bind (run more) := by
  induction moves generalizing s with
  | nil => rfl
  | cons a moves ih =>
    rw [List.cons_append, run, run, Option.bind_assoc]
    exact congrArg _ (funext ih)

theorem run_concat_eq_some_iff :
    run (moves ++ [(task, m)]) s = some s' ↔ ∃ t, run moves s = some t ∧ Step task t m s' := by
  simp only [run_append, Option.bind_eq_some_iff, run, ← step_eq_some_iff,
    Option.some.injEq, exists_eq_right]

/-- What holds at first, and after every move if it did before, holds after a run. -/
theorem run_induction {P : List (ℕ × Move β) → Shared β → Prop} {first : Shared β} (h : P [] first)
    (hstep : ∀ moves s task m s', run moves first = some s → P moves s → Step task s m s' →
      P (moves ++ [(task, m)]) s') {moves : List (ℕ × Move β)} {s : Shared β}
    (hrun : run moves first = some s) : P moves s := by
  induction moves using List.reverseRecOn generalizing s with
  | nil => exact Option.some.inj hrun ▸ h
  | append_singleton moves a ih =>
    obtain ⟨t, ht, hs⟩ := run_concat_eq_some_iff.1 hrun
    exact hstep moves t a.1 a.2 s ht (ih ht) hs

theorem Step.length_eq (h : Step task s m s') : s'.bindings.length = s.bindings.length := by
  cases h with
  | write _ hrebinds => exact hrebinds.length_eq
  | _ => rfl

/-- **A table keeps its length.** -/
theorem length_of_run (h : run moves s = some s') : s'.bindings.length = s.bindings.length :=
  run_induction (P := fun _ s' => s'.bindings.length = s.bindings.length) rfl
    (fun _ _ _ _ _ _ ih hstep => hstep.length_eq.trans ih) h

end Shared

/-! ## Tasks that are not disturbed -/

namespace Shared

variable {task : ℕ} {s : Shared β}

theorem Step.run_cons {m : Move β} {moves : List (ℕ × Move β)} {s' s'' : Shared β}
    (h : Step task s m s') (hrun : run moves s' = some s'') :
    run ((task, m) :: moves) s = some s'' := by
  rw [run, h.step_eq, Option.bind_some, hrun]

theorem run_snapshot {reply} (hstage : s.stage task = .outside reply) (howner : s.gate.owner = none)
    (hwriter : s.writer = none) :
    run [(task, .enter), (task, .look)] s =
      some ({ s with gate := { s.gate with sharers := s.gate.sharers ++ [task] } }.setStage task
        (.holding s.bindings)) := by
  refine (Step.enter hstage howner).run_cons ?_
  refine (Step.look (setStage_self ..) (by exact hwriter)).run_cons ?_
  exact congrArg some (setStage_setStage ..)

theorem run_rebind {reply reply' index new table} (hstage : s.stage task = .outside reply)
    (hgate : s.gate = .free) (hwriter : s.writer = none)
    (hrebinds : Rebinds index new s.bindings reply' table) :
    run [(task, .seize index new), (task, .lock), (task, .write), (task, .finish)] s =
      some ({ s with bindings := table }.setStage task (.outside (some reply'))) := by
  have howner : s.gate.owner = none := by rw [hgate]; rfl
  have hsharers : s.gate.sharers = [] := by rw [hgate]; rfl
  refine (Step.seize index new hstage howner hsharers).run_cons ?_
  refine (Step.lock (setStage_self ..) (by exact hwriter)).run_cons ?_
  refine (Step.write (setStage_self ..) (by exact hrebinds)).run_cons ?_
  refine (Step.finish (setStage_self ..)).run_cons ?_
  simp only [run, setStage, update_idem, Lock.disown, hgate, hwriter, Lock.free]

end Shared

/-! ## What tasks have -/

/-- A task has what its stage says: its share of the gate, a snapshot of the table as it is, or the
gate alone. -/
def Stage.Fits (gate : Lock) (bindings : List β) (task : ℕ) : Stage β → Prop
  | outside _ => True
  | entered => task ∈ gate.sharers
  | holding view => task ∈ gate.sharers ∧ view = bindings
  | alone .. | locked .. | written .. => gate.owner = some task

/-- The gate and the table may change as long as the task keeps its part. -/
theorem Stage.Fits.imp {gate gate' : Lock} {bindings bindings' : List β} {task : ℕ} {stage : Stage β}
    (h : stage.Fits gate bindings task) (hsharers : task ∈ gate.sharers → task ∈ gate'.sharers)
    (howner : gate.owner = some task → gate'.owner = some task)
    (hbindings : task ∈ gate.sharers → bindings' = bindings) : stage.Fits gate' bindings' task := by
  cases stage with
  | outside => trivial
  | entered => exact hsharers h
  | holding => exact ⟨hsharers h.1, h.2.trans (hbindings h.1).symm⟩
  | alone | locked | written => exact howner h

namespace Shared

/-- Every task has what its stage says, and nobody shares the gate while somebody owns it. -/
structure Sound (s : Shared β) : Prop where
  fits : ∀ task, (s.stage task).Fits s.gate s.bindings task
  exclusive : ∀ task, s.gate.owner = some task → s.gate.sharers = []

variable {task : ℕ} {m : Move β} {s s' : Shared β} {bindings : List β}
  {moves : List (ℕ × Move β)}

/-- After a move of a task, only what it has itself is new, as long as the others keep their parts. -/
theorem Sound.fits_setStage {stage : Stage β} {gate : Lock} {writer : Option ℕ} (hs : s.Sound)
    (htask : stage.Fits gate bindings task)
    (hsharers : ∀ t ≠ task, t ∈ s.gate.sharers → t ∈ gate.sharers)
    (howner : ∀ t ≠ task, s.gate.owner = some t → gate.owner = some t)
    (hbindings : ∀ t ≠ task, t ∈ s.gate.sharers → bindings = s.bindings) (t : ℕ) :
    ((setStage task stage ⟨bindings, gate, writer, s.stage⟩).stage t).Fits gate bindings t :=
  (forall_update_iff s.stage fun t stage => stage.Fits gate bindings t).2
    ⟨htask, fun t ht => (hs.fits t).imp (hsharers t ht) (howner t ht) (hbindings t ht)⟩ t

/-- **Every move leaves each task with what its stage says.** Only the owner of the gate writes, and
then nobody holds a snapshot. -/
theorem Step.sound (h : Step task s m s') (hs : s.Sound) : s'.Sound := by
  have htask := hs.fits task
  cases h with
  | enter hstage howner =>
    refine ⟨hs.fits_setStage ?_ ?_ ?_ ?_, fun t ht => nomatch howner.symm.trans ht⟩
    · exact List.mem_append_right _ (List.mem_singleton_self task)
    · exact fun t _ ht => List.mem_append_left _ ht
    · exact fun t _ ht => ht
    · exact fun t _ _ => rfl
  | look hstage =>
    rw [hstage] at htask
    refine ⟨hs.fits_setStage ⟨htask, rfl⟩ ?_ (fun _ _ => id) fun _ _ _ => rfl, hs.exclusive⟩
    exact fun _ _ => id
  | leave hstage =>
    refine ⟨hs.fits_setStage trivial ?_ (fun _ _ => id) fun _ _ _ => rfl, fun t ht => ?_⟩
    · exact fun t hne ht => List.mem_filter.2 ⟨ht, decide_eq_true hne⟩
    · exact congrArg (List.filter _) (hs.exclusive t ht)
  | seize index new hstage howner hsharers =>
    refine ⟨hs.fits_setStage rfl (fun _ _ => id) ?_ fun _ _ _ => rfl, fun _ _ => hsharers⟩
    exact fun t _ ht => nomatch howner.symm.trans ht
  | lock hstage =>
    rw [hstage] at htask
    exact ⟨hs.fits_setStage htask (fun _ _ => id) (fun _ _ => id) fun _ _ _ => rfl, hs.exclusive⟩
  | write hstage =>
    rw [hstage] at htask
    refine ⟨hs.fits_setStage htask (fun _ _ => id) (fun _ _ => id) fun t _ ht => ?_, hs.exclusive⟩
    rw [hs.exclusive task htask] at ht
    cases ht
  | finish hstage =>
    rw [hstage] at htask
    refine ⟨hs.fits_setStage trivial (fun _ _ => id) (fun t hne ht => ?_) fun _ _ _ => rfl, nofun⟩
    exact (hne (Option.some.inj (ht.symm.trans htask))).elim

theorem sound_ofBindings (bindings : List β) : (ofBindings bindings).Sound :=
  ⟨fun _ => trivial, fun _ h => nomatch h⟩

theorem sound_of_run (h : run moves (ofBindings bindings) = some s) : s.Sound :=
  run_induction (P := fun _ => Sound) (sound_ofBindings bindings)
    (fun _ _ _ _ _ _ ih hstep => hstep.sound ih) h

end Shared

/-! ## Rebinding a slot -/

/-- Among the moves of tasks on a table, one has begun to rebind a slot, on the table `found`, and has
not finished since. -/
def Begun (bindings : List β) (moves : List (ℕ × Move β)) (task index : ℕ) (new : β)
    (found : List β) : Prop :=
  ∃ before during s, moves = before ++ (task, .seize index new) :: during ∧
    (task, .finish) ∉ during ∧ Shared.run before (.ofBindings bindings) = some s ∧ s.bindings = found

theorem Begun.length_eq {bindings found : List β} {moves : List (ℕ × Move β)} {task index : ℕ}
    {new : β} (h : Begun bindings moves task index new found) : found.length = bindings.length := by
  obtain ⟨before, during, s, -, -, hrun, rfl⟩ := h
  exact Shared.length_of_run hrun

theorem Begun.concat {bindings found : List β} {moves : List (ℕ × Move β)} {task t index : ℕ}
    {new : β} {m : Move β} (h : Begun bindings moves task index new found)
    (hm : (task, Move.finish) ≠ (t, m)) : Begun bindings (moves ++ [(t, m)]) task index new found := by
  obtain ⟨before, during, s, rfl, hduring, hs⟩ := h
  refine ⟨before, during ++ [(t, m)], s, List.append_assoc .., fun hmem => ?_, hs⟩
  rcases List.mem_append.1 hmem with hmem | hmem
  · exact hduring hmem
  · exact hm (List.mem_singleton.1 hmem)

/-- Where a rebinding has come to: the table is still the one that the task found, or that one
rebound. -/
def Stage.Progressed (bindings : List β) (moves : List (ℕ × Move β)) (table : List β) (task : ℕ) :
    Stage β → Prop
  | alone index new | locked index new => Begun bindings moves task index new table
  | written index new reply =>
    ∃ found, Begun bindings moves task index new found ∧ Rebinds index new found reply table
  | _ => True

/-- A move of another task does not matter to a rebinding, if it leaves the table alone. -/
theorem Stage.Progressed.concat {bindings table : List β} {moves : List (ℕ × Move β)} {task t : ℕ}
    {m : Move β} {stage : Stage β} (h : stage.Progressed bindings moves table task) (ht : task ≠ t) :
    stage.Progressed bindings (moves ++ [(t, m)]) table task := by
  have hm : (task, Move.finish) ≠ (t, m) := fun heq => ht (congrArg Prod.fst heq)
  cases stage with
  | outside | entered | holding => trivial
  | alone | locked => exact Begun.concat h hm
  | written =>
    obtain ⟨found, hbegun, hrebinds⟩ := h
    exact ⟨found, hbegun.concat hm, hrebinds⟩

namespace Shared

variable {task : ℕ} {m : Move β} {s s' : Shared β} {bindings : List β}
  {moves : List (ℕ × Move β)}

theorem progressed_setStage {stage : Stage β} {gate : Lock} {writer : Option ℕ} {table : List β}
    (hothers : ∀ t ≠ task, (s.stage t).Progressed bindings moves table t)
    (htask : stage.Progressed bindings (moves ++ [(task, m)]) table task) (t : ℕ) :
    ((setStage task stage ⟨table, gate, writer, s.stage⟩).stage t).Progressed bindings
      (moves ++ [(task, m)]) table t :=
  (forall_update_iff s.stage fun t stage =>
    stage.Progressed bindings (moves ++ [(task, m)]) table t).2
    ⟨htask, fun t ht => (hothers t ht).concat ht⟩ t

/-- Nobody but the owner of the gate is rebinding a slot. -/
theorem Sound.progressed_of_ne {t : ℕ} (hs : s.Sound) (htask : s.gate.owner = some task)
    (ht : t ≠ task) (table : List β) : (s.stage t).Progressed bindings moves table t := by
  have hfits := hs.fits t
  cases hstage : s.stage t with
  | outside | entered | holding => trivial
  | alone | locked | written =>
    rw [hstage] at hfits
    exact (ht (Option.some.inj (hfits.symm.trans htask))).elim

/-- **Every move leaves each rebinding where it has come to.** -/
theorem Step.progressed (h : Step task s m s') (hs : s.Sound)
    (hrun : run moves (ofBindings bindings) = some s)
    (hprogressed : ∀ t, (s.stage t).Progressed bindings moves s.bindings t) (t : ℕ) :
    (s'.stage t).Progressed bindings (moves ++ [(task, m)]) s'.bindings t := by
  have htask := hprogressed task
  have hfits := hs.fits task
  have hothers (t) (_ : t ≠ task) := hprogressed t
  cases h with
  | enter | look | leave | finish =>
    refine progressed_setStage hothers ?_ t
    trivial
  | seize index new =>
    refine progressed_setStage hothers ?_ t
    exact ⟨moves, [], s, rfl, List.not_mem_nil, hrun, rfl⟩
  | lock hstage =>
    rw [hstage] at htask
    refine progressed_setStage hothers ?_ t
    exact Begun.concat htask (by simp)
  | write hstage hrebinds =>
    rw [hstage] at htask hfits
    refine progressed_setStage (fun t ht => hs.progressed_of_ne hfits ht _) ?_ t
    exact ⟨s.bindings, Begun.concat htask (by simp), hrebinds⟩

theorem progressed_ofBindings (bindings : List β) (t : ℕ) :
    ((ofBindings bindings).stage t).Progressed bindings [] bindings t :=
  trivial

theorem progressed_of_run (h : run moves (ofBindings bindings) = some s) (t : ℕ) :
    (s.stage t).Progressed bindings moves s.bindings t :=
  run_induction (P := fun moves s => ∀ t, (s.stage t).Progressed bindings moves s.bindings t)
    (progressed_ofBindings bindings)
    (fun _ _ _ _ _ hrun ih hstep => hstep.progressed (sound_of_run hrun) hrun ih) h t

/-- **A rebinding that finishes has rebound the table that it found**: nobody else has written
meanwhile. -/
theorem finish_of_run (hrun : run moves (ofBindings bindings) = some s)
    (h : s.step task .finish = some s') :
    ∃ index new found reply, Begun bindings moves task index new found ∧
      s'.stage task = .outside (some reply) ∧ Rebinds index new found reply s'.bindings := by
  have hprogressed := progressed_of_run hrun task
  cases Step.of_step h with
  | finish hstage =>
    rw [hstage] at hprogressed
    obtain ⟨found, hbegun, hrebinds⟩ := hprogressed
    exact ⟨_, _, found, _, hbegun, setStage_self .., hrebinds⟩

end Shared

end Slots

/-! ## Gates -/

namespace Gate

open Slots

variable {g g' g'' : Gate β} {s : Shared β}

/-- What a gate is used for. -/
inductive Use (β : Type) where
  | hold
  | rebind (index : ℕ) (new : β)
  | request (r : Request β)
  | release (number : ℕ)
  | poll (task : ℕ)

/-- The gate after it has been used. -/
def use (g : Gate β) : Use β → Gate β
  | .hold => (g.hold?.map Prod.snd).getD g
  | .rebind index new => ((g.rebind? index new).map Prod.snd).getD g
  | .request r => (g.request r).2
  | .release number => (g.release number).2
  | .poll task => (g.poll task).2

/-- A gate has the bindings and the snapshots of a shared table on which nobody rebinds a slot; the
tasks that hold the snapshots have their numbers. -/
structure Shows (g : Gate β) (s : Shared β) : Prop where
  bindings : s.bindings = g.bindings
  gate : s.gate = ⟨g.held.map Prod.fst, none⟩
  writer : s.writer = none
  held : ∀ n view, (n, view) ∈ g.held ↔ s.stage n = .holding view
  outside : ∀ n, g.snapshots ≤ n → ∃ reply, s.stage n = .outside reply

theorem shows_ofBindings (bindings : List β) : (ofBindings bindings).Shows (.ofBindings bindings) where
  bindings := rfl
  gate := rfl
  writer := rfl
  held _ _ := by simp [ofBindings, Shared.ofBindings]
  outside _ _ := ⟨none, rfl⟩

/-- Tasks can bring a table that one gate shows to where another shows it. -/
def Reaches (g g' : Gate β) : Prop :=
  ∀ s, g.Shows s → ∃ moves s', Shared.run moves s = some s' ∧ g'.Shows s'

theorem Reaches.trans (h : g.Reaches g') (h' : g'.Reaches g'') : g.Reaches g'' := by
  intro s hs
  obtain ⟨moves, s', hrun, hs'⟩ := h s hs
  obtain ⟨moves', s'', hrun', hs''⟩ := h' s' hs'
  exact ⟨moves ++ moves', s'', by rw [Shared.run_append, hrun, Option.bind_some, hrun'], hs''⟩

/-- Who waits, and which replies have not been collected, is not seen on the table. -/
theorem reaches_of_eq (hbindings : g'.bindings = g.bindings) (hheld : g'.held = g.held)
    (hsnapshots : g'.snapshots = g.snapshots) : g.Reaches g' := by
  intro s hs
  refine ⟨[], s, rfl, ⟨?_, ?_, hs.writer, ?_, ?_⟩⟩
  · rw [hbindings, hs.bindings]
  · rw [hheld, hs.gate]
  · rw [hheld]
    exact hs.held
  · rw [hsnapshots]
    exact hs.outside

theorem grantSnapshot_reaches (g : Gate β) : g.Reaches g.grantSnapshot.2 := by
  intro s hs
  obtain ⟨reply, hreply⟩ := hs.outside g.snapshots (Nat.le_refl _)
  refine ⟨_, _, Shared.run_snapshot hreply (by rw [hs.gate]) hs.writer, hs.bindings, ?_, hs.writer,
    fun n view => ?_, fun n hn => ?_⟩
  · simp [grantSnapshot, hs.gate]
  · rcases eq_or_ne n g.snapshots with rfl | hne
    · have hfresh : (g.snapshots, view) ∉ g.held := fun h => by
        rw [hs.held, hreply] at h
        cases h
      simp [grantSnapshot, hfresh, hs.bindings, eq_comm]
    · simp [grantSnapshot, Shared.setStage_of_ne hne, hne, hs.held]
  · have hlt : g.snapshots < n := hn
    rw [Shared.setStage_of_ne (Nat.ne_of_gt hlt)]
    exact hs.outside n (Nat.le_of_lt hlt)

/-- A gate rebinds its own table. -/
theorem grantRebind_rebinds (g : Gate β) (index : ℕ) (new : β) :
    Rebinds index new g.bindings (g.grantRebind index new).1
      (g.grantRebind index new).2.bindings := by
  rw [grantRebind]
  cases h : Slots.rebind index new g.bindings with
  | ok r => exact h
  | error e => exact ⟨h, rfl⟩

theorem mem_held_of_held? {number : ℕ} {view : List β} (h : g.held? number = some view) :
    (number, view) ∈ g.held := by
  obtain ⟨before, after, heq, -⟩ := List.lookup_eq_some_iff.1 h
  rw [heq]
  exact List.mem_append_right _ List.mem_cons_self

/-- Where no snapshot is held, a task can rebind a slot, and gets the reply that the gate gives. -/
theorem grantRebind_shows (index : ℕ) (new : β) (hheld : g.held = []) (hs : g.Shows s) :
    ∃ moves s', Shared.run moves s = some s' ∧ (g.grantRebind index new).2.Shows s' ∧
      s'.stage g.snapshots = .outside (some (g.grantRebind index new).1) := by
  obtain ⟨reply, hreply⟩ := hs.outside g.snapshots (Nat.le_refl _)
  have hrebinds := hs.bindings ▸ g.grantRebind_rebinds index new
  have hheld' : (g.grantRebind index new).2.held = g.held := by
    rw [grantRebind]
    cases Slots.rebind index new g.bindings <;> rfl
  have hsnapshots : (g.grantRebind index new).2.snapshots = g.snapshots := by
    rw [grantRebind]
    cases Slots.rebind index new g.bindings <;> rfl
  refine ⟨_, _, Shared.run_rebind hreply (by rw [hs.gate, hheld]; rfl) hs.writer hrebinds,
    ⟨rfl, ?_, hs.writer, fun n view => ?_, fun n hn => ?_⟩, Shared.setStage_self ..⟩
  · rw [hheld']
    exact hs.gate
  · rw [hheld']
    rcases eq_or_ne n g.snapshots with rfl | hne
    · simp [hheld]
    · rw [Shared.setStage_of_ne hne]
      exact hs.held n view
  · rcases eq_or_ne n g.snapshots with rfl | hne
    · exact ⟨_, Shared.setStage_self ..⟩
    · rw [Shared.setStage_of_ne hne]
      exact hs.outside n (hsnapshots ▸ hn)

theorem grantRebind_reaches (index : ℕ) (new : β) (hheld : g.held = []) :
    g.Reaches (g.grantRebind index new).2 := by
  intro s hs
  obtain ⟨moves, s', hrun, hs', -⟩ := grantRebind_shows index new hheld hs
  exact ⟨moves, s', hrun, hs'⟩

theorem serveAll_reaches (queue : List (ℕ × Request β)) (g : Gate β) :
    g.Reaches (serveAll queue g) := by
  induction queue generalizing g with
  | nil => exact reaches_of_eq rfl rfl rfl
  | cons a queue ih =>
    obtain ⟨task, _ | ⟨index, new⟩⟩ := a
    · rw [serveAll]
      have hanswer : g.grantSnapshot.2.Reaches
          (g.grantSnapshot.2.answer task (.snapshot g.grantSnapshot.1)) := reaches_of_eq rfl rfl rfl
      exact (grantSnapshot_reaches g).trans (hanswer.trans (ih _))
    · rw [serveAll]
      split
      · next hheld =>
        have hanswer : (g.grantRebind index new).2.Reaches
            ((g.grantRebind index new).2.answer task (.rebound (g.grantRebind index new).1)) :=
          reaches_of_eq rfl rfl rfl
        exact (grantRebind_reaches index new (List.isEmpty_iff.1 hheld)).trans (hanswer.trans (ih _))
      · exact reaches_of_eq rfl rfl rfl

/-- A snapshot that is given back is one of a task that leaves. -/
theorem filter_held_reaches (number : ℕ) (g : Gate β) :
    g.Reaches { g with held := g.held.filter fun (n, _) => n ≠ number } := by
  intro s hs
  by_cases hnumber : ∃ view, (number, view) ∈ g.held
  · obtain ⟨view, hview⟩ := hnumber
    have hstage := (hs.held ..).1 hview
    refine ⟨[(number, .leave)], _, (Shared.Step.leave hstage).run_cons rfl, hs.bindings, ?_, hs.writer,
      fun n view' => ?_, fun n hn => ?_⟩
    · simp [Lock.unshare, hs.gate, List.filter_map, Function.comp_def]
    · rcases eq_or_ne n number with rfl | hne
      · simp
      · simp [Shared.setStage_of_ne hne, hne, hs.held]
    · obtain ⟨reply, hreply⟩ := hs.outside n hn
      have hne : n ≠ number := by
        rintro rfl
        rw [hstage] at hreply
        cases hreply
      rw [Shared.setStage_of_ne hne]
      exact ⟨reply, hreply⟩
  · have hfilter : (g.held.filter fun (n, _) => n ≠ number) = g.held :=
      List.filter_eq_self.2 fun a ha => decide_eq_true fun hn => hnumber ⟨a.2, hn ▸ ha⟩
    have hsame : g.Reaches { g with held := g.held.filter fun (n, _) => n ≠ number } :=
      reaches_of_eq rfl hfilter rfl
    exact hsame s hs

/-- **Whatever a gate is used for, tasks can do as well.** -/
theorem use_reaches (g : Gate β) (u : Use β) : g.Reaches (g.use u) := by
  cases u with
  | hold =>
    rw [use, hold?]
    split
    · exact grantSnapshot_reaches g
    · exact reaches_of_eq rfl rfl rfl
  | rebind index new =>
    rw [use, rebind?]
    split
    · next h =>
      rw [Bool.and_eq_true, List.isEmpty_iff] at h
      exact grantRebind_reaches index new h.1
    · exact reaches_of_eq rfl rfl rfl
  | request r =>
    have hwait : g.Reaches { g with queue := g.queue ++ [(g.tasks, r)], tasks := g.tasks + 1 } :=
      reaches_of_eq rfl rfl rfl
    exact hwait.trans (serveAll_reaches _ _)
  | release number => exact (filter_held_reaches number g).trans (serveAll_reaches _ _)
  | poll task => exact reaches_of_eq rfl rfl rfl

/-- **Every gate that is used shows a table that tasks can bring about.** -/
theorem exists_shows (bindings : List β) (uses : List (Use β)) :
    ∃ moves s, Shared.run moves (.ofBindings bindings) = some s ∧
      (uses.foldl use (ofBindings bindings)).Shows s := by
  have h (uses : List (Use β)) (g : Gate β) : g.Reaches (uses.foldl use g) := by
    induction uses generalizing g with
    | nil => exact reaches_of_eq rfl rfl rfl
    | cons u uses ih => exact (use_reaches g u).trans (ih _)
  exact h uses _ _ (shows_ofBindings bindings)

end Gate

namespace Slots

/-- **Snapshots are of the table as it is.** However tasks take turns, every snapshot held lists the
bindings of the table, which keeps its length; and a rebinding that finishes has rebound the table
that it found when it began, at its index only, and replies with what was there, or has left it alone
and says that there is no such slot. Gates show no other tables, and hold and rebind as tasks do. -/
theorem snapshots_current (bindings : List β) :
    (∀ moves s, Shared.run moves (.ofBindings bindings) = some s →
      (∀ task view, s.stage task = .holding view → view = s.bindings) ∧
      s.bindings.length = bindings.length ∧
      ∀ task s', s.step task .finish = some s' → ∃ index new found reply,
        Begun bindings moves task index new found ∧ s'.stage task = .outside (some reply) ∧
        (∀ h : index < found.length, reply = .ok found[index] ∧ s'.bindings = found.set index new) ∧
        (found.length ≤ index →
          reply = .error (.noSuchSlot index bindings.length) ∧ s'.bindings = found)) ∧
    ∀ uses : List (Gate.Use β),
      let g := uses.foldl Gate.use (Gate.ofBindings bindings)
      (∃ moves s, Shared.run moves (.ofBindings bindings) = some s ∧ g.Shows s) ∧
      (∀ number view, g.held? number = some view → view = g.bindings) ∧
      g.bindings.length = bindings.length ∧
      ∀ index new, Rebinds index new g.bindings (g.grantRebind index new).1
        (g.grantRebind index new).2.bindings := by
  refine ⟨fun moves s hrun => ⟨fun task view hview => ?_, Shared.length_of_run hrun,
    fun task s' h => ?_⟩, fun uses => ?_⟩
  · have hfits := (Shared.sound_of_run hrun).fits task
    rw [hview] at hfits
    exact hfits.2
  · obtain ⟨index, new, found, reply, hbegun, hstage, hrebinds⟩ := Shared.finish_of_run hrun h
    refine ⟨index, new, found, reply, hbegun, hstage, fun hindex => hrebinds.of_lt hindex,
      fun hindex => ?_⟩
    rw [← hbegun.length_eq]
    exact hrebinds.of_le hindex
  · intro g
    obtain ⟨moves, s, hrun, hshows⟩ := Gate.exists_shows bindings uses
    refine ⟨⟨moves, s, hrun, hshows⟩, fun number view hview => ?_, ?_, g.grantRebind_rebinds⟩
    · have hfits := (Shared.sound_of_run hrun).fits number
      rw [(hshows.held ..).1 (Gate.mem_held_of_held? hview)] at hfits
      rw [hfits.2, hshows.bindings]
    · rw [← hshows.bindings, Shared.length_of_run hrun]
      rfl

/-- Two slots, of which one is rebound between a snapshot and another; and a gate that keeps a
rebinding waiting while a snapshot is held. -/
theorem snapshots_of_twoSlots :
    let start : Shared String := .ofBindings ["a", "b"]
    let moves := [(0, .enter), (2, .enter), (0, .look), (2, .look), (2, .leave), (0, .leave),
      (1, .seize 0 "z"), (1, .lock), (1, .write)]
    let uses := [.hold, .request (.rebind 0 "z"), .hold]
    (∃ s, Shared.run (moves.take 4) start = some s ∧
      s.stage 0 = .holding ["a", "b"] ∧ ["a", "b"] = s.bindings) ∧
    (∃ s s', Shared.run moves start = some s ∧ s.step 1 .finish = some s' ∧
      ∃ index new found reply, Begun ["a", "b"] moves 1 index new found ∧
        s'.stage 1 = .outside (some reply) ∧
        ∀ h : index < found.length, reply = .ok found[index] ∧ s'.bindings = found.set index new) ∧
    let g := uses.foldl Gate.use (Gate.ofBindings ["a", "b"])
    g.held? 0 = some ["a", "b"] ∧ ["a", "b"] = g.bindings := by
  intro start moves uses
  obtain ⟨hruns, huses⟩ := snapshots_current ["a", "b"]
  obtain ⟨index, new, found, reply, hbegun, hstage, hlt, -⟩ := (hruns moves _ rfl).2.2 1 _ rfl
  exact ⟨⟨_, rfl, rfl, (hruns (moves.take 4) _ rfl).1 0 _ rfl⟩,
    ⟨_, _, rfl, rfl, index, new, found, reply, hbegun, hstage, hlt⟩,
    rfl, (huses uses).2.1 0 _ rfl⟩

end Slots

end ErasureVault
