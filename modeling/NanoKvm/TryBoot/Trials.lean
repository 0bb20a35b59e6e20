import Mathlib.Logic.Relation
import NanoKvm.Exec.Reachability
import NanoKvm.TryBoot.Script

/-!
# Trials and their rollback

A label is on trial from its arming until it is blessed. Once `early-rollback` has run in
the boot of a candidate, its fallback is owed the `DEFAULT` until the candidate is blessed
or another generation is armed. `try_boot_rollback` shows both for every run of commands,
crashes and reboots whose armings are sound; `activation_swaps_roles` is the run in which
the activation script arms the fallback itself.
-/

namespace NanoKvm.TryBoot

open Exec

/-- The label is a candidate that has not been blessed since it was last put on trial. -/
def OnTrial : List Event → String → Prop
  | [], _ => False
  | .armed candidate _ :: rest, label => label = candidate ∨ OnTrial rest label
  | .rolledBack candidate _ :: rest, label => label = candidate ∨ OnTrial rest label
  | .blessed candidate :: rest, label => label ≠ candidate ∧ OnTrial rest label

/-- `early-rollback` has run in a boot of the candidate, which was not blessed since, and no
generation other than the two was armed. -/
def Owed : List Event → String → String → Prop
  | [], _, _ => False
  | .armed other _ :: rest, candidate, fallback =>
      (other = candidate ∨ other = fallback) ∧ Owed rest candidate fallback
  | .rolledBack tried former :: rest, candidate, fallback =>
      (tried = candidate ∧ former = fallback) ∨ Owed rest candidate fallback
  | .blessed other :: rest, candidate, fallback => other ≠ candidate ∧ Owed rest candidate fallback

section

variable (awkEq : String → String → Bool)

/-- A boot of the label is told apart: the `init=` of every entry with the label is not empty, it
is the one that awk finds for the label, and no entry of another label in front has it. -/
def Clear (entries : List Entry) (label : String) : Prop :=
  ∀ entry ∈ entries, entry.label = label → ∃ init, entry.init = some init ∧ init ≠ "" ∧
    labelInit awkEq entries label = some init ∧ labelOfInit entries init = some label

/-- An arming is sound when its fallback is not on trial and has no empty `init=`, and its candidate
is told apart and is neither of the two labels of a trial that was rolled back. -/
structure Sound (s : System) (candidate fallback : String) : Prop where
  trusted : ¬ OnTrial s.log fallback
  other : ∀ tried former, Owed s.log tried former → candidate ≠ tried ∧ candidate ≠ former
  clear : Clear awkEq s.entries candidate
  bootable : labelInit awkEq s.entries fallback ≠ some ""

/-- What the script checked when it recorded a trial, and what makes it find its boot. -/
structure Recorded (entries : List Entry) (state : TryState) : Prop where
  candidate : validLabel state.candidate = true
  candidateInit : labelInit awkEq entries state.candidate = some state.candidateInit
  fallback : validLabel state.fallback = true
  exists_fallback : labelExists awkEq entries state.fallback = true
  fallbackInit : labelInit awkEq entries state.fallback = some state.fallbackInit
  clear : Clear awkEq entries state.candidate
  bootable : state.fallbackInit ≠ ""

/-- The invariant of runs whose armings are sound. -/
structure Trials (s : System) : Prop where
  fallback : ∀ state, s.state = some state → ¬ OnTrial s.log state.fallback
  distinct : ∀ state, s.state = some state → state.candidate ≠ state.fallback
  recorded : ∀ state, s.state = some state → Recorded awkEq s.entries state
  owed : ∀ candidate fallback, Owed s.log candidate fallback → s.default = fallback
  own : ∀ candidate fallback, Owed s.log candidate fallback → ∀ state, s.state = some state →
    state.candidate = candidate ∧ state.fallback = fallback

end

variable {awkEq : String → String → Bool} {s t : System}

/-! ## What a command can do -/

/-- A command of two replacements gets through none, one or both of them. -/
theorem perform_all_two (awkEq : String → String → Bool) (first second : FileOp) (s : System)
    (completed : Nat) :
    (performAll awkEq ([first, second].take completed) s = s ∧
      (completed = 0 ∨ first.apply awkEq s = none)) ∨
    ∃ middle, completed ≠ 0 ∧ first.apply awkEq s = some middle ∧
      (performAll awkEq ([first, second].take completed) s = middle ∨
        second.apply awkEq middle = some (performAll awkEq ([first, second].take completed) s)) := by
  rcases completed with _ | completed
  · exact .inl ⟨rfl, .inl rfl⟩
  cases hmiddle : first.apply awkEq s with
  | none =>
      left
      simp [List.take, performAll, hmiddle]
  | some middle =>
      right
      refine ⟨middle, Nat.succ_ne_zero _, rfl, ?_⟩
      rcases completed with _ | completed
      · simp [List.take, performAll, hmiddle]
      · cases hlast : second.apply awkEq middle with
        | none => simp [List.take, performAll, hmiddle, hlast]
        | some last => simp [List.take, performAll, hmiddle, hlast]

/-- Setting `DEFAULT` changes that alone. -/
theorem apply_set_default {label : String}
    (h : FileOp.apply awkEq s (.setDefault label) = some t) : t = { s with default := label } := by
  simp only [FileOp.apply] at h
  split at h
  · exact (Option.some.inj h).symm
  · cases h

/-- Writing the state changes that alone, and records both labels with what was checked. -/
theorem apply_write_state {candidate fallback : String} {phase : Phase}
    (h : FileOp.apply awkEq s (.writeState candidate fallback phase) = some t) :
    ∃ state, state.candidate = candidate ∧ state.fallback = fallback ∧
      t = { s with state := some state } ∧
      (Clear awkEq s.entries candidate → labelInit awkEq s.entries fallback ≠ some "" →
        Recorded awkEq s.entries state) := by
  simp only [FileOp.apply] at h
  split at h
  · rename_i hchecks
    simp only [Bool.and_eq_true] at hchecks
    cases hcandidate : labelInit awkEq s.entries candidate with
    | none => simp [hcandidate] at h
    | some candidateInit =>
        cases hfallback : labelInit awkEq s.entries fallback with
        | none => simp [hcandidate, hfallback] at h
        | some fallbackInit =>
            rw [hcandidate, hfallback] at h
            refine ⟨_, rfl, rfl, (Option.some.inj h).symm, fun hclear hboot => ?_⟩
            exact ⟨hchecks.1.1.1, hcandidate, hchecks.1.1.2, hchecks.2, hfallback, hclear,
              fun hempty => hboot (congrArg some hempty)⟩
  · cases h

/-- A state that was read is the one in the file. -/
theorem read_state_some {state : TryState} (h : readState s = some state) :
    s.state = some state :=
  (Option.filter_eq_some_iff.1 h).1

/-! ## A trial boot is found -/

/-- In a trial boot of a recorded candidate the script finds the trial. -/
theorem Recorded.found {state : TryState} (h : Recorded awkEq s.entries state)
    (htrial : trialBoot s = some state) : readState s = some state ∧ IsCandidate s state := by
  obtain ⟨hstate, hbooted⟩ := Option.filter_eq_some_iff.1 htrial
  cases hentry : s.booted with
  | none => simp [hentry] at hbooted
  | some entry =>
      rw [hentry, Option.any_some, decide_eq_true_eq] at hbooted
      obtain ⟨init, hinit, hsome, hfound, hlabel⟩ := h.clear entry hbooted.1 hbooted.2
      have hsame : state.candidateInit = init := Option.some.inj (h.candidateInit.symm.trans hfound)
      have hrunning : bootedInit s = some init := by
        rw [bootedInit, hentry]
        exact hinit
      constructor
      · refine Option.filter_eq_some_iff.2 ⟨hstate, ?_⟩
        simp [h.candidate, h.fallback, h.bootable, hsame, hsome]
      · refine ⟨?_, by rw [hrunning, hsame]⟩
        rw [bootedLabel, hrunning]
        exact hlabel

/-- The fallback of a recorded trial can be made the `DEFAULT`. -/
theorem Recorded.set_default {state : TryState} (h : Recorded awkEq s.entries state) :
    FileOp.apply awkEq s (.setDefault state.fallback) =
      some { s with default := state.fallback } := by
  simp [FileOp.apply, h.fallback, h.exists_fallback]

/-! ## What a command means -/

/-- A command that changed nothing and means nothing leaves the system as it is. -/
theorem run_same {command : Command} {completed : Nat}
    (hsame : performAll awkEq ((command.actions s).take completed) s = s)
    (hevent : command.event awkEq s completed = none) : command.run awkEq s completed = s := by
  rw [Command.run, hsame, hevent]
  rfl

/-- What the arming of a command means. -/
theorem event_arm {command : Command} {candidate fallback : String} {completed : Nat}
    (harming : command.arming s = some (candidate, fallback)) :
    command.event awkEq s completed =
      if completed = 0 ∧ armActions candidate fallback ≠ [] then none
      else armed awkEq s candidate fallback := by
  cases command with
  | earlyRollback | bless | rollbackNow => cases harming
  | arm | activate =>
      simp only [Command.event, Command.actions, harming]
      rfl

/-- The actions of an arming. -/
theorem actions_arm {command : Command} {candidate fallback : String}
    (harming : command.arming s = some (candidate, fallback)) :
    command.actions s = armActions candidate fallback := by
  cases command with
  | earlyRollback | bless | rollbackNow => cases harming
  | arm | activate => simp only [Command.actions, harming]

/-! ## Every step keeps the invariant -/

namespace Trials

/-- A sound arming records a fallback that is not on trial and ends what was owed. -/
theorem arm (h : Trials awkEq s) {candidate fallback : String}
    (hsound : Sound awkEq s candidate fallback) {command : Command}
    (harming : command.arming s = some (candidate, fallback)) (completed : Nat) :
    Trials awkEq (command.run awkEq s completed) := by
  have hevent : command.event awkEq s completed = _ := event_arm harming
  have hactions := actions_arm harming
  by_cases hchecks : (validLabel candidate && validLabel fallback && candidate ≠ fallback) = true
  · have hops : armActions candidate fallback =
        [.writeState candidate fallback .armed, .setDefault candidate] := if_pos hchecks
    have hdistinct : candidate ≠ fallback := by
      simp only [Bool.and_eq_true, decide_eq_true_eq] at hchecks
      exact hchecks.2
    have hnone : ∀ tried former, ¬ Owed (.armed candidate fallback :: s.log) tried former := by
      intro tried former howed
      obtain ⟨hsame, hbefore⟩ := howed
      obtain ⟨htried, hformer⟩ := hsound.other tried former hbefore
      exact hsame.elim htried hformer
    rw [hops] at hevent hactions
    obtain ⟨hsame, hstop⟩ | ⟨middle, hsome, hmiddle, hlast⟩ := perform_all_two awkEq
      (.writeState candidate fallback .armed) (.setDefault candidate) s completed
    · have hnothing : command.event awkEq s completed = none := by
        rw [hevent]
        obtain hzero | hdies := hstop
        · rw [if_pos ⟨hzero, List.cons_ne_nil _ _⟩]
        · rw [armed, hops, List.head?_cons, Option.bind_some, hdies, Option.map_none, ite_self]
      rwa [run_same (by rw [hactions, hsame]) hnothing]
    · obtain ⟨state, hcandidate, hfallback, hwritten, hrecorded⟩ := apply_write_state hmiddle
      have hlog : command.event awkEq s completed = some (.armed candidate fallback) := by
        rw [hevent, if_neg fun hcut => hsome hcut.1, armed, hops, List.head?_cons,
          Option.bind_some, hmiddle, Option.map_some]
      have hkept : ∀ default, Trials awkEq
          { s with
            default := default, state := some state
            log := .armed candidate fallback :: s.log } := by
        intro default
        refine ⟨?_, ?_, ?_, fun tried former howed => absurd howed (hnone tried former),
          fun tried former howed => absurd howed (hnone tried former)⟩
        · rintro _ ⟨⟩ htrial
          rw [hfallback] at htrial
          exact htrial.elim hdistinct.symm hsound.trusted
        · rintro _ ⟨⟩
          rwa [hcandidate, hfallback]
        · rintro _ ⟨⟩
          exact hrecorded hsound.clear hsound.bootable
      rw [Command.run, hactions, hlog]
      obtain hone | htwo := hlast
      · rw [hone, hwritten]
        exact hkept s.default
      · rw [apply_set_default htwo, hwritten]
        exact hkept candidate
  · have hops : armActions candidate fallback = [] := if_neg hchecks
    have hnothing : command.event awkEq s completed = none := by
      rw [hevent, if_neg fun hcut => hcut.2 hops, armed, hops]
      rfl
    rwa [run_same (by rw [hactions, hops, List.take_nil]; rfl) hnothing]

/-- Without a log entry, a state file that names the same trial and a `DEFAULT` that is not owed to
another label keep the invariant. -/
theorem relabel (h : Trials awkEq s) {default : String} {written : Option TryState}
    (hdefault : ∀ candidate fallback, Owed s.log candidate fallback → default = fallback)
    (hwritten : ∀ state, written = some state → ∃ before, s.state = some before ∧
      state.candidate = before.candidate ∧ state.fallback = before.fallback ∧
      Recorded awkEq s.entries state) :
    Trials awkEq { s with default := default, state := written } := by
  refine ⟨?_, ?_, ?_, hdefault, ?_⟩
  · intro state hstate
    obtain ⟨before, hbefore, -, hfallback, -⟩ := hwritten state hstate
    exact hfallback ▸ h.fallback before hbefore
  · intro state hstate
    obtain ⟨before, hbefore, hcandidate, hfallback, -⟩ := hwritten state hstate
    rw [hcandidate, hfallback]
    exact h.distinct before hbefore
  · intro state hstate
    obtain ⟨-, -, -, -, hrecorded⟩ := hwritten state hstate
    exact hrecorded
  · intro candidate fallback howed state hstate
    obtain ⟨before, hbefore, hcandidate, hfallback, -⟩ := hwritten state hstate
    rw [hcandidate, hfallback]
    exact h.own candidate fallback howed before hbefore

/-- What `early-rollback` leaves when it finds the trial of the state file. -/
theorem early_rollback_found (h : Trials awkEq s) {state : TryState}
    (hread : readState s = some state) (hcandidate : IsCandidate s state) {completed : Nat}
    (hsome : completed ≠ 0) : ∃ written,
      performAll awkEq ((earlyRollbackActions s).take completed) s =
        { s with default := state.fallback, state := some written } ∧
      written.candidate = state.candidate ∧ written.fallback = state.fallback ∧
      Recorded awkEq s.entries written := by
  have hstate := read_state_some hread
  have hrecorded := h.recorded state hstate
  have hops : earlyRollbackActions s =
      [.setDefault state.fallback, .writeState state.candidate state.fallback .rollbackArmed] := by
    rw [earlyRollbackActions, hread]
    exact if_pos hcandidate
  obtain ⟨-, hzero | hdies⟩ | ⟨middle, -, hmiddle, hlast⟩ := perform_all_two awkEq
    (.setDefault state.fallback) (.writeState state.candidate state.fallback .rollbackArmed) s
    completed
  · exact absurd hzero hsome
  · rw [hrecorded.set_default] at hdies
    cases hdies
  · rw [hops]
    have hset := apply_set_default hmiddle
    obtain hone | htwo := hlast
    · refine ⟨state, ?_, rfl, rfl, hrecorded⟩
      rw [hone, hset, ← hstate]
    · rw [hset] at htwo
      obtain ⟨written, hnamed, hback, hresult, hchecked⟩ := apply_write_state htwo
      refine ⟨written, hresult, hnamed, hback, hchecked hrecorded.clear ?_⟩
      show labelInit awkEq s.entries state.fallback ≠ some ""
      rw [hrecorded.fallbackInit]
      exact fun hempty => hrecorded.bootable (Option.some.inj hempty)

/-- A trial boot is one whose trial `early-rollback` finds. -/
theorem trial_found (h : Trials awkEq s) {state : TryState} (htrial : trialBoot s = some state) :
    readState s = some state ∧ IsCandidate s state :=
  (h.recorded state (Option.filter_eq_some_iff.1 htrial).1).found htrial

/-- Rolling the candidate of a trial boot back gives its fallback the `DEFAULT`. -/
theorem early_rollback (h : Trials awkEq s) (completed : Nat) :
    Trials awkEq (Command.earlyRollback.run awkEq s completed) := by
  by_cases hidle : completed = 0 ∨ earlyRollbackActions s = []
  · -- nothing is done, and if there is nothing to do, this is no trial boot
    have hevent : Command.earlyRollback.event awkEq s completed = none := by
      by_cases hcut : completed = 0 ∧ earlyRollbackActions s ≠ []
      · exact if_pos hcut
      · have hnothing : earlyRollbackActions s = [] :=
          hidle.elim (fun hzero => Classical.byContradiction fun hops => hcut ⟨hzero, hops⟩) id
        refine (if_neg hcut).trans ?_
        cases htrial : trialBoot s with
        | none => rfl
        | some state =>
            obtain ⟨hread, hcandidate⟩ := h.trial_found htrial
            simp [earlyRollbackActions, hread, hcandidate] at hnothing
    have hsame : performAll awkEq ((earlyRollbackActions s).take completed) s = s := by
      obtain hzero | hnothing := hidle
      · rw [hzero]
        rfl
      · rw [hnothing, List.take_nil]
        rfl
    rwa [run_same hsame hevent]
  rw [not_or] at hidle
  obtain ⟨hsome, hops⟩ := hidle
  obtain ⟨state, hread, hcandidate⟩ : ∃ state, readState s = some state ∧ IsCandidate s state := by
    unfold earlyRollbackActions at hops
    split at hops
    · exact absurd rfl hops
    · rename_i state hread
      split at hops
      · rename_i hcandidate
        exact ⟨state, hread, hcandidate⟩
      · exact absurd rfl hops
  have hstate := read_state_some hread
  obtain ⟨written, hresult, hnamed, hback, hrecorded⟩ :=
    h.early_rollback_found hread hcandidate hsome
  have hkept : Trials awkEq { s with default := state.fallback, state := some written } := by
    refine h.relabel (fun candidate fallback howed => (h.own _ _ howed state hstate).2) ?_
    rintro _ ⟨⟩
    exact ⟨state, hstate, hnamed, hback, hrecorded⟩
  have hrun : Command.earlyRollback.run awkEq s completed =
      { s with
        default := state.fallback, state := some written
        log := (Command.earlyRollback.event awkEq s completed).toList ++ s.log } := by
    rw [Command.run, Command.actions, hresult]
  have hevent : Command.earlyRollback.event awkEq s completed =
      (trialBoot s).map fun state => .rolledBack state.candidate state.fallback :=
    if_neg fun hcut => hsome hcut.1
  rw [hrun, hevent]
  cases htrial : trialBoot s with
  | none => exact hkept
  | some other =>
      have hother : other = state :=
        Option.some.inj ((Option.filter_eq_some_iff.1 htrial).1.symm.trans hstate)
      subst hother
      refine ⟨?_, hkept.distinct, hkept.recorded, ?_, ?_⟩
      · rintro _ ⟨⟩ hfallback
        rw [hback] at hfallback
        exact hfallback.elim (h.distinct other hstate).symm (h.fallback other hstate)
      · exact fun candidate fallback howed => howed.elim (fun hnew => hnew.2)
          (hkept.owed candidate fallback)
      · rintro candidate fallback howed _ ⟨⟩
        rw [hnamed, hback]
        exact howed.elim id fun hbefore => h.own _ _ hbefore other hstate

/-- Blessing the running candidate ends what its fallback was owed. -/
theorem bless (h : Trials awkEq s) (completed : Nat) :
    Trials awkEq (Command.bless.run awkEq s completed) := by
  cases hread : (readState s).filter fun state => IsCandidate s state with
  | none =>
      have hops : blessActions s = [] := by
        unfold blessActions
        cases hfile : readState s with
        | none => rfl
        | some state =>
            rw [hfile, Option.filter_some] at hread
            refine if_neg fun hcandidate => ?_
            simp [hcandidate] at hread
      have hevent : Command.bless.event awkEq s completed = none := by
        simp [Command.event, blessed, hread]
      have hsame : performAll awkEq ((blessActions s).take completed) s = s := by
        rw [hops, List.take_nil]
        rfl
      rwa [run_same hsame hevent]
  | some state =>
      obtain ⟨hfile, hcandidate⟩ := Option.filter_eq_some_iff.1 hread
      have hstate := read_state_some hfile
      have hops : blessActions s = [.setDefault state.candidate, .removeState] := by
        rw [blessActions, hfile]
        exact if_pos (of_decide_eq_true hcandidate)
      have hevent : Command.bless.event awkEq s completed =
          if completed = 0 ∧ blessActions s ≠ [] then none
          else (FileOp.apply awkEq s (.setDefault state.candidate)).map fun _ =>
            .blessed state.candidate := by
        simp only [Command.event, Command.actions, blessed, hread]
        rfl
      obtain ⟨hsame, hstop⟩ | ⟨middle, hsome, hmiddle, hlast⟩ :=
        perform_all_two awkEq (.setDefault state.candidate) .removeState s completed
      · have hnothing : Command.bless.event awkEq s completed = none := by
          rw [hevent, hops]
          obtain hzero | hdies := hstop
          · rw [if_pos ⟨hzero, List.cons_ne_nil _ _⟩]
          · rw [hdies, Option.map_none, ite_self]
        rwa [run_same (by rw [Command.actions, hops, hsame]) hnothing]
      · rw [if_neg fun hcut => hsome hcut.1, hmiddle, Option.map_some] at hevent
        have hnone : ∀ candidate fallback,
            ¬ Owed (.blessed state.candidate :: s.log) candidate fallback := by
          intro candidate fallback howed
          exact howed.1 (h.own _ _ howed.2 state hstate).1
        have hkept : ∀ written, (∀ other, written = some other → s.state = some other) →
            Trials awkEq { s with
              default := state.candidate, state := written
              log := .blessed state.candidate :: s.log } := by
          intro written hwritten
          exact ⟨fun other hother htrial => h.fallback other (hwritten other hother) htrial.2,
            fun other hother => h.distinct other (hwritten other hother),
            fun other hother => h.recorded other (hwritten other hother),
            fun candidate fallback howed => absurd howed (hnone candidate fallback),
            fun candidate fallback howed => absurd howed (hnone candidate fallback)⟩
        rw [Command.run, Command.actions, hops, hevent]
        obtain hone | htwo := hlast
        · rw [hone, apply_set_default hmiddle]
          exact hkept s.state fun other hother => hother
        · rw [← Option.some.inj htwo, apply_set_default hmiddle]
          exact hkept none fun other hother => by cases hother

/-- `rollback-now` gives the fallback the `DEFAULT` it may be owed. -/
theorem rollback_now (h : Trials awkEq s) (completed : Nat) :
    Trials awkEq (Command.rollbackNow.run awkEq s completed) := by
  have hevent : Command.rollbackNow.event awkEq s completed = none := ite_self _
  cases hread : readState s with
  | none =>
      have hsame : performAll awkEq ((rollbackNowActions s).take completed) s = s := by
        rw [rollbackNowActions, hread, List.take_nil]
        rfl
      rwa [run_same hsame hevent]
  | some state =>
      have hops : rollbackNowActions s = [.setDefault state.fallback, .removeState] := by
        rw [rollbackNowActions, hread]
      have hstate := read_state_some hread
      have howes : ∀ candidate fallback, Owed s.log candidate fallback →
          state.fallback = fallback :=
        fun candidate fallback howed => (h.own _ _ howed state hstate).2
      obtain ⟨hsame, -⟩ | ⟨middle, -, hmiddle, hlast⟩ :=
        perform_all_two awkEq (.setDefault state.fallback) .removeState s completed
      · rwa [run_same (by rw [Command.actions, hops, hsame]) hevent]
      · rw [Command.run, Command.actions, hops, hevent]
        obtain hone | htwo := hlast
        · rw [hone, apply_set_default hmiddle]
          exact h.relabel howes fun other hother => ⟨other, hother, rfl, rfl, h.recorded other hother⟩
        · rw [← Option.some.inj htwo, apply_set_default hmiddle]
          exact h.relabel howes fun other hother => by cases hother

/-- Every step whose arming is sound keeps the invariant. -/
theorem step : Preserved (Step awkEq (Sound awkEq)) (Trials awkEq) := by
  intro s t h hstep
  cases hstep with
  | command command completed allowed =>
      cases harming : command.arming s with
      | some arming =>
          exact h.arm (allowed arming.1 arming.2 harming) harming completed
      | none =>
          cases command with
          | earlyRollback => exact h.early_rollback completed
          | bless => exact h.bless completed
          | rollbackNow => exact h.rollback_now completed
          | arm candidate fallback => cases harming
          | activate =>
              have hactions : Command.activate.actions s = [] := by
                simp only [Command.actions, harming]
              have hevent : Command.activate.event awkEq s completed = none := by
                simp only [Command.event, harming]
                exact ite_self _
              rwa [run_same (by rw [hactions, List.take_nil]; rfl) hevent]
  | reboot entry listed starts => exact ⟨h.fallback, h.distinct, h.recorded, h.owed, h.own⟩

end Trials

/-- A medium on which no trial has been recorded yet. -/
structure Untried (s : System) : Prop where
  state : s.state = none
  log : s.log = []

/-- The rollback invariant of every run of reboots, activations, armings, rollbacks and blessings,
each command cut off after any of its file replacements, as long as every arming is sound: the
recorded fallback is never on trial, and a fallback that is owed the `DEFAULT` has it. -/
theorem try_boot_rollback (awkEq : String → String → Bool) (start s : System)
    (hstart : Untried start) (hrun : Relation.ReflTransGen (Step awkEq (Sound awkEq)) start s) :
    (∀ state, s.state = some state → ¬ OnTrial s.log state.fallback) ∧
      ∀ candidate fallback, Owed s.log candidate fallback → s.default = fallback := by
  have hnone : ∀ candidate fallback, ¬ Owed start.log candidate fallback := by
    intro candidate fallback howed
    rw [hstart.log] at howed
    exact howed
  have htrials : Trials awkEq start := by
    refine ⟨?_, ?_, ?_, fun candidate fallback howed => absurd howed (hnone candidate fallback),
      fun candidate fallback howed => absurd howed (hnone candidate fallback)⟩
    · simp [hstart.state]
    · simp [hstart.state]
    · simp [hstart.state]
  have hafter : Trials awkEq s := Trials.step.reachable htrials hrun
  exact ⟨hafter.fallback, hafter.owed⟩

/-- The generation that runs. -/
def oldEntry : Entry := { label := "old", init := some "/nix/store/old-system/init" }

/-- The generation that is installed beside it. -/
def candidateEntry : Entry :=
  { label := "candidate", init := some "/nix/store/candidate-system/init" }

/-- An old generation runs and a candidate is installed beside it. -/
def installed : System where
  entries := [oldEntry, candidateEntry]
  default := "old"
  state := none
  booted := some oldEntry
  log := []

/-- How awk compares labels that do not look like numbers. -/
def sameText (label want : String) : Bool := label == want

/-- The candidate is armed, booted and rolled back: the old generation has the `DEFAULT`. -/
theorem try_boot_rollback_candidate :
    ∃ s, Relation.ReflTransGen (Step sameText (Sound sameText)) installed s ∧
      s.booted = some candidateEntry ∧ Owed s.log "candidate" "old" ∧ s.default = "old" := by
  have hclear : Clear sameText installed.entries "candidate" := by
    intro entry hentry hlabel
    refine ⟨"/nix/store/candidate-system/init", ?_, by decide, by decide, by decide⟩
    simp only [installed, List.mem_cons, List.not_mem_nil, or_false] at hentry
    obtain rfl | rfl := hentry
    · exact absurd hlabel (by decide)
    · rfl
  have hsound : Sound sameText installed "candidate" "old" :=
    ⟨id, fun _ _ howed => howed.elim, hclear, by decide⟩
  have hrun : Relation.ReflTransGen (Step sameText (Sound sameText)) installed _ :=
    ((Relation.ReflTransGen.single (.command installed (.arm "candidate" none) 2
      fun candidate fallback harming => by cases harming; exact hsound)).tail
      (.reboot _ candidateEntry (by decide) (by decide))).tail
      (.command _ .earlyRollback 2 fun _ _ harming => by cases harming)
  have hresult := try_boot_rollback sameText installed _ ⟨rfl, rfl⟩ hrun
  exact ⟨_, hrun, rfl, .inl ⟨rfl, rfl⟩, hresult.2 "candidate" "old" (.inl ⟨rfl, rfl⟩)⟩

/-- An arming whose fallback is on trial records it, so the condition on fallbacks is the exact
one. In a trial boot after `early-rollback` this is the arming of the activation script. -/
theorem arming_records_trial {candidate fallback : String}
    (hchecks : validLabel candidate && validLabel fallback && candidate ≠ fallback)
    (htrial : OnTrial s.log fallback)
    (hwrite : FileOp.apply awkEq s (.writeState candidate fallback .armed) = some t)
    {command : Command} (harming : command.arming s = some (candidate, fallback)) :
    ∃ state, (command.run awkEq s 1).state = some state ∧
      OnTrial (command.run awkEq s 1).log state.fallback := by
  have hops : armActions candidate fallback =
      [.writeState candidate fallback .armed, .setDefault candidate] := if_pos hchecks
  have hevent : command.event awkEq s 1 = some (.armed candidate fallback) := by
    rw [event_arm harming, if_neg fun hcut => Nat.one_ne_zero hcut.1, armed, hops, List.head?_cons,
      Option.bind_some, hwrite, Option.map_some]
  have hrun : command.run awkEq s 1 = { t with log := .armed candidate fallback :: s.log } := by
    rw [Command.run, actions_arm harming, hops, hevent]
    simp [performAll, hwrite]
  obtain ⟨state, -, hfallback, rfl, -⟩ := apply_write_state hwrite
  rw [hrun]
  refine ⟨state, rfl, .inr ?_⟩
  rw [hfallback]
  exact htrial

/-- Running the activation script in the trial boot, after `early-rollback`, arms the old
generation with the candidate as its fallback. The next boot of the old generation then rolls it
back to the candidate, which was never blessed. -/
theorem activation_swaps_roles :
    ∃ s, Relation.ReflTransGen (Step sameText fun _ _ _ => True) installed s ∧
      (∃ state, s.state = some state ∧ state.candidate = "old" ∧ state.fallback = "candidate" ∧
        OnTrial s.log state.fallback) ∧
      Owed s.log "candidate" "old" ∧ s.default = "candidate" := by
  have hcommand : ∀ (s : System) (command : Command),
      Relation.ReflTransGen (Step sameText fun _ _ _ => True) s (command.run sameText s 2) :=
    fun s command => .single (.command s command 2 fun _ _ _ => trivial)
  have hreboot : ∀ (s : System) (entry : Entry), entry ∈ s.entries → entry.label = s.default →
      Relation.ReflTransGen (Step sameText fun _ _ _ => True) s { s with booted := some entry } :=
    fun s entry listed starts => .single (.reboot s entry listed starts)
  refine ⟨_, (hcommand installed (.arm "candidate" none)).trans <|
    (hreboot _ candidateEntry (by decide) (by decide)).trans <|
    (hcommand _ .earlyRollback).trans <| (hcommand _ .activate).trans <|
    (hreboot _ oldEntry (by decide) (by decide)).trans <| hcommand _ .earlyRollback,
    ⟨_, rfl, rfl, rfl, ?trial⟩, ?owed, by decide⟩
  case trial => exact .inr (.inr (.inl rfl))
  case owed => exact .inr ⟨.inr rfl, .inl ⟨rfl, rfl⟩⟩

end NanoKvm.TryBoot
