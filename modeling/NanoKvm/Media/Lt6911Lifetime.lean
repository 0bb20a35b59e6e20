import NanoKvm.Media.Lt6911Polling

/-!
# The lifetime of the polling work

What holds in every interleaving of the entry points of the LT6911UXC driver: which references keep
the chip resumed, when the work is armed or runs, and how changes of the mode become events. Each
thread claims what its control point tells it of the data, and where no claim does, some thread
answers for the state.
-/

namespace NanoKvm.Lt6911

open Exec

/-! ## What moves do to the data -/

section

variable {ι : Type} {pc next : Pc} {data data' : Data}

/-- Who changes which part of the data. -/
structure Effect (pc : Pc) (data data' : Data) : Prop where
  enabled : data'.enabled = data.enabled ∨ pc = .enableMark ∨ pc = .disableMark
  streaming : data'.uxcStreaming = true →
    data.uxcStreaming = true ∨ pc = .enableArm ∧ data.removing = false
  clears : data.uxcStreaming = true →
    data'.uxcStreaming = true ∨ ∃ removing, pc = .stopClear removing
  removing : data.removing = true → data'.removing = true
  removed : data'.removing = true → data.removing = true ∨ data'.uxcStreaming = false
  armed : data'.armed = true →
    data.armed = true ∨ pc = .enableArm ∧ data.removing = false ∨ data.uxcStreaming = true

theorem effect_same (henabled : data'.enabled = data.enabled)
    (hstreaming : data'.uxcStreaming = data.uxcStreaming) (hremoving : data'.removing = data.removing)
    (harmed : data'.armed = data.armed) : Effect pc data data' where
  enabled := .inl henabled
  streaming h := .inl (hstreaming ▸ h)
  clears h := .inl (hstreaming ▸ h)
  removing h := hremoving ▸ h
  removed h := .inl (hremoving ▸ h)
  armed h := .inl (harmed ▸ h)

theorem moves_effect (h : (code (ι := ι)).Moves pc data data' next) : Effect pc data data' := by
  cases pc with
  | idle =>
      obtain ⟨rfl, _⟩ := h
      exact effect_same rfl rfl rfl rfl
  | queryGet | enableGet =>
      obtain ⟨rfl, _⟩ | ⟨rfl, _⟩ := h <;> exact effect_same rfl rfl rfl rfl
  | queryUpdate | workUpdate =>
      obtain ⟨answers, rfl, _⟩ := h
      exact effect_same rfl rfl rfl rfl
  | enableArm =>
      obtain ⟨rfl, _⟩ := h
      by_cases hremoving : data.removing = true
      · rw [if_pos hremoving]
        exact effect_same rfl rfl rfl rfl
      · rw [if_neg hremoving]
        have hfalse := Bool.eq_false_iff.mpr hremoving
        exact ⟨.inl rfl, fun _ => .inr ⟨rfl, hfalse⟩, fun _ => .inl rfl, id, .inl,
          fun _ => .inr (.inl ⟨rfl, hfalse⟩)⟩
  | enableMark =>
      obtain ⟨rfl, _⟩ := h
      exact ⟨.inr (.inl rfl), .inl, .inl, id, .inl, .inl⟩
  | disableMark =>
      obtain ⟨rfl, _⟩ := h
      exact ⟨.inr (.inr rfl), .inl, .inl, id, .inl, .inl⟩
  | stopClear removing =>
      obtain ⟨rfl, _⟩ := h
      refine ⟨.inl rfl, fun hfalse => (by cases hfalse), fun _ => .inr ⟨removing, rfl⟩,
        fun htrue => ?_, fun _ => .inr rfl, .inl⟩
      exact Bool.or_eq_true_iff.mpr (.inl htrue)
  | stopCancel removing was =>
      obtain ⟨rfl, _⟩ := h
      exact ⟨.inl rfl, .inl, .inl, id, .inl, fun hfalse => (by cases hfalse)⟩
  | stopPut removing was =>
      obtain ⟨rfl, _⟩ := h
      cases was <;> exact effect_same rfl rfl rfl rfl
  | workIdle =>
      obtain ⟨_, rfl, _⟩ := h
      exact ⟨.inl rfl, .inl, .inl, id, .inl, fun hfalse => (by cases hfalse)⟩
  | workRearm changed =>
      obtain ⟨rfl, _⟩ := h
      by_cases hstreaming : data.uxcStreaming = true
      · rw [if_pos hstreaming]
        exact ⟨.inl rfl, .inl, .inl, id, .inl, fun _ => .inr (.inr hstreaming)⟩
      · rw [if_neg hstreaming]
        exact effect_same rfl rfl rfl rfl
  | workStreamUnlock streaming =>
      cases streaming <;> obtain ⟨rfl, _⟩ := h <;> exact effect_same rfl rfl rfl rfl
  | _ =>
      obtain ⟨rfl, _⟩ := h
      exact effect_same rfl rfl rfl rfl

/-! ## Claims -/

/-- Between the test of the core and the end of `enable_streams`. -/
def Pc.Enabling : Pc → Bool
  | .enableGet | .enableStreamLock | .enableArm | .enableStreamUnlock | .refusedUnlock
  | .refusedPut | .enableMark => true
  | _ => false

/-- A stop that has cleared the flag, and whether it removes the device. -/
def Pc.stops : Pc → Option Bool
  | .stopUnlock removing _ | .stopCancel removing _ | .stopWait removing _
  | .stopPut removing _ => some removing
  | .disableMark => some false
  | _ => none

/-- A stop that has taken the pending work back. -/
def Pc.Cancelled : Pc → Bool
  | .stopWait _ _ | .stopPut _ _ | .disableMark => true
  | _ => false

/-- What a thread knows of the data. -/
structure Claim (pc : Pc) (data : Data) : Prop where
  enabling : pc.Enabling = true → data.enabled = false
  stops : ∀ removing, pc.stops = some removing →
    data.uxcStreaming = false ∧ (removing = true → data.removing = true)
  cancelled : pc.Cancelled = true → data.armed = false

/-- At most control points nothing is claimed. -/
theorem claim_of_none (henabling : next.Enabling = false) (hstops : next.stops = none)
    (hcancelled : next.Cancelled = false) : Claim next data where
  enabling h := by cases henabling.symm.trans h
  stops removing h := by cases hstops.symm.trans h
  cancelled h := by cases hcancelled.symm.trans h

/-- On the way through `enable_streams`. -/
theorem claim_of_enabling (h : data.enabled = false) (hstops : next.stops = none)
    (hcancelled : next.Cancelled = false) : Claim next data where
  enabling _ := h
  stops removing h := by cases hstops.symm.trans h
  cancelled h := by cases hcancelled.symm.trans h

theorem claim_own (h : Claim pc data) (hmoves : (code (ι := ι)).Moves pc data data' next) :
    Claim next data' := by
  cases pc with
  | idle =>
      obtain ⟨rfl, rfl | rfl | rfl | rfl⟩ := hmoves <;> exact claim_of_none rfl rfl rfl
  | queryGet => obtain ⟨_, rfl⟩ | ⟨_, rfl⟩ := hmoves <;> exact claim_of_none rfl rfl rfl
  | queryUpdate =>
      obtain ⟨answers, _, rfl⟩ := hmoves
      split <;> exact claim_of_none rfl rfl rfl
  | enableTest =>
      obtain ⟨hsame, rfl⟩ := hmoves
      rw [hsame]
      by_cases henabled : data.enabled = true
      · rw [if_pos henabled]
        exact claim_of_none rfl rfl rfl
      · rw [if_neg henabled]
        exact claim_of_enabling (Bool.eq_false_iff.mpr henabled) rfl rfl
  | enableGet =>
      obtain ⟨rfl, rfl⟩ | ⟨rfl, rfl⟩ := hmoves
      · exact claim_of_enabling (h.enabling rfl) rfl rfl
      · exact claim_of_none rfl rfl rfl
  | enableArm =>
      obtain ⟨rfl, rfl⟩ := hmoves
      have henabled := h.enabling rfl
      split <;> exact claim_of_enabling henabled rfl rfl
  | enableStreamLock | enableStreamUnlock | refusedUnlock =>
      obtain ⟨rfl, rfl⟩ := hmoves
      exact claim_of_enabling (h.enabling rfl) rfl rfl
  | disableTest =>
      obtain ⟨_, rfl⟩ := hmoves
      split <;> exact claim_of_none rfl rfl rfl
  | stopClear removing =>
      obtain ⟨rfl, rfl⟩ := hmoves
      refine ⟨fun hfalse => (by cases hfalse), fun other hother => ?_, fun hfalse => (by cases hfalse)⟩
      cases hother
      exact ⟨rfl, fun htrue => Bool.or_eq_true_iff.mpr (.inr htrue)⟩
  | stopUnlock removing was =>
      obtain ⟨rfl, rfl⟩ := hmoves
      exact ⟨fun hfalse => (by cases hfalse), h.stops, fun hfalse => (by cases hfalse)⟩
  | stopCancel removing was =>
      obtain ⟨rfl, rfl⟩ := hmoves
      exact ⟨fun hfalse => (by cases hfalse), h.stops, fun _ => rfl⟩
  | stopWait removing was =>
      obtain ⟨rfl, rfl⟩ := hmoves
      exact ⟨fun hfalse => (by cases hfalse), h.stops, h.cancelled⟩
  | stopPut removing was =>
      obtain ⟨rfl, rfl⟩ := hmoves
      cases removing with
      | true => exact claim_of_none rfl rfl rfl
      | false =>
          cases was <;>
            exact ⟨fun hfalse => (by cases hfalse), h.stops, h.cancelled⟩
  | workIdle | workUpdate =>
      obtain ⟨_, _, rfl⟩ := hmoves
      exact claim_of_none rfl rfl rfl
  | workStreamUnlock streaming =>
      cases streaming <;> obtain ⟨_, rfl⟩ := hmoves <;> exact claim_of_none rfl rfl rfl
  | _ =>
      obtain ⟨_, rfl⟩ := hmoves
      exact claim_of_none rfl rfl rfl

/-- Who enables or has disabled holds the active state. -/
theorem active_of_enabling (h : pc.Enabling = true) : pc.Holds .active := by
  cases pc with
  | enableGet | enableStreamLock | enableArm | enableStreamUnlock | refusedUnlock | refusedPut
  | enableMark => decide
  | _ => cases h

theorem active_of_stops (h : pc.stops = some false) : pc.Holds .active := by
  cases pc with
  | stopUnlock removing | stopCancel removing | stopWait removing | stopPut removing =>
      cases h
      exact .head _
  | disableMark => decide
  | _ => cases h

theorem claim_other {other : Pc} (hapart : ∀ lock, pc.Holds lock → ¬ other.Holds lock)
    (h : Claim other data) (hmoves : (code (ι := ι)).Moves pc data data' next) :
    Claim other data' := by
  have heffect := moves_effect hmoves
  -- An `enable_streams` in its critical section excludes every stop that is under way.
  have harm : ∀ removing, other.stops = some removing → pc = .enableArm →
      data.removing = true := by
    intro removing hstops hpc
    subst hpc
    cases removing with
    | true => exact (h.stops true hstops).2 rfl
    | false => exact absurd (active_of_stops hstops) (hapart .active (active_of_enabling rfl))
  refine ⟨fun henabling => ?_, fun removing hstops => ?_, fun hcancelled => ?_⟩
  · rcases heffect.enabled with hsame | rfl | rfl
    · rw [hsame]
      exact h.enabling henabling
    · exact absurd (active_of_enabling henabling) (hapart .active (by decide))
    · exact absurd (active_of_enabling henabling) (hapart .active (by decide))
  · obtain ⟨hstreaming, hremoving⟩ := h.stops removing hstops
    refine ⟨Bool.eq_false_iff.mpr fun htrue => ?_, fun htrue => heffect.removing (hremoving htrue)⟩
    rcases heffect.streaming htrue with htrue | ⟨hpc, hfalse⟩
    · cases hstreaming.symm.trans htrue
    · cases hfalse.symm.trans (harm removing hstops hpc)
  · obtain ⟨removing, hstops⟩ : ∃ removing, other.stops = some removing := by
      cases other with
      | stopWait removing | stopPut removing => exact ⟨removing, rfl⟩
      | disableMark => exact ⟨false, rfl⟩
      | _ => cases hcancelled
    refine Bool.eq_false_iff.mpr fun htrue => ?_
    rcases heffect.armed htrue with htrue | ⟨hpc, hfalse⟩ | htrue
    · cases (h.cancelled hcancelled).symm.trans htrue
    · cases hfalse.symm.trans (harm removing hstops hpc)
    · cases (h.stops removing hstops).1.symm.trans htrue

/-! ## Who answers for what -/

/-- On the way to tell the core that the stream is enabled. -/
def Pc.Marking (pc : Pc) : Prop := pc = .enableStreamUnlock ∨ pc = .enableMark

/-- A stop that will take the pending work back. -/
def Pc.Cancelling (pc : Pc) : Prop :=
  ∃ removing was, pc = .stopUnlock removing was ∨ pc = .stopCancel removing was

/-- A stop that will wait for the running work, and had been streaming. -/
def Pc.Waiting (was : Bool) (pc : Pc) : Prop :=
  ∃ removing, pc = .stopUnlock removing was ∨ pc = .stopCancel removing was ∨
    pc = .stopWait removing was

theorem enabled_moves (hclaim : Claim pc data) (hmoves : (code (ι := ι)).Moves pc data data' next)
    (h : (data.uxcStreaming = true → data.enabled = true) ∨ pc.Marking) :
    (data'.uxcStreaming = true → data'.enabled = true) ∨ next.Marking := by
  have heffect := moves_effect hmoves
  rcases h with hfact | rfl | rfl
  · by_cases harm : pc = .enableArm ∧ data.removing = false
    · obtain ⟨rfl, hremoving⟩ := harm
      obtain ⟨_, rfl⟩ := hmoves
      rw [hremoving]
      exact .inr (.inl rfl)
    · refine .inl fun hstreaming => ?_
      have hbefore := (heffect.streaming hstreaming).resolve_right harm
      rcases heffect.enabled with hsame | rfl | rfl
      · rw [hsame]
        exact hfact hbefore
      · obtain ⟨rfl, _⟩ := hmoves
        rfl
      · cases (hclaim.stops false rfl).1.symm.trans hbefore
  · obtain ⟨_, rfl⟩ := hmoves
    exact .inr (.inr rfl)
  · obtain ⟨rfl, _⟩ := hmoves
    exact .inl fun _ => rfl

theorem armed_moves (hmoves : (code (ι := ι)).Moves pc data data' next)
    (h : (data.armed = true → data.uxcStreaming = true) ∨ pc.Cancelling) :
    (data'.armed = true → data'.uxcStreaming = true) ∨ next.Cancelling := by
  have heffect := moves_effect hmoves
  rcases h with hfact | ⟨removing, was, rfl | rfl⟩
  · by_cases hclear : ∃ removing, pc = .stopClear removing
    · obtain ⟨removing, rfl⟩ := hclear
      obtain ⟨_, rfl⟩ := hmoves
      exact .inr ⟨removing, data.uxcStreaming, .inl rfl⟩
    · refine .inl fun harmed => ?_
      rcases heffect.armed harmed with hbefore | ⟨rfl, hremoving⟩ | hbefore
      · exact (heffect.clears (hfact hbefore)).resolve_right hclear
      · obtain ⟨rfl, _⟩ := hmoves
        rw [hremoving]
        rfl
      · exact (heffect.clears hbefore).resolve_right hclear
  · obtain ⟨_, rfl⟩ := hmoves
    exact .inr ⟨removing, was, .inr rfl⟩
  · obtain ⟨rfl, _⟩ := hmoves
    exact .inl fun hfalse => (by cases hfalse)

end

section

variable {ι : Type} {pc next : Pc} {data data' : Data}

/-- The worker accesses the chip only after it has seen the driver stream. -/
theorem powered_moves (h : (code (ι := ι)).Moves pc data data' next)
    (hnext : next = .workStreamUnlock true ∨ next = .workUpdate) :
    pc = .workStreamUnlock true ∨ data.uxcStreaming = true := by
  cases pc with
  | workStreamUnlock streaming =>
      cases streaming with
      | true => exact .inl rfl
      | false =>
          obtain ⟨_, rfl⟩ := h
          rcases hnext with h | h <;> cases h
  | workTest =>
      obtain ⟨_, rfl⟩ := h
      rcases hnext with h | h
      · exact .inr (Pc.workStreamUnlock.inj h)
      · cases h
  | idle => obtain ⟨_, rfl | rfl | rfl | rfl⟩ := h <;> rcases hnext with h | h <;> cases h
  | queryGet | enableGet =>
      obtain ⟨_, rfl⟩ | ⟨_, rfl⟩ := h <;> rcases hnext with h | h <;> cases h
  | queryUpdate =>
      obtain ⟨answers, _, rfl⟩ := h
      split at hnext <;> rcases hnext with h | h <;> cases h
  | enableTest | enableArm | disableTest =>
      obtain ⟨_, rfl⟩ := h
      split at hnext <;> rcases hnext with h | h <;> cases h
  | stopPut removing was =>
      obtain ⟨_, rfl⟩ := h
      cases removing <;> rcases hnext with h | h <;> cases h
  | workIdle | workUpdate =>
      obtain ⟨_, _, rfl⟩ := h
      rcases hnext with h | h <;> cases h
  | _ =>
      obtain ⟨_, rfl⟩ := h
      rcases hnext with h | h <;> cases h

end

/-- While the worker is at certain points the driver streams or a stop waits for it. -/
def Covered {ι : Type} (busy duty : Pc → Prop) (s : System ι) : Prop :=
  busy (s.pc none) → s.data.uxcStreaming = true ∨ ∃ thread, duty (s.pc thread)

theorem covered_step {ι : Type} [DecidableEq ι] {busy duty : Pc → Prop} {s next : System ι}
    {thread : Tid ι} (hidle : ¬ busy .workIdle) (hclear : ∀ removing, duty (.stopUnlock removing true))
    (hduty : ∀ pc, duty pc → ∃ removing was, pc = .stopUnlock removing was ∧
      duty (.stopCancel removing was) ∨ pc = .stopCancel removing was ∧
      duty (.stopWait removing was) ∨ pc = .stopWait removing was)
    (hplaced : Placed s) (h : Covered busy duty s) (hstep : code.Step thread s next)
    (henter : thread = none → busy (next.pc none) → ¬ busy (s.pc none) →
      s.data.uxcStreaming = true ∨ ∃ thread, duty (s.pc thread)) : Covered busy duty next := by
  intro hbusy
  obtain ⟨pc, hpc, hmoves⟩ := step_moves hstep
  have hself : next.pc thread = pc := by rw [hpc, Function.update_self]
  have hbefore : s.data.uxcStreaming = true ∨ ∃ thread, duty (s.pc thread) := by
    by_cases hworker : thread = none
    · by_cases hwas : busy (s.pc none)
      · exact h hwas
      · exact henter hworker hbusy hwas
    · rw [step_other hstep (Ne.symm hworker)] at hbusy
      exact h hbusy
  rcases hbefore with hstreaming | ⟨other, hother⟩
  · rcases (moves_effect hmoves).clears hstreaming with hstreaming' | ⟨removing, hat⟩
    · exact .inl hstreaming'
    · rw [hat] at hmoves
      obtain ⟨_, rfl⟩ := hmoves
      rw [hstreaming] at hself
      refine .inr ⟨thread, ?_⟩
      rw [hself]
      exact hclear removing
  · by_cases heq : other = thread
    · subst heq
      obtain ⟨removing, was, ⟨hat, hnext⟩ | ⟨hat, hnext⟩ | hat⟩ := hduty _ hother
      · rw [hat] at hmoves
        obtain ⟨_, rfl⟩ := hmoves
        exact .inr ⟨other, hself ▸ hnext⟩
      · rw [hat] at hmoves
        obtain ⟨_, rfl⟩ := hmoves
        exact .inr ⟨other, hself ▸ hnext⟩
      · -- The stop goes on only when the worker rests.
        have hinstr : (code (ι := ι)).instr (s.pc other) = .await none (.stopPut removing was) := by
          rw [hat]
          rfl
        have hworker := hplaced.worker none
        have hrest : s.pc none = .workIdle := by
          rcases step_await hstep hinstr with hrest | hrest
          · rw [hrest] at hworker
            cases hworker
          · exact hrest
        have hcaller : none ≠ other := by
          intro heq
          rw [← heq, hrest] at hat
          cases hat
        rw [step_other hstep hcaller, hrest] at hbusy
        exact absurd hbusy hidle
    · refine .inr ⟨other, ?_⟩
      rw [step_other hstep heq]
      exact hother

/-! ## Accounts -/

/-- The references that a thread has taken and still has to drop itself. -/
def Pc.refs : Pc → Nat
  | .queryModeLock | .queryUpdate | .queryStateLock _ | .queryFormat _ | .queryStateUnlock _
  | .queryModeUnlock _ | .queryPut _ => 1
  | .enableStreamLock | .enableArm | .refusedUnlock | .refusedPut => 1
  | .stopUnlock _ was | .stopCancel _ was | .stopWait _ was | .stopPut _ was => was.toNat
  | _ => 0

/-- The events that a thread still has to send. -/
def Pc.pending : Pc → Nat
  | .queryStateLock changed | .queryFormat changed | .queryStateUnlock changed
  | .queryModeUnlock changed | .queryPut changed | .queryNotify changed => changed.toNat
  | .workRelock changed | .workRearm changed | .workUnlock changed | .workModeUnlock changed
  | .workNotify changed => changed.toNat
  | _ => 0

section

variable {ι : Type} {pc next : Pc} {data data' : Data}

theorem refs_moves (harm : pc = .enableArm → data.uxcStreaming = false) (hrefs : pc.refs ≤ data.refs)
    (h : (code (ι := ι)).Moves pc data data' next) :
    data'.refs + pc.refs + data.uxcStreaming.toNat
      = data.refs + next.refs + data'.uxcStreaming.toNat := by
  cases pc with
  | idle => obtain ⟨rfl, rfl | rfl | rfl | rfl⟩ := h <;> rfl
  | queryGet | enableGet => obtain ⟨rfl, rfl⟩ | ⟨rfl, rfl⟩ := h <;> rfl
  | queryUpdate =>
      obtain ⟨answers, rfl, rfl⟩ := h
      split <;> rfl
  | queryPut | refusedPut =>
      obtain ⟨rfl, rfl⟩ := h
      change 1 ≤ data.refs at hrefs
      show data.refs - 1 + 1 + data.uxcStreaming.toNat = data.refs + 0 + data.uxcStreaming.toNat
      omega
  | enableTest | disableTest =>
      obtain ⟨rfl, rfl⟩ := h
      split <;> rfl
  | enableArm =>
      obtain ⟨rfl, rfl⟩ := h
      have hstreaming := harm rfl
      split
      · rfl
      · show data.refs + 1 + data.uxcStreaming.toNat = data.refs + 0 + 1
        rw [hstreaming]
        rfl
  | stopClear removing =>
      obtain ⟨rfl, rfl⟩ := h
      exact Nat.add_right_comm data.refs 0 data.uxcStreaming.toNat
  | stopPut removing was =>
      obtain ⟨rfl, rfl⟩ := h
      cases was with
      | false => cases removing <;> rfl
      | true =>
          change 1 ≤ data.refs at hrefs
          have hnext : (if removing = true then Pc.idle else .disableMark).refs = 0 := by
            cases removing <;> rfl
          rw [hnext]
          show data.refs - 1 + 1 + data.uxcStreaming.toNat = data.refs + 0 + data.uxcStreaming.toNat
          omega
  | workIdle =>
      obtain ⟨_, rfl, rfl⟩ := h
      rfl
  | workUpdate =>
      obtain ⟨answers, rfl, rfl⟩ := h
      rfl
  | workRearm =>
      obtain ⟨rfl, rfl⟩ := h
      split <;> rfl
  | workStreamUnlock streaming => cases streaming <;> obtain ⟨rfl, rfl⟩ := h <;> rfl
  | _ =>
      obtain ⟨rfl, rfl⟩ := h
      rfl

/-- An update counts a change exactly when it leaves an event to send. -/
theorem update_changes (answers : Answers) (data : Data) : (data.update answers).changes
    = data.changes + (statusUpdate answers data.curMode).changed.toNat := by
  have hchanged := status_update_changed answers data.curMode
  unfold Data.update
  dsimp only
  by_cases hsame : (statusUpdate answers data.curMode).mode = data.curMode
  · rw [if_pos hsame, Bool.eq_false_iff.mpr fun htrue => hchanged.mp htrue hsame]
    rfl
  · rw [if_neg hsame, hchanged.mpr hsame]
    rfl

theorem events_moves (h : (code (ι := ι)).Moves pc data data' next) :
    data'.changes + data.events + pc.pending = data.changes + data'.events + next.pending := by
  cases pc with
  | idle => obtain ⟨rfl, rfl | rfl | rfl | rfl⟩ := h <;> rfl
  | queryGet | enableGet => obtain ⟨rfl, rfl⟩ | ⟨rfl, rfl⟩ := h <;> rfl
  | queryUpdate =>
      obtain ⟨answers, rfl, rfl⟩ := h
      rw [update_changes]
      split <;> exact Nat.add_right_comm data.changes _ data.events
  | workUpdate =>
      obtain ⟨answers, rfl, rfl⟩ := h
      rw [update_changes]
      exact Nat.add_right_comm data.changes _ data.events
  | queryNotify changed | workNotify changed =>
      obtain ⟨rfl, rfl⟩ := h
      exact Nat.add_assoc ..
  | enableTest | disableTest | enableArm =>
      obtain ⟨rfl, rfl⟩ := h
      split <;> rfl
  | stopPut removing was =>
      obtain ⟨rfl, rfl⟩ := h
      cases removing <;> cases was <;> rfl
  | workIdle =>
      obtain ⟨_, rfl, rfl⟩ := h
      rfl
  | workRearm =>
      obtain ⟨rfl, rfl⟩ := h
      split <;> rfl
  | workStreamUnlock streaming => cases streaming <;> obtain ⟨rfl, rfl⟩ := h <;> rfl
  | _ =>
      obtain ⟨rfl, rfl⟩ := h
      rfl

/-- The mode is changed by a status update under `mode_lock`, and every change is counted. -/
theorem mode_moves {pc target : Pc} {data data' : Data}
    (h : (code (ι := ι)).Moves pc data data' target) :
    data'.curMode = data.curMode ∧ data'.changes = data.changes ∨
      pc.Holds .mode ∧ data'.curMode ≠ data.curMode ∧ data'.changes = data.changes + 1 := by
  have hupdate : ∀ answers, pc.Holds .mode → data' = data.update answers →
      data'.curMode = data.curMode ∧ data'.changes = data.changes ∨
        pc.Holds .mode ∧ data'.curMode ≠ data.curMode ∧ data'.changes = data.changes + 1 := by
    rintro answers hholds rfl
    by_cases hsame : (statusUpdate answers data.curMode).mode = data.curMode
    · exact .inl ⟨hsame, if_pos hsame⟩
    · exact .inr ⟨hholds, hsame, if_neg hsame⟩
  cases pc with
  | queryUpdate | workUpdate =>
      obtain ⟨answers, hdata, _⟩ := h
      exact hupdate answers (by decide) hdata
  | queryGet | enableGet => obtain ⟨rfl, _⟩ | ⟨rfl, _⟩ := h <;> exact .inl ⟨rfl, rfl⟩
  | workIdle =>
      obtain ⟨_, rfl, _⟩ := h
      exact .inl ⟨rfl, rfl⟩
  | enableArm | workRearm =>
      obtain ⟨rfl, _⟩ := h
      split <;> exact .inl ⟨rfl, rfl⟩
  | stopPut removing was =>
      obtain ⟨rfl, _⟩ := h
      cases was <;> exact .inl ⟨rfl, rfl⟩
  | workStreamUnlock streaming =>
      cases streaming <;> obtain ⟨rfl, _⟩ := h <;> exact .inl ⟨rfl, rfl⟩
  | _ =>
      obtain ⟨rfl, _⟩ := h
      exact .inl ⟨rfl, rfl⟩

end

/-! ## Whole runs -/

/-- What every step keeps. -/
structure Sound {ι : Type} [Fintype ι] (s : System ι) : Prop where
  placed : Placed s
  claims : ∀ thread, Claim (s.pc thread) s.data
  removed : s.data.removing = true → s.data.uxcStreaming = false
  enabled : s.Answered (fun data => data.uxcStreaming = true → data.enabled = true) Pc.Marking
  armed : s.Answered (fun data => data.armed = true → data.uxcStreaming = true) Pc.Cancelling
  running : Covered (fun pc => pc ≠ .workIdle) (fun pc => ∃ was, pc.Waiting was) s
  powered : Covered (fun pc => pc = .workStreamUnlock true ∨ pc = .workUpdate) (Pc.Waiting true) s
  refs : s.data.refs = s.data.uxcStreaming.toNat + s.total Pc.refs
  events : s.data.changes = s.data.events + s.total Pc.pending

section

variable {ι : Type} [Fintype ι] {mode : Mode} {s next : System ι}

theorem sound_start : Sound (start mode : System ι) where
  placed := placed_start
  claims thread := by cases thread <;> exact claim_of_none rfl rfl rfl
  removed h := by cases h
  enabled := .inl fun h => (by cases h)
  armed := .inl fun h => (by cases h)
  running h := absurd rfl h
  powered h := by obtain h | h := h <;> cases h
  refs := by
    have hnone : (start mode : System ι).total Pc.refs = 0 :=
      Finset.sum_eq_zero fun thread _ => by cases thread <;> rfl
    rw [hnone]
    rfl
  events := by
    have hnone : (start mode : System ι).total Pc.pending = 0 :=
      Finset.sum_eq_zero fun thread _ => by cases thread <;> rfl
    rw [hnone]
    rfl

/-- A thread drops no more references than there are. -/
theorem Sound.refs_le (h : Sound s) (thread : Tid ι) : (s.pc thread).refs ≤ s.data.refs := by
  rw [h.refs]
  exact Nat.le_add_left_of_le (le_total Pc.refs s thread)

/-- `enable_streams` never finds the polling running. -/
theorem Sound.not_streaming (h : Sound s) {thread : Tid ι} (hpc : s.pc thread = .enableArm) :
    s.data.uxcStreaming = false := by
  refine Bool.eq_false_iff.mpr fun hstreaming => ?_
  rcases h.enabled with hfact | ⟨other, hother⟩
  · have henabling := (h.claims thread).enabling (by rw [hpc]; rfl)
    cases henabling.symm.trans (hfact hstreaming)
  · have hholds : (s.pc other).Holds .active := by rcases hother with h | h <;> rw [h] <;> decide
    have hholds' : (s.pc thread).Holds .active := by rw [hpc]; decide
    obtain rfl := h.placed.owned.unique hholds hholds'
    rcases hother with h | h <;> cases hpc.symm.trans h

theorem Sound.step [DecidableEq ι] (h : Sound s) {thread : Tid ι} (hstep : code.Step thread s next) :
    Sound next := by
  obtain ⟨pc, hpc, hmoves⟩ := step_moves hstep
  have heffect := moves_effect hmoves
  have hself : next.pc thread = pc := by rw [hpc, Function.update_self]
  constructor
  case placed => exact placed_step h.placed ⟨thread, hstep⟩
  case claims =>
    exact claims_step (fun _ _ _ _ hclaim hmoves => claim_own hclaim hmoves)
      (fun _ _ _ _ _ hapart _ hclaim hmoves => claim_other hapart hclaim hmoves)
      h.placed.owned h.claims hstep
  case removed =>
    intro hremoving
    rcases heffect.removed hremoving with hbefore | hfalse
    · refine Bool.eq_false_iff.mpr fun htrue => ?_
      rcases heffect.streaming htrue with hstreaming | ⟨_, hnot⟩
      · cases (h.removed hbefore).symm.trans hstreaming
      · cases hnot.symm.trans hbefore
    · exact hfalse
  case enabled =>
    exact answered_step h.enabled hstep fun _ hmoves => enabled_moves (h.claims thread) hmoves
  case armed => exact answered_step h.armed hstep fun _ hmoves => armed_moves hmoves
  case running =>
    refine covered_step (fun hne => hne rfl) (fun removing => ⟨true, removing, .inl rfl⟩) ?_
      h.placed h.running hstep ?_
    · rintro _ ⟨was, removing, rfl | rfl | rfl⟩
      · exact ⟨removing, was, .inl ⟨rfl, was, removing, .inr (.inl rfl)⟩⟩
      · exact ⟨removing, was, .inr (.inl ⟨rfl, was, removing, .inr (.inr rfl)⟩)⟩
      · exact ⟨removing, was, .inr (.inr rfl)⟩
    · rintro rfl _ hidle
      rw [not_not.mp hidle] at hmoves
      obtain ⟨harmed, _⟩ := hmoves
      rcases h.armed with hfact | ⟨other, removing, was, hother | hother⟩
      · exact .inl (hfact harmed)
      · exact .inr ⟨other, was, removing, .inl hother⟩
      · exact .inr ⟨other, was, removing, .inr (.inl hother)⟩
  case powered =>
    refine covered_step ?_ (fun removing => ⟨removing, .inl rfl⟩) ?_ h.placed h.powered hstep ?_
    · rintro (h | h) <;> cases h
    · rintro _ ⟨removing, rfl | rfl | rfl⟩
      · exact ⟨removing, true, .inl ⟨rfl, removing, .inr (.inl rfl)⟩⟩
      · exact ⟨removing, true, .inr (.inl ⟨rfl, removing, .inr (.inr rfl)⟩)⟩
      · exact ⟨removing, true, .inr (.inr rfl)⟩
    · rintro rfl hbusy hwas
      rw [hself] at hbusy
      exact .inl ((powered_moves hmoves hbusy).resolve_left fun hpc => hwas (.inl hpc))
  case refs =>
    have htotal := total_update Pc.refs s.pc thread pc
    have hmove := refs_moves (fun hat => h.not_streaming hat) (h.refs_le thread) hmoves
    have hrefs := h.refs
    unfold Threads.total at hrefs ⊢
    rw [hpc]
    omega
  case events =>
    have htotal := total_update Pc.pending s.pc thread pc
    have hmove := events_moves hmoves
    have hevents := h.events
    unfold Threads.total at hevents ⊢
    rw [hpc]
    omega

theorem Reached.sound [DecidableEq ι] (h : Reached mode s) : Sound s := by
  have hkept : Preserved (code (ι := ι)).Steps Sound := by
    rintro s next hs ⟨thread, hstep⟩
    exact hs.step hstep
  exact hkept.reachable sound_start h

/-- In every interleaving: with no call in progress the driver holds one reference if it streams and
none otherwise; when it does not stream and no stop is under way the work neither runs nor is armed;
after a removal it never streams again; and the chip is accessed only with a reference held. -/
theorem polling_lifetime [DecidableEq ι] (h : Reached mode s) :
    ((∀ caller, s.pc (some caller) = .idle) → s.data.refs = s.data.uxcStreaming.toNat) ∧
    (s.data.uxcStreaming = false → (∀ thread was, ¬ (s.pc thread).Waiting was) →
      s.data.armed = false ∧ s.pc none = .workIdle) ∧
    (s.data.removing = true → s.data.uxcStreaming = false) ∧
    ∀ thread, s.pc thread = .queryUpdate ∨ s.pc thread = .workUpdate → 0 < s.data.refs := by
  have hsound := h.sound
  refine ⟨fun hidle => ?_, fun hoff hnobody => ⟨?_, ?_⟩, hsound.removed, fun thread hat => ?_⟩
  · have hnone : s.total Pc.refs = 0 := by
      refine Finset.sum_eq_zero fun thread _ => ?_
      cases thread with
      | some caller => rw [hidle caller]; rfl
      | none =>
          have hworker := hsound.placed.worker none
          generalize s.pc none = pc at hworker
          cases pc with
          | workIdle | workModeLock | workStreamLock | workTest | workStreamUnlock | workUpdate
          | workRelock | workRearm | workUnlock | workModeUnlock | workNotify => rfl
          | _ => cases hworker
    rw [hsound.refs, hnone]
    rfl
  · rcases hsound.armed with hfact | ⟨thread, removing, was, hcancelling⟩
    · exact Bool.eq_false_iff.mpr fun harmed => by cases hoff.symm.trans (hfact harmed)
    · refine absurd ⟨removing, ?_⟩ (hnobody thread was)
      exact hcancelling.imp_right .inl
  · by_contra hbusy
    rcases hsound.running hbusy with hstreaming | ⟨thread, was, hwaiting⟩
    · cases hoff.symm.trans hstreaming
    · exact hnobody thread was hwaiting
  · rcases hat with hquery | hwork
    · have hone := hsound.refs_le thread
      rw [hquery] at hone
      exact hone
    · have hnone : thread = none := by
        have hworker := hsound.placed.worker thread
        rw [hwork] at hworker
        cases thread with
        | none => rfl
        | some caller => cases hworker
      subst hnone
      rcases hsound.powered (.inr hwork) with hstreaming | ⟨other, removing, hother⟩
      · rw [hsound.refs, hstreaming]
        exact Nat.lt_add_right _ Nat.zero_lt_one
      · have hone := hsound.refs_le other
        rcases hother with hat | hat | hat <;> rw [hat] at hone <;> exact hone

/-- The chip reports a stable signal of 1920x1080. -/
def stableAnswers : Answers := ⟨0, ⟨0, hdmiStable⟩, ⟨0, 1920⟩, ⟨0, 1080⟩, 0⟩

/-- A removal that comes while the work is at the chip, and the rest of it. -/
theorem removal_run : ∃ mid s : System Unit, Reached initialMode mid ∧
    Relation.ReflTransGen code.Steps mid s ∧ mid.pc (some ()) = .stopWait true true ∧
    mid.pc none = .workUpdate ∧ s.data.removing = true ∧ s.data.changes = 1 ∧
    ∀ thread, s.pc thread = thread.elim .workIdle fun _ => .idle := by
  refine ⟨?_, ?_, ?_, ?_, ?_⟩
  rotate_left 2
  · -- The stream is enabled.
    refine run_step (some ()) (.act rfl ⟨rfl, .inr (.inl rfl)⟩) ?_
    refine run_step (some ()) (.lock rfl rfl) ?_
    refine run_step (some ()) (.act rfl ⟨rfl, rfl⟩) ?_
    refine run_step (some ()) (.act rfl (.inl ⟨rfl, rfl⟩)) ?_
    refine run_step (some ()) (.lock rfl rfl) ?_
    refine run_step (some ()) (.act rfl ⟨rfl, rfl⟩) ?_
    refine run_step (some ()) (.unlock rfl) ?_
    refine run_step (some ()) (.act rfl ⟨rfl, rfl⟩) ?_
    refine run_step (some ()) (.unlock rfl) ?_
    -- The work starts, and goes to the chip.
    refine run_step none (.act rfl ⟨rfl, rfl, rfl⟩) ?_
    refine run_step none (.lock rfl rfl) ?_
    refine run_step none (.lock rfl rfl) ?_
    refine run_step none (.act rfl ⟨rfl, rfl⟩) ?_
    refine run_step none (.unlock rfl) ?_
    -- The removal waits for it.
    refine run_step (some ()) (.act rfl ⟨rfl, .inr (.inr (.inr rfl))⟩) ?_
    refine run_step (some ()) (.lock rfl rfl) ?_
    refine run_step (some ()) (.act rfl ⟨rfl, rfl⟩) ?_
    refine run_step (some ()) (.unlock rfl) ?_
    refine run_step (some ()) (.act rfl ⟨rfl, rfl⟩) ?_
    exact .refl
  · -- The work ends without arming itself.
    refine run_step none (.act rfl ⟨stableAnswers, rfl, rfl⟩) ?_
    refine run_step none (.lock rfl rfl) ?_
    refine run_step none (.act rfl ⟨rfl, rfl⟩) ?_
    refine run_step none (.unlock rfl) ?_
    refine run_step none (.unlock rfl) ?_
    refine run_step none (.act rfl ⟨rfl, rfl⟩) ?_
    -- The reference is given back.
    refine run_step (some ()) (.await rfl (.inr rfl)) ?_
    refine run_step (some ()) (.act rfl ⟨rfl, rfl⟩) ?_
    exact .refl
  · refine ⟨rfl, rfl, rfl, rfl, fun thread => ?_⟩
    cases thread with
    | none => rfl
    | some caller => rfl

/-- The reference stays until the work is over. Then neither is left, and no work is armed. -/
theorem polling_lifetime_removed : ∃ mid s : System Unit, Reached initialMode mid ∧
    mid.pc (some ()) = .stopWait true true ∧ mid.pc none = .workUpdate ∧ 0 < mid.data.refs ∧
    Relation.ReflTransGen code.Steps mid s ∧ s.data.changes = 1 ∧
    s.data.uxcStreaming = false ∧ s.data.refs = 0 ∧ s.data.armed = false := by
  obtain ⟨mid, s, hreached, hsteps, hwaits, hwork, hremoving, hchanges, hrest⟩ := removal_run
  obtain ⟨hrefs, hquiet, hremoved, _⟩ := polling_lifetime (hreached.trans hsteps)
  have hnobody : ∀ thread was, ¬ (s.pc thread).Waiting was := by
    rintro thread was ⟨removing, hpc⟩
    rw [hrest] at hpc
    cases thread <;> simp at hpc
  have hoff := hremoved hremoving
  refine ⟨mid, s, hreached, hwaits, hwork, ?_, hsteps, hchanges, hoff, ?_, (hquiet hoff hnobody).1⟩
  · exact (polling_lifetime hreached).2.2.2 none (.inr hwork)
  · rw [hrefs fun caller => hrest _, hoff]
    rfl

/-- Each change of the mode is one event: those that were not sent yet are each carried by a thread
that will send it, and only a thread that holds `mode_lock` changes the mode. -/
theorem source_change_events [DecidableEq ι] (h : Reached mode s) :
    s.data.changes = s.data.events + s.total Pc.pending ∧
    ((∀ thread, (s.pc thread).Resting) → s.data.changes = s.data.events) ∧
    ∀ thread next, code.Step thread s next →
      next.data.curMode = s.data.curMode ∧ next.data.changes = s.data.changes ∨
      s.owner .mode = some thread ∧ next.data.curMode ≠ s.data.curMode ∧
        next.data.changes = s.data.changes + 1 := by
  have hsound := h.sound
  refine ⟨hsound.events, fun hrest => ?_, fun thread next hstep => ?_⟩
  · have hnone : s.total Pc.pending = 0 := by
      refine Finset.sum_eq_zero fun thread _ => ?_
      obtain hpc | hpc := hrest thread <;> rw [hpc] <;> rfl
    rw [hsound.events, hnone]
    rfl
  · obtain ⟨pc, _, hmoves⟩ := step_moves hstep
    refine (mode_moves hmoves).imp_right fun hchange => ⟨?_, hchange.2⟩
    exact (hsound.placed.owned _ _).mpr hchange.1

/-- A query that finds a signal sends one event. -/
theorem source_change_events_query : ∃ s : System Unit, Reached initialMode s ∧
    s.data.changes = 1 ∧ s.data.events = 1 := by
  have hrun : ∃ s : System Unit, Reached initialMode s ∧ s.data.changes = 1 ∧
      ∀ thread, (s.pc thread).Resting := by
    refine ⟨?_, ?_, ?_⟩
    rotate_left
    · refine run_step (some ()) (.act rfl ⟨rfl, .inl rfl⟩) ?_
      refine run_step (some ()) (.act rfl (.inl ⟨rfl, rfl⟩)) ?_
      refine run_step (some ()) (.lock rfl rfl) ?_
      refine run_step (some ()) (.act rfl ⟨stableAnswers, rfl, rfl⟩) ?_
      refine run_step (some ()) (.lock rfl rfl) ?_
      refine run_step (some ()) (.act rfl ⟨rfl, rfl⟩) ?_
      refine run_step (some ()) (.unlock rfl) ?_
      refine run_step (some ()) (.unlock rfl) ?_
      refine run_step (some ()) (.act rfl ⟨rfl, rfl⟩) ?_
      refine run_step (some ()) (.act rfl ⟨rfl, rfl⟩) ?_
      exact .refl
    · refine ⟨rfl, fun thread => ?_⟩
      cases thread with
      | none => exact .inr rfl
      | some caller => exact .inl rfl
  obtain ⟨s, hreached, hchanges, hrest⟩ := hrun
  exact ⟨s, hreached, hchanges, ((source_change_events hreached).2.1 hrest).symm.trans hchanges⟩

end

end NanoKvm.Lt6911
