import Mathlib.Algebra.BigOperators.Fin
import Mathlib.Data.Fintype.BigOperators
import Mathlib.Order.WellFounded
import NanoKvm.Exec.Reachability

/-!
# Threads with locks

Threads that share data run one instruction at a time: they take and release locks, wait until
another thread rests, or act on the data. `Disciplined` says in terms of the code which locks a
thread holds at each control point; `owned_step` derives that the owners of the locks are the
threads that hold them. A thread that cannot go on waits for another one, and when all threads in
progress wait some of them wait in a cycle (`exists_cycle`).
-/

namespace NanoKvm.Exec

/-- What a thread does next. An action says which data and which control point can follow. -/
inductive Instr (Tid Pc Lock Data : Type) where
  | lock (lock : Lock) (next : Pc)
  | unlock (lock : Lock) (next : Pc)
  | await (thread : Tid) (next : Pc)
  | act (action : Data → Data → Pc → Prop)

/-- The code of all threads, and the control points at which a thread has nothing in progress. -/
structure ThreadCode (Tid Pc Lock Data : Type) where
  instr : Pc → Instr Tid Pc Lock Data
  resting : Pc → Prop

/-- The threads, the owners of the locks and the data. -/
structure Threads (Tid Pc Lock Data : Type) where
  pc : Tid → Pc
  owner : Lock → Option Tid
  data : Data

/-! ## Owners and cycles -/

section

variable {Tid Pc Lock Data : Type} {code : ThreadCode Tid Pc Lock Data}
  {s : Threads Tid Pc Lock Data} {holds : Pc → Lock → Prop}

/-- Which locks a thread holds at each control point, as its instructions change it. -/
structure Disciplined (code : ThreadCode Tid Pc Lock Data) (holds : Pc → Lock → Prop) : Prop where
  lock : ∀ pc lock next, code.instr pc = .lock lock next →
    ¬ holds pc lock ∧ ∀ other, holds next other ↔ holds pc other ∨ other = lock
  unlock : ∀ pc lock next, code.instr pc = .unlock lock next →
    holds pc lock ∧ ∀ other, holds next other ↔ holds pc other ∧ other ≠ lock
  await : ∀ pc thread next, code.instr pc = .await thread next →
    ∀ other, holds next other ↔ holds pc other
  act : ∀ pc action data data' next, code.instr pc = .act action → action data data' next →
    ∀ other, holds next other ↔ holds pc other
  resting : ∀ pc lock, code.resting pc → ¬ holds pc lock

/-- The owners of the locks are the threads that hold them. -/
def Threads.Owned (holds : Pc → Lock → Prop) (s : Threads Tid Pc Lock Data) : Prop :=
  ∀ lock thread, s.owner lock = some thread ↔ holds (s.pc thread) lock

/-- A lock has one owner. -/
theorem Threads.Owned.unique {holds : Pc → Lock → Prop} (h : s.Owned holds) {first second : Tid}
    {lock : Lock} (hfirst : holds (s.pc first) lock) (hsecond : holds (s.pc second) lock) :
    first = second := by
  have howner := (h lock first).mpr hfirst
  rw [(h lock second).mpr hsecond] at howner
  exact (Option.some.inj howner).symm

/-- A thread waits for the owner of a lock, or for a thread to rest. -/
inductive ThreadCode.Waits (code : ThreadCode Tid Pc Lock Data) (s : Threads Tid Pc Lock Data) :
    Tid → Tid → Prop where
  | lock {thread owner : Tid} {lock : Lock} {next : Pc}
      (h : code.instr (s.pc thread) = .lock lock next) (howner : s.owner lock = some owner) :
      Waits code s thread owner
  | await {thread other : Tid} {next : Pc} (h : code.instr (s.pc thread) = .await other next)
      (hbusy : ¬ code.resting (s.pc other)) : Waits code s thread other

/-- Nobody waits for a thread that rests. -/
theorem waits_busy (hcode : Disciplined code holds) (h : s.Owned holds) {other : Tid}
    (hwaits : code.Waits s thread other) : ¬ code.resting (s.pc other) := by
  cases hwaits with
  | lock _ howner => exact fun hrest => hcode.resting _ _ hrest ((h _ other).mp howner)
  | await _ hbusy => exact hbusy

/-- On a cycle every thread waits for the next. -/
theorem cycle_next {relation : Tid → Tid → Prop} (h : Relation.TransGen relation thread thread) :
    ∃ other, relation thread other ∧ Relation.TransGen relation other other := by
  obtain ⟨other, hfirst, hrest⟩ := Relation.TransGen.head'_iff.mp h
  exact ⟨other, hfirst, .tail' hrest hfirst⟩

/-- When all threads in progress wait, some wait in a cycle. -/
theorem exists_cycle [Finite Tid] (hcode : Disciplined code holds) (h : s.Owned holds)
    (hbusy : ¬ code.resting (s.pc thread))
    (hwaits : ∀ thread, ¬ code.resting (s.pc thread) → ∃ other, code.Waits s thread other) :
    ∃ thread, Relation.TransGen (code.Waits s) thread thread := by
  by_contra hnone
  rw [not_exists] at hnone
  let later : Tid → Tid → Prop := fun first second =>
    Relation.TransGen (code.Waits s) second first
  have htrans : IsTrans Tid later := ⟨fun _ _ _ hab hbc => hbc.trans hab⟩
  have hirrefl : Std.Irrefl later := ⟨hnone⟩
  have hwell : WellFounded later := Finite.wellFounded_of_trans_of_irrefl later
  obtain ⟨last, hlast, hleast⟩ :=
    hwell.has_min { thread | ¬ code.resting (s.pc thread) } ⟨thread, hbusy⟩
  obtain ⟨other, hother⟩ := hwaits last hlast
  exact hleast other (waits_busy hcode h hother) (.single hother)

/-- What the threads carry together. -/
def Threads.total [Fintype Tid] (weight : Pc → Nat) (s : Threads Tid Pc Lock Data) : Nat :=
  ∑ thread, weight (s.pc thread)

theorem le_total [Fintype Tid] (weight : Pc → Nat) (s : Threads Tid Pc Lock Data) (thread : Tid) :
    weight (s.pc thread) ≤ s.total weight := by
  classical
  unfold Threads.total
  rw [← Finset.add_sum_erase _ _ (Finset.mem_univ thread)]
  exact Nat.le_add_right ..

end

/-! ## Moves -/

section

variable {Tid Pc Lock Data : Type}

/-- What the instruction at a control point does to the data, and where it leads. -/
def ThreadCode.Moves (code : ThreadCode Tid Pc Lock Data) (pc : Pc) (data data' : Data) (next : Pc) :
    Prop :=
  match code.instr pc with
  | .lock _ target | .unlock _ target | .await _ target => data' = data ∧ next = target
  | .act action => action data data' next

end

/-! ## Steps -/

section

variable {Tid Pc Lock Data : Type} [DecidableEq Tid]

theorem total_update [Fintype Tid] (weight : Pc → Nat) (pc : Tid → Pc) (thread : Tid) (next : Pc) :
    ∑ other, weight (Function.update pc thread next other) + weight (pc thread)
      = ∑ other, weight (pc other) + weight next := by
  have hmem := Finset.mem_univ thread
  rw [← Finset.add_sum_erase _ (fun other => weight (pc other)) hmem,
    ← Finset.add_sum_erase _ (fun other => weight (Function.update pc thread next other)) hmem]
  have hrest : ∑ other ∈ Finset.univ.erase thread, weight (Function.update pc thread next other)
      = ∑ other ∈ Finset.univ.erase thread, weight (pc other) := by
    refine Finset.sum_congr rfl fun other hother => ?_
    rw [Function.update_of_ne (Finset.ne_of_mem_erase hother)]
  rw [hrest, Function.update_self]
  omega

variable {s : Threads Tid Pc Lock Data} {holds : Pc → Lock → Prop} {thread : Tid}

/-- A step that changes no owner. -/
theorem owned_stay (h : s.Owned holds) {pc : Pc} {data : Data}
    (hsame : ∀ lock, holds pc lock ↔ holds (s.pc thread) lock) :
    Threads.Owned holds { s with pc := Function.update s.pc thread pc, data := data } := by
  intro lock other
  by_cases heq : other = thread
  · subst heq
    dsimp only
    rw [Function.update_self, hsame]
    exact h lock other
  · dsimp only
    rw [Function.update_of_ne heq]
    exact h lock other

variable [DecidableEq Lock]

/-- One thread makes a step. -/
inductive ThreadCode.Step (code : ThreadCode Tid Pc Lock Data) (thread : Tid) :
    Threads Tid Pc Lock Data → Threads Tid Pc Lock Data → Prop where
  | lock {s : Threads Tid Pc Lock Data} {lock : Lock} {next : Pc}
      (h : code.instr (s.pc thread) = .lock lock next) (hfree : s.owner lock = none) :
      Step code thread s { s with
        pc := Function.update s.pc thread next
        owner := Function.update s.owner lock (some thread) }
  | unlock {s : Threads Tid Pc Lock Data} {lock : Lock} {next : Pc}
      (h : code.instr (s.pc thread) = .unlock lock next) :
      Step code thread s { s with
        pc := Function.update s.pc thread next
        owner := Function.update s.owner lock none }
  | await {s : Threads Tid Pc Lock Data} {other : Tid} {next : Pc}
      (h : code.instr (s.pc thread) = .await other next) (hrest : code.resting (s.pc other)) :
      Step code thread s { s with pc := Function.update s.pc thread next }
  | act {s : Threads Tid Pc Lock Data} {action : Data → Data → Pc → Prop} {data : Data} {next : Pc}
      (h : code.instr (s.pc thread) = .act action) (haction : action s.data data next) :
      Step code thread s { s with pc := Function.update s.pc thread next, data := data }

/-- Some thread makes a step. -/
def ThreadCode.Steps (code : ThreadCode Tid Pc Lock Data)
    (s next : Threads Tid Pc Lock Data) : Prop :=
  ∃ thread, code.Step thread s next

variable {code : ThreadCode Tid Pc Lock Data} {next : Threads Tid Pc Lock Data}

/-- A step leaves the other threads where they are. -/
theorem step_other (h : code.Step thread s next) {other : Tid} (hother : other ≠ thread) :
    next.pc other = s.pc other := by
  cases h <;> exact Function.update_of_ne hother _ _

/-- A step is a move of its thread. -/
theorem step_moves (h : code.Step thread s next) : ∃ pc,
    next.pc = Function.update s.pc thread pc ∧ code.Moves (s.pc thread) s.data next.data pc := by
  cases h with
  | lock hinstr _ | unlock hinstr | await hinstr _ =>
      refine ⟨_, rfl, ?_⟩
      unfold ThreadCode.Moves
      rw [hinstr]
      exact ⟨rfl, rfl⟩
  | act hinstr haction =>
      refine ⟨_, rfl, ?_⟩
      unfold ThreadCode.Moves
      rw [hinstr]
      exact haction

/-- A thread that waited for another one goes on when that one rests. -/
theorem step_await (h : code.Step thread s next) {other : Tid} {target : Pc}
    (hinstr : code.instr (s.pc thread) = .await other target) : code.resting (s.pc other) := by
  cases h with
  | lock hinstr' => cases hinstr.symm.trans hinstr'
  | unlock hinstr' => cases hinstr.symm.trans hinstr'
  | await hinstr' hrest =>
      cases hinstr.symm.trans hinstr'
      exact hrest
  | act hinstr' => cases hinstr.symm.trans hinstr'

/-- What the threads claim about the data at their control points holds when every move keeps the
claim of its own thread and those of threads that hold none of its locks. -/
theorem claims_step {claim : Pc → Data → Prop}
    (hown : ∀ pc data data' next, claim pc data → code.Moves pc data data' next → claim next data')
    (hother : ∀ pc data data' next other, (∀ lock, holds pc lock → ¬ holds other lock) →
      claim pc data → claim other data → code.Moves pc data data' next → claim other data')
    (howned : s.Owned holds) (h : ∀ thread, claim (s.pc thread) s.data)
    (hstep : code.Step thread s next) (other : Tid) : claim (next.pc other) next.data := by
  obtain ⟨pc, hpc, hmoves⟩ := step_moves hstep
  rw [hpc]
  by_cases heq : other = thread
  · subst heq
    rw [Function.update_self]
    exact hown _ _ _ _ (h other) hmoves
  · rw [Function.update_of_ne heq]
    refine hother _ _ _ _ _ (fun lock hlock hlock' => heq ?_) (h thread) (h other) hmoves
    exact howned.unique hlock' hlock

/-- A fact about the data holds or a thread answers for it. -/
def Threads.Answered (fact : Data → Prop) (duty : Pc → Prop) (s : Threads Tid Pc Lock Data) : Prop :=
  fact s.data ∨ ∃ thread, duty (s.pc thread)

theorem answered_step {fact : Data → Prop} {duty : Pc → Prop} (h : s.Answered fact duty)
    (hstep : code.Step thread s next)
    (hmoves : ∀ pc, code.Moves (s.pc thread) s.data next.data pc →
      fact s.data ∨ duty (s.pc thread) → fact next.data ∨ duty pc) : next.Answered fact duty := by
  obtain ⟨pc, hpc, hmove⟩ := step_moves hstep
  have hself : next.pc thread = pc := by rw [hpc, Function.update_self]
  have hmine : fact next.data ∨ duty pc → next.Answered fact duty := by
    rintro (hfact | hduty)
    · exact .inl hfact
    · exact .inr ⟨thread, hself ▸ hduty⟩
  rcases h with hfact | ⟨other, hduty⟩
  · exact hmine (hmoves pc hmove (.inl hfact))
  · by_cases heq : other = thread
    · subst heq
      exact hmine (hmoves pc hmove (.inr hduty))
    · refine .inr ⟨other, ?_⟩
      rw [hpc, Function.update_of_ne heq]
      exact hduty

theorem owned_step (hcode : Disciplined code holds) (h : s.Owned holds)
    (hstep : code.Step thread s next) : next.Owned holds := by
  cases hstep with
  | @lock taken pc hinstr hfree =>
      obtain ⟨_, hholds⟩ := hcode.lock _ _ _ hinstr
      have hnobody : ∀ other, ¬ holds (s.pc other) taken := by
        intro other hother
        rw [(h taken other).mpr hother] at hfree
        cases hfree
      intro lock other
      dsimp only
      by_cases hlock : lock = taken
      · subst hlock
        rw [Function.update_self]
        by_cases heq : other = thread
        · subst heq
          rw [Function.update_self, hholds]
          exact ⟨fun _ => .inr rfl, fun _ => rfl⟩
        · rw [Function.update_of_ne heq]
          exact ⟨fun hsome => absurd (Option.some.inj hsome).symm heq,
            fun hother => absurd hother (hnobody other)⟩
      · rw [Function.update_of_ne hlock, h lock other]
        by_cases heq : other = thread
        · subst heq
          rw [Function.update_self, hholds]
          exact ⟨.inl, fun hor => hor.resolve_right hlock⟩
        · rw [Function.update_of_ne heq]
  | @unlock released pc hinstr =>
      obtain ⟨hheld, hholds⟩ := hcode.unlock _ _ _ hinstr
      intro lock other
      dsimp only
      by_cases hlock : lock = released
      · subst hlock
        rw [Function.update_self]
        refine ⟨fun hnone => (by cases hnone), fun hother => ?_⟩
        by_cases heq : other = thread
        · subst heq
          rw [Function.update_self, hholds] at hother
          exact absurd rfl hother.2
        · rw [Function.update_of_ne heq] at hother
          exact absurd (h.unique hother hheld) heq
      · rw [Function.update_of_ne hlock, h lock other]
        by_cases heq : other = thread
        · subst heq
          rw [Function.update_self, hholds]
          exact ⟨fun hother => ⟨hother, hlock⟩, And.left⟩
        · rw [Function.update_of_ne heq]
  | await hinstr _ => exact owned_stay h (hcode.await _ _ _ hinstr)
  | act hinstr haction => exact owned_stay h (hcode.act _ _ _ _ _ hinstr haction)

/-- A thread that waits cannot step, and one that neither waits nor acts can. -/
theorem step_or_waits (code : ThreadCode Tid Pc Lock Data) (s : Threads Tid Pc Lock Data)
    (thread : Tid)
    (hact : ∀ action, code.instr (s.pc thread) = .act action → ∃ data next, action s.data data next) :
    (∃ next, code.Step thread s next) ∨ ∃ other, code.Waits s thread other := by
  cases hinstr : code.instr (s.pc thread) with
  | lock lock next =>
      cases howner : s.owner lock with
      | none => exact .inl ⟨_, .lock hinstr howner⟩
      | some owner => exact .inr ⟨owner, .lock hinstr howner⟩
  | unlock lock next => exact .inl ⟨_, .unlock hinstr⟩
  | await other next =>
      by_cases hrest : code.resting (s.pc other)
      · exact .inl ⟨_, .await hinstr hrest⟩
      · exact .inr ⟨other, .await hinstr hrest⟩
  | act action =>
      obtain ⟨data, next, haction⟩ := hact action hinstr
      exact .inl ⟨_, .act hinstr haction⟩

theorem waits_stuck {other : Tid} (h : code.Waits s thread other) : ¬ code.Step thread s next := by
  intro hstep
  cases h with
  | lock hinstr howner =>
      cases hstep with
      | lock hinstr' hfree =>
          cases hinstr.symm.trans hinstr'
          cases howner.symm.trans hfree
      | unlock hinstr' => cases hinstr.symm.trans hinstr'
      | await hinstr' => cases hinstr.symm.trans hinstr'
      | act hinstr' => cases hinstr.symm.trans hinstr'
  | await hinstr hbusy =>
      cases hstep with
      | lock hinstr' => cases hinstr.symm.trans hinstr'
      | unlock hinstr' => cases hinstr.symm.trans hinstr'
      | await hinstr' hrest =>
          cases hinstr.symm.trans hinstr'
          exact hbusy hrest
      | act hinstr' => cases hinstr.symm.trans hinstr'

end

end NanoKvm.Exec
