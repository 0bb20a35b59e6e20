import NanoKvm.WifiPower.Ownership

/-!
# The driver keeps the protocol

Between two calls without a recorded fault every request has been applied, so the driver
may compose the next one. A call returns 0 only after the completion line has carried the
commit of its request and after that its value; by the invariant the value has been applied
and read back then. A recorded fault is kept, so that nothing is written after it, and a new
driver finds the request of the old one in the line.
-/

namespace NanoKvm.WifiPower

open Exec

section

variable {generation : UInt32} {leftover : Line} {answer : Words} {s m t : Shared}

/-- The precondition of a program of the driver. -/
abbrev LinuxRuns (generation : UInt32) (leftover : Line) (answer : Words) {α : Type}
    (program : LinuxCode α) (post : α → Shared → Prop) (s : Shared) : Prop :=
  (linuxMachine generation leftover answer).wp (LinuxAllowed generation) program post s

/-! ## What the driver knows -/

/-- Nothing is being copied. -/
structure Quiet (generation : UInt32) (leftover : Line) (answer : Words) (fault : Option Errno)
    (log : List Record) (s : Shared) : Prop where
  valid : s.Valid generation leftover answer
  begun : s.begun = log
  committed : s.committed = log
  fault : s.fault = fault

/-- Every request has been applied, and the next one can be composed. -/
structure Ready (generation : UInt32) (leftover : Line) (answer : Words) (log : List Record)
    (s : Shared) : Prop where
  quiet : Quiet generation leftover answer none log s
  applied : s.applied.length = log.length
  commit : log ≠ [] → (s.completion commitIndex).toNat ≤ log.length

/-- A request is being copied. -/
structure Copying (generation : UInt32) (leftover : Line) (answer : Words) (log : List Record)
    (enabled : Bool) (copied : Nat) (s : Shared) : Prop where
  valid : s.Valid generation leftover answer
  begun : s.begun = log ++ [command generation (log.length + 1) enabled]
  committed : s.committed = log
  copied : s.copied = copied
  fault : s.fault = none

theorem quiet_stable (fault : Option Errno) (log : List Record) :
    (linuxMachine generation leftover answer).Stable
      (Quiet generation leftover answer fault log) := by
  intro s next h hrely
  exact ⟨hrely.valid h.valid, hrely.begun.trans h.begun, hrely.committed.trans h.committed,
    hrely.fault.trans h.fault⟩

/-- No commit of the completion line is above the committed requests. -/
theorem commit_stable {fault : Option Errno} {log : List Record}
    (h : Quiet generation leftover answer fault log s)
    (hrely : LinuxRely generation leftover answer s t)
    (hcommit : (s.completion commitIndex).toNat ≤ log.length) :
    (t.completion commitIndex).toNat ≤ log.length := by
  have ht := quiet_stable fault log s t h hrely
  have hle := (valid_lengths ht.valid).1
  rw [ht.committed] at hle
  rcases hrely.commit with hsame | hlow
  · rw [hsame]
    exact hcommit
  · omega

theorem ready_stable (log : List Record) : (linuxMachine generation leftover answer).Stable
    (Ready generation leftover answer log) := by
  intro s next h hrely
  have hquiet := quiet_stable none log s next h.quiet hrely
  refine ⟨hquiet, ?_, fun hlog => commit_stable h.quiet hrely (h.commit hlog)⟩
  have hle := (valid_lengths hquiet.valid).1
  have hgrown := hrely.applied
  have happlied := h.applied
  rw [hquiet.committed] at hle
  omega

theorem copying_stable (log : List Record) (enabled : Bool) (copied : Nat) :
    (linuxMachine generation leftover answer).Stable
      (Copying generation leftover answer log enabled copied) := by
  intro s next h hrely
  exact ⟨hrely.valid h.valid, hrely.begun.trans h.begun, hrely.committed.trans h.committed,
    hrely.copied.trans h.copied, hrely.fault.trans h.fault⟩

/-! ## Publishing a request -/

/-- The stores of a copy. -/
theorem copy_to_line_runs {log : List Record} {enabled : Bool}
    (widths : List Nat) {copied : Nat} (hwidths : AlignedStores copied widths)
    (h : Copying generation leftover answer log enabled copied s) :
    LinuxRuns generation leftover answer
      (copyToLine (requestRecord generation (.ofNat (log.length + 1)) enabled).line copied widths)
      (fun _ => Copying generation leftover answer log enabled 64) s := by
  induction widths generalizing s copied with
  | nil =>
      rw [show copied = 64 from hwidths] at h
      exact Machine.wp_pure (copying_stable log enabled 64) h
  | cons width rest ih =>
      have hallowed : ∀ t, Copying generation leftover answer log enabled copied t →
          LinuxAllowed generation t (.store
            (requestRecord generation (.ofNat (log.length + 1)) enabled).line copied width) := by
        intro t ht
        refine ⟨ht.fault, ht.copied.symm, enabled, ?_, ?_⟩
        · rw [ht.committed]
          exact ht.begun
        · rw [ht.committed]
      refine Machine.wp_perform (copying_stable log enabled copied) h hallowed ?_
      intro t _ next ht hnext
      rw [show next = _ from hnext]
      exact ih hwidths.2.2 ⟨valid_store ht.valid (hallowed t ht), ht.begun, ht.committed, rfl,
        ht.fault⟩

/-- `publishRequest` -/
theorem publish_request_runs (hanswer : Unambiguous answer) {log : List Record} {enabled : Bool}
    (hbounded : log.length + 1 < 2 ^ 32) (hfirst : log = [] → enabled = false)
    (h : Ready generation leftover answer log s) :
    LinuxRuns generation leftover answer
      (publishRequest generation (.ofNat (log.length + 1)) enabled)
      (fun _ => Quiet generation leftover answer none
        (log ++ [command generation (log.length + 1) enabled])) s := by
  have hcompose : ∀ t, Ready generation leftover answer log t →
      LinuxAllowed generation t (.compose (command generation (log.length + 1) enabled)) := by
    intro t ht
    have hbegun := ht.quiet.begun
    have hcommitted := ht.quiet.committed
    refine ⟨ht.quiet.fault, hbegun.trans hcommitted.symm, by rw [hcommitted, ht.applied],
      by rw [hbegun]; exact hbounded, ⟨enabled, by rw [hbegun], by rw [hbegun]; exact hfirst⟩, ?_⟩
    intro hsome
    rw [ht.applied]
    apply ht.commit
    intro hnil
    have happlied := ht.applied
    rw [hnil, List.length_nil] at happlied
    exact hsome (List.length_eq_zero_iff.1 happlied)
  refine Machine.wp_perform (ready_stable log) h hcompose ?_
  intro t _ next ht hnext
  rw [show next = _ from hnext]
  have hcopying : Copying generation leftover answer log enabled 0
      (t.compose (command generation (log.length + 1) enabled)) := by
    refine ⟨valid_compose ht.quiet.valid (hcompose t ht), ?_, ht.quiet.committed, rfl,
      ht.quiet.fault⟩
    show t.begun ++ [_] = log ++ [_]
    rw [ht.quiet.begun]
  refine Machine.wp_look (copying_stable log enabled 0) hcopying (fun _ _ _ hnext => hnext.2)
    (fun _ _ => trivial) ?_
  intro t widths ht hwidths
  refine Machine.wp_bind (Machine.wp_mono (copy_to_line_runs widths hwidths.1 ht) ?_)
  intro _ t ht
  have hcommit : ∀ t, Copying generation leftover answer log enabled 64 t →
      LinuxAllowed generation t (.writeCommit (command generation (log.length + 1) enabled)) := by
    intro t ht
    refine ⟨ht.fault, ht.copied, ?_⟩
    rw [ht.committed]
    exact ht.begun
  refine Machine.wp_tail (Machine.wp_perform (copying_stable log enabled 64) ht hcommit ?_)
  intro t _ next ht hnext
  rw [show next = _ from hnext]
  refine Machine.wp_pure (quiet_stable none _)
    ⟨valid_write_commit hanswer ht.valid (hcommit t ht), ht.begun, ?_, ht.fault⟩
  show t.committed ++ [_] = log ++ [_]
  rw [ht.committed, request_committed]

/-! ## Waiting -/

/-- The wait before a request looks at nothing but the status. -/
theorem await_generation_runs {assertion : Shared → Prop}
    (hstable : (linuxMachine generation leftover answer).Stable assertion) (turns : Nat)
    (h : assertion s) :
    LinuxRuns generation leftover answer (awaitGeneration turns) (fun _ => assertion) s := by
  induction turns generalizing s with
  | zero => exact Machine.wp_pure hstable h
  | succ turns ih =>
      refine Machine.wp_look hstable h (fun _ _ _ hnext => hnext) (fun _ _ => trivial) ?_
      intro t error ht _
      split
      · exact Machine.wp_pure hstable ht
      · exact ih ht

theorem linux_load_runs (index : Fin 16) :
    LinuxRuns generation leftover answer (linuxDo (.loadCompletion index))
      ((linuxMachine generation leftover answer).Seen (fun t => t.completion index) s) s := by
  refine @Machine.wp_load _ LinuxOp.Ret _ _ (LinuxAllowed generation) (.loadCompletion index)
    (fun t : Shared => t.completion index) _ (fun _ => trivial) ?_
  intro t word next hnext
  exact hnext

/-- One copy of the completion line. -/
theorem copy_completion_runs : LinuxRuns generation leftover answer copyCompletion
    ((linuxMachine generation leftover answer).Captured Shared.completion
      recordIndices commitIndex s) s := by
  rw [copyCompletion, commit_loaded_last]
  exact Machine.wp_captured (fun index before => linux_load_runs index) (by decide) _

theorem acknowledged_complete {first second : Words} {sequence : UInt32} {enabled : Bool}
    (h : acknowledged first second generation sequence enabled = .complete) :
    first = second ∧ first commitIndex = sequence ∧
      first enabledIndex = enabledWord enabled := by
  unfold acknowledged at h
  dsimp only at h
  split at h
  · cases h
  · rename_i hheader
    simp only [not_or, ne_eq, not_not] at hheader
    split at h
    · cases h
    · split at h
      · cases h
      · rename_i hvalue
        rw [ne_eq, not_not] at hvalue
        exact ⟨hheader.1, hheader.2.2.2.2, hvalue⟩

/-- The answer that the driver waits for: the request is done, or its value is not in the line. -/
def Open (record : Record) (s : Shared) : Prop :=
  s.Done ∨ s.committed.length ≤ s.published + 1 ∧ s.completion enabledIndex ≠ record.enabled

theorem open_stable {fault : Option Errno} {log : List Record} {record : Record}
    (hlast : log.getLast? = some record) :
    (linuxMachine generation leftover answer).Stable (fun t =>
      Quiet generation leftover answer fault log t ∧ Open record t) := by
  rintro t next ⟨hquiet, hopen⟩ hrely
  refine ⟨quiet_stable fault log t next hquiet hrely, ?_⟩
  rcases hopen with hdone | ⟨hcurrent, hvalue⟩
  · exact .inl (hrely.done hdone)
  · have hresult := hrely.result hquiet.valid hcurrent record (by rw [hquiet.committed, hlast])
      hvalue
    refine hresult.imp id fun hother => ⟨?_, hother⟩
    have hgrown := hrely.published
    rw [hrely.committed]
    omega

/-- Once the commit of the last request is in the completion line, its value says the truth. -/
theorem open_of_commit {fault : Option Errno} {log : List Record} {record : Record}
    (hlast : log.getLast? = some record) (h : Quiet generation leftover answer fault log s)
    (hcommit : s.completion commitIndex = record.sequence) : Open record s := by
  by_cases hdone : s.Done
  · exact .inl hdone
  · have hlast' : s.committed.getLast? = some record := by rw [h.committed, hlast]
    refine .inr ⟨?_, h.valid.unfinished record hlast' hdone hcommit⟩
    have hbegun : s.begun.length = s.committed.length := by rw [h.begun, h.committed]
    have houtstanding := h.valid.outstanding
    have hunpublished := h.valid.unpublished
    by_cases happlied : s.applied = []
    · rw [happlied, List.length_nil] at houtstanding
      omega
    · by_cases hlength : s.applied.length = s.committed.length
      · omega
      · have hle := (valid_lengths h.valid).1
        have hfresh := h.valid.fresh happlied (by omega)
        rw [hcommit, (last_sequence h.valid hlast').1] at hfresh
        omega

/-- Two equal copies that acknowledge the last request are only seen when it is done. -/
theorem done_of_acknowledged {log : List Record} {first second : Words} {enabled : Bool}
    (hlast : log.getLast? = some (command generation log.length enabled))
    (h : Quiet generation leftover answer none log s)
    (hfirst : (linuxMachine generation leftover answer).Captured Shared.completion
      recordIndices commitIndex s first m)
    (hsecond : (linuxMachine generation leftover answer).Captured Shared.completion
      recordIndices commitIndex m second t)
    (hcomplete : acknowledged first second generation (.ofNat log.length) enabled =
      .complete) : Ready generation leftover answer log t ∧ t.Done := by
  obtain ⟨hsame, hcommit, hvalue⟩ := acknowledged_complete hcomplete
  obtain ⟨moment, hmoment, hmiddle, hloaded, _⟩ := hfirst
  obtain ⟨last, hlate, hend, _, hagain⟩ := hsecond
  obtain ⟨after, hafter, hrest, hother⟩ := hagain enabledIndex (mem_record_indices (by decide))
  have hother : second enabledIndex = after.completion enabledIndex := hother
  have hthen := (quiet_stable none log).reachable h hmoment
  have hopen := open_of_commit hlast hthen (by rw [← hloaded, hcommit]; rfl)
  -- When the value is loaded for the second time, it is that of the request.
  obtain ⟨hquiet, hnow⟩ := (open_stable hlast).reachable ⟨hthen, hopen⟩ (hmiddle.trans hafter)
  have hdone : after.Done := by
    refine hnow.resolve_right fun hwrong => hwrong.2 ?_
    rw [← hother, ← hsame, hvalue]
    rfl
  have hready : Ready generation leftover answer log after := by
    have hstable : (linuxMachine generation leftover answer).Stable (fun u =>
        Quiet generation leftover answer none log u ∧
          (u.completion commitIndex).toNat ≤ log.length) :=
      fun u next hu hrely => ⟨quiet_stable none log u next hu.1 hrely,
        commit_stable hu.1 hrely hu.2⟩
    have hlow : (moment.completion commitIndex).toNat ≤ log.length := by
      rw [← hloaded, hcommit, UInt32.toNat_ofNat']
      exact Nat.mod_le _ _
    have hcommitNow := hstable.reachable ⟨hthen, hlow⟩ (hmiddle.trans hafter)
    exact ⟨hquiet, by rw [hdone.1, hquiet.committed], fun _ => hcommitNow.2⟩
  have hall : (linuxMachine generation leftover answer).Stable (fun u =>
      Ready generation leftover answer log u ∧ u.Done) :=
    fun u next hu hrely => ⟨ready_stable log u next hu.1 hrely, hrely.done hu.2⟩
  exact hall.reachable ⟨hready, hdone⟩ (hrest.trans hend)

/-- The driver after its wait: an error, or the request is done. -/
def Awaited (generation : UInt32) (leftover : Line) (answer : Words) (log : List Record)
    (error : Option Errno) (s : Shared) : Prop :=
  Quiet generation leftover answer none log s ∧
    (error = none → Ready generation leftover answer log s ∧ s.Done)

theorem awaited_stable (log : List Record) (error : Option Errno) :
    (linuxMachine generation leftover answer).Stable
      (Awaited generation leftover answer log error) := by
  intro s next h hrely
  refine ⟨quiet_stable none log s next h.1 hrely, fun hnone => ?_⟩
  obtain ⟨hready, hdone⟩ := h.2 hnone
  exact ⟨ready_stable log s next hready hrely, hrely.done hdone⟩

/-- `awaitCompletion` -/
theorem await_completion_runs {log : List Record} {enabled : Bool}
    (hlast : log.getLast? = some (command generation log.length enabled)) (turns : Nat)
    (h : Quiet generation leftover answer none log s) :
    LinuxRuns generation leftover answer
      (awaitCompletion generation (.ofNat log.length) enabled turns)
      (Awaited generation leftover answer log) s := by
  have hfailed : ∀ {t : Shared} (error : Errno), Quiet generation leftover answer none log t →
      LinuxRuns generation leftover answer (pure (some error))
        (Awaited generation leftover answer log) t := by
    intro t error ht
    exact Machine.wp_pure (awaited_stable log _) ⟨ht, fun hnone => nomatch hnone⟩
  induction turns generalizing s with
  | zero => exact hfailed .timedOut h
  | succ turns ih =>
      refine Machine.wp_look (quiet_stable none log) h (fun _ _ _ hnext => hnext)
        (fun _ _ => trivial) ?_
      intro t error ht _
      split
      · exact ih ht
      · exact hfailed _ ht
      · refine Machine.wp_bind (Machine.wp_mono copy_completion_runs ?_)
        intro first m hfirst
        refine Machine.wp_bind (Machine.wp_mono copy_completion_runs ?_)
        intro second u hsecond
        have hu : Quiet generation leftover answer none log u := by
          obtain ⟨_, hone, htwo, _⟩ := hfirst
          obtain ⟨_, hthree, hfour, _⟩ := hsecond
          exact (quiet_stable none log).reachable ht
            (((hone.trans htwo).trans hthree).trans hfour)
        split
        · exact ih hu
        · exact hfailed .proto hu
        · exact hfailed .io hu
        · rename_i hcomplete
          exact Machine.wp_pure (awaited_stable log none)
            ⟨hu, fun _ => done_of_acknowledged hlast ht hfirst hsecond hcomplete⟩

/-! ## Calls -/

/-- The driver between two calls. -/
structure DriverIdle (generation : UInt32) (leftover : Line) (answer : Words) (power : Power)
    (s : Shared) : Prop where
  quiet : Quiet generation leftover answer power.fault s.committed s
  ready : power.fault = none → Ready generation leftover answer s.committed s ∧
    power.sequence.toNat = s.committed.length

theorem driver_idle_stable (power : Power) : (linuxMachine generation leftover answer).Stable
    (DriverIdle generation leftover answer power) := by
  intro s next h hrely
  refine ⟨?_, fun hfault => ?_⟩
  · rw [hrely.committed]
    exact quiet_stable power.fault s.committed s next h.quiet hrely
  · obtain ⟨hready, hsequence⟩ := h.ready hfault
    rw [hrely.committed]
    exact ⟨ready_stable s.committed s next hready hrely, hsequence⟩

/-- What a call leaves behind: a success has a request in the log, an error is recorded. -/
def Called (generation : UInt32) (leftover : Line) (answer : Words)
    (result : Power × Option Errno) (s : Shared) : Prop :=
  DriverIdle generation leftover answer result.1 s ∧
    (result.2 = none → s.committed ≠ []) ∧ (result.2 ≠ none → result.1.fault ≠ none)

theorem called_stable (result : Power × Option Errno) :
    (linuxMachine generation leftover answer).Stable
      (Called generation leftover answer result) := by
  intro s next h hrely
  refine ⟨driver_idle_stable result.1 s next h.1 hrely, ?_, h.2.2⟩
  rw [hrely.committed]
  exact h.2.1

/-- The label `fault` -/
theorem fail_power_runs {log : List Record} (power : Power) (enabled : Bool) (error : Errno)
    (h : Quiet generation leftover answer none log s) :
    LinuxRuns generation leftover answer (failPower power enabled error)
      (Called generation leftover answer) s := by
  refine Machine.wp_perform (quiet_stable none log) h (fun _ _ => trivial) ?_
  intro t _ next ht hnext
  rw [show next = _ from hnext]
  have hrecorded : Quiet generation leftover answer (some error) log
      { t with fault := some error } :=
    ⟨{ ht.valid with }, ht.begun, ht.committed, rfl⟩
  refine Machine.wp_look (quiet_stable (some error) log) hrecorded (fun _ _ _ hnext => hnext)
    (fun _ _ => trivial) ?_
  intro u _ hu _
  refine Machine.wp_pure (called_stable _) ⟨⟨?_, fun hnone => nomatch hnone⟩,
    fun hnone => (nomatch hnone), fun _ => Option.some_ne_none error⟩
  rw [hu.committed]
  exact hu

/-- A call that was acknowledged returns 0. -/
theorem returned_runs {log : List Record} {enabled : Bool} (power : Power)
    (hlast : log.getLast? = some (command generation log.length enabled))
    (hfault : power.fault = none)
    (h : Ready generation leftover answer log s ∧ s.Done) :
    LinuxRuns generation leftover answer
      (do
        linuxDo (.returned (.ofNat log.length) enabled none)
        pure ({ power with sequence := .ofNat log.length, enabled := enabled }, none))
      (Called generation leftover answer) s := by
  have hstable : (linuxMachine generation leftover answer).Stable (fun u =>
      Ready generation leftover answer log u ∧ u.Done) :=
    fun u next hu hrely => ⟨ready_stable log u next hu.1 hrely, hrely.done hu.2⟩
  refine Machine.wp_look hstable h (fun _ _ _ hnext => hnext) ?_ ?_
  · rintro t ⟨hready, hdone⟩
    have hall := applied_eq hready.quiet.valid hdone.1
    refine ⟨hall, ?_⟩
    obtain ⟨_, record, hrecord⟩ := hdone
    have heq : record = command generation log.length enabled := by
      have hmap := congrArg List.getLast? hall
      rw [List.getLast?_map, hrecord, hready.quiet.committed, hlast] at hmap
      exact Option.some.inj hmap
    refine ⟨record, hrecord, ?_, ?_⟩
    · rw [heq]
      rfl
    · rw [heq]
      rfl
  · rintro t _ ⟨hready, hdone⟩ _
    have hcommitted := hready.quiet.committed
    have hlength : log.length < 2 ^ 32 := by
      have hbounded := hready.quiet.valid.bounded
      rwa [hready.quiet.begun] at hbounded
    refine Machine.wp_pure (called_stable _) ⟨⟨?_, fun _ => ?_⟩, fun _ => ?_,
      fun hsome => absurd rfl hsome⟩
    · show Quiet generation leftover answer power.fault t.committed t
      rw [hfault, hcommitted]
      exact hready.quiet
    · rw [hcommitted]
      refine ⟨hready, ?_⟩
      show (UInt32.ofNat log.length).toNat = log.length
      rw [UInt32.toNat_ofNat', Nat.mod_eq_of_lt hlength]
    · rw [hcommitted]
      intro hnil
      rw [hnil] at hlast
      cases hlast

/-- The sequence after the last one is the number of the next request. -/
theorem next_sequence {sequence : UInt32} {number : Nat} (h : sequence.toNat = number)
    (hmax : sequence ≠ maxWord) :
    sequence + 1 = .ofNat (number + 1) ∧ number + 1 < 2 ^ 32 := by
  have hne : sequence.toNat ≠ maxWord.toNat := fun heq => hmax (UInt32.toNat_inj.1 heq)
  have hlt := sequence.toNat_lt
  have hvalue : maxWord.toNat = 4294967295 := rfl
  have hbounded : number + 1 < 2 ^ 32 := by omega
  refine ⟨?_, hbounded⟩
  apply UInt32.toNat_inj.1
  rw [UInt32.toNat_add, UInt32.toNat_one, h, UInt32.toNat_ofNat']

/-- `set_power_locked` -/
theorem set_power_runs (hanswer : Unambiguous answer) {power : Power} {enabled : Bool}
    (h : DriverIdle generation leftover answer power s)
    (hfirst : power.fault = none → s.committed = [] → enabled = false) :
    LinuxRuns generation leftover answer (setPowerLocked generation power enabled)
      (Called generation leftover answer) s := by
  unfold setPowerLocked
  split
  · rename_i error hfault
    refine Machine.wp_look (driver_idle_stable power) h (fun _ _ _ hnext => hnext)
      (fun _ _ => trivial) ?_
    intro t _ ht _
    refine Machine.wp_pure (called_stable _) ⟨ht, fun hnone => (nomatch hnone), fun _ => ?_⟩
    rw [hfault]
    exact Option.some_ne_none error
  · rename_i hfault
    obtain ⟨hready, hsequence⟩ := h.ready hfault
    split
    · exact fail_power_runs power enabled .overflow hready.quiet
    · rename_i hmax
      obtain ⟨hnext, hbounded⟩ := next_sequence hsequence hmax
      refine Machine.wp_look (ready_stable s.committed) hready (fun _ _ _ hnext => hnext)
        (fun _ _ => trivial) ?_
      intro t turns ht _
      refine Machine.wp_bind (Machine.wp_mono
        (await_generation_runs (ready_stable s.committed) (turns + 1) ht) ?_)
      intro error t ht
      cases error with
      | some error => exact fail_power_runs power enabled error ht.quiet
      | none =>
          dsimp only
          rw [hnext]
          refine Machine.wp_bind (Machine.wp_mono
            (publish_request_runs hanswer hbounded (hfirst hfault) ht) ?_)
          intro _ t ht
          -- The request is the last one in the log now.
          have hlength : (s.committed ++
              [command generation (s.committed.length + 1) enabled]).length =
              s.committed.length + 1 := by
            rw [List.length_append, List.length_singleton]
          refine Machine.wp_look (quiet_stable none _) ht (fun _ _ _ hnext => hnext)
            (fun _ _ => trivial) ?_
          intro t turns ht _
          rw [← hlength]
          have hlast : (s.committed ++
              [command generation (s.committed.length + 1) enabled]).getLast? =
              some (command generation (s.committed ++
                [command generation (s.committed.length + 1) enabled]).length enabled) := by
            rw [List.getLast?_concat, hlength]
          refine Machine.wp_bind (Machine.wp_mono
            (await_completion_runs hlast (turns + 1) ht) ?_)
          intro error t ht
          cases error with
          | some error => exact fail_power_runs _ enabled error ht.1
          | none => exact returned_runs power hlast hfault (ht.2 rfl)

/-- The calls of the consumers after the probe. -/
theorem power_calls_runs (hanswer : Unambiguous answer) (calls : Nat) {power : Power}
    (h : DriverIdle generation leftover answer power s ∧
      (power.fault = none → s.committed ≠ [])) :
    LinuxRuns generation leftover answer (powerCalls generation power calls)
      (fun _ t => t.Valid generation leftover answer) s := by
  have hstable : ∀ power, (linuxMachine generation leftover answer).Stable (fun t =>
      DriverIdle generation leftover answer power t ∧
        (power.fault = none → t.committed ≠ [])) := by
    intro power t next ht hrely
    refine ⟨driver_idle_stable power t next ht.1 hrely, ?_⟩
    rw [hrely.committed]
    exact ht.2
  induction calls generalizing s power with
  | zero => exact Machine.wp_pure (fun t next ht hrely => hrely.valid ht) h.1.quiet.valid
  | succ calls ih =>
      refine Machine.wp_look (hstable power) h (fun _ _ _ hnext => hnext)
        (fun _ _ => trivial) ?_
      intro t enabled ht _
      refine Machine.wp_bind (Machine.wp_mono (set_power_runs hanswer ht.1
        fun hfault hnil => absurd hnil (ht.2 hfault)) ?_)
      rintro ⟨power, error⟩ t ⟨hidle, hsucceeded, hfailed⟩
      refine ih ⟨hidle, fun hfault => ?_⟩
      cases error with
      | none => exact hsucceeded rfl
      | some error => exact absurd hfault (hfailed (Option.some_ne_none error))

/-! ## The probe -/

/-- A probe may start: nothing is being copied. -/
def Probing (generation : UInt32) (leftover : Line) (answer : Words) (s : Shared) : Prop :=
  s.Valid generation leftover answer ∧ s.begun = s.committed

theorem probing_stable : (linuxMachine generation leftover answer).Stable
    (Probing generation leftover answer) := by
  intro s next h hrely
  exact ⟨hrely.valid h.1, by rw [hrely.begun, hrely.committed, h.2]⟩

/-- One copy of the request line, which only the driver writes. -/
theorem copy_request_runs (line : Line)
    (h : Probing generation leftover answer s ∧ s.request = line) :
    LinuxRuns generation leftover answer copyRequest (fun words t =>
      words = line.word ∧ Probing generation leftover answer t ∧ t.request = line) s := by
  have hstable : (linuxMachine generation leftover answer).Stable (fun t =>
      Probing generation leftover answer t ∧ t.request = line) :=
    fun t next ht hrely =>
      ⟨probing_stable t next ht.1 hrely, hrely.request.trans ht.2⟩
  have hload : ∀ index before, LinuxRuns generation leftover answer
      (linuxDo (.loadRequest index)) ((linuxMachine generation leftover answer).Seen
        (fun t => t.request.word index) before) before := by
    intro index before
    refine @Machine.wp_load _ LinuxOp.Ret _ _ (LinuxAllowed generation) (.loadRequest index)
      (fun t : Shared => t.request.word index) _ (fun _ => trivial) ?_
    intro t word next hnext
    exact hnext
  rw [copyRequest]
  refine Machine.wp_mono (@Machine.wp_collect _ _ _ _ _ _ _ _
    (fun t index => t.request.word index) _ hload (List.finRange 16) _ s) ?_
  rintro words t ⟨hafter, hwords, _⟩
  refine ⟨?_, hstable.reachable h hafter⟩
  funext index
  obtain ⟨moment, hmoment, _, hvalue⟩ := hwords index (List.mem_finRange index)
  rw [hvalue, ← (hstable.reachable h hmoment).2]

/-- A line that a request of the generation was copied to keeps a new driver from starting. -/
theorem busy_of_begun (h : Probing generation leftover answer s) (hbegun : s.begun ≠ []) :
    (Record.ofWords s.request.word).magic = requestMagic ∧
      (Record.ofWords s.request.word).generation = generation ∧
      (Record.ofWords s.request.word).sequence ≠ 0 := by
  obtain ⟨hvalid, hidle⟩ := h
  match hlast : s.committed.getLast? with
  | none =>
      rw [hidle] at hbegun
      exact absurd (List.getLast?_eq_none_iff.1 hlast) hbegun
  | some record =>
      obtain ⟨init, hinit⟩ := List.getLast?_eq_some_iff.1 hlast
      have hrequest := hvalid.idle hidle
      rw [hinit, previous_line_append] at hrequest
      obtain ⟨enabled, hrecord, _⟩ := last_command hvalid hlast
      have hnumber := (last_sequence hvalid hlast).1
      rw [hrequest, of_words_line]
      refine ⟨by rw [hrecord]; rfl, by rw [hrecord]; rfl, ?_⟩
      intro hzero
      rw [hzero, hinit, List.length_append, List.length_singleton] at hnumber
      have hvalue : (0 : UInt32).toNat = 0 := rfl
      omega

/-- A new driver before its first request. -/
theorem new_driver (h : Quiet generation leftover answer none [] s) :
    DriverIdle generation leftover answer .new s := by
  have happlied : s.applied.length = 0 := by
    have hle := (valid_lengths h.valid).1
    rw [h.committed, List.length_nil] at hle
    exact Nat.le_zero.1 hle
  have hready : Ready generation leftover answer [] s :=
    ⟨h, happlied, fun hnil => absurd rfl hnil⟩
  refine ⟨?_, fun _ => ⟨?_, ?_⟩⟩
  · rw [h.committed]
    exact h
  · rw [h.committed]
    exact hready
  · rw [h.committed]
    rfl

/-- What a probe leaves behind. -/
def Probed (generation : UInt32) (leftover : Line) (answer : Words)
    (result : Except Errno Power) (s : Shared) : Prop :=
  match result with
  | .error _ => Probing generation leftover answer s
  | .ok power => DriverIdle generation leftover answer power s ∧ s.committed ≠ []

theorem probed_stable (result : Except Errno Power) :
    (linuxMachine generation leftover answer).Stable
      (Probed generation leftover answer result) := by
  intro s next h hrely
  cases result with
  | error error => exact probing_stable s next h hrely
  | ok power =>
      refine ⟨driver_idle_stable power s next h.1 hrely, ?_⟩
      rw [hrely.committed]
      exact h.2

/-- `power_probe` -/
theorem power_probe_runs (hanswer : Unambiguous answer)
    (h : Probing generation leftover answer s) :
    LinuxRuns generation leftover answer (powerProbe generation)
      (Probed generation leftover answer) s := by
  refine Machine.wp_look probing_stable h (fun _ _ _ hnext => hnext) (fun _ _ => trivial) ?_
  intro t error ht _
  cases error with
  | some error => exact Machine.wp_pure (probed_stable _) ht
  | none =>
      refine Machine.wp_bind (Machine.wp_mono (copy_request_runs t.request ⟨ht, rfl⟩) ?_)
      rintro words u ⟨rfl, hu, hline⟩
      dsimp only
      split
      · exact Machine.wp_pure (probed_stable _) hu
      · rename_i hfree
        have hstable : (linuxMachine generation leftover answer).Stable (fun v =>
            Probing generation leftover answer v ∧ v.begun = []) :=
          fun v next hv hrely => ⟨probing_stable v next hv.1 hrely, hrely.begun.trans hv.2⟩
        have hnone : u.begun = [] := by
          by_contra hsome
          rw [← hline] at hfree
          exact hfree (busy_of_begun hu hsome)
        refine Machine.wp_perform hstable ⟨hu, hnone⟩ (fun v hv => hv.2) ?_
        rintro v _ next ⟨⟨hvalid, hidle⟩, hbegun⟩ hnext
        rw [show next = _ from hnext]
        have hdriver : DriverIdle generation leftover answer .new { v with fault := none } :=
          new_driver ⟨{ hvalid with }, hbegun, by rw [← hidle]; exact hbegun, rfl⟩
        refine Machine.wp_bind (Machine.wp_mono
          (set_power_runs hanswer hdriver fun _ _ => rfl) ?_)
        rintro ⟨power, error⟩ w ⟨hw, hsucceeded, _⟩
        cases error with
        | some error =>
            refine Machine.wp_pure (probed_stable _) ⟨hw.quiet.valid, hw.quiet.begun⟩
        | none => exact Machine.wp_pure (probed_stable _) ⟨hw, hsucceeded rfl⟩

/-- Any number of probes and calls. -/
theorem linux_main_runs (hanswer : Unambiguous answer) (calls probes : Nat)
    (h : Probing generation leftover answer s) :
    LinuxRuns generation leftover answer (linuxMain generation calls probes)
      (fun _ t => t.Valid generation leftover answer) s := by
  induction probes generalizing s with
  | zero => exact Machine.wp_pure (fun t next ht hrely => hrely.valid ht) h.1
  | succ probes ih =>
      refine Machine.wp_bind (Machine.wp_mono (power_probe_runs hanswer h) ?_)
      intro result t ht
      cases result with
      | error error => exact ih ht
      | ok power => exact power_calls_runs hanswer calls ⟨ht.1, fun _ => ht.2⟩

end

end NanoKvm.WifiPower
