import NanoKvm.Exec.Parallel
import NanoKvm.Lcd.DriverSide
import NanoKvm.Lcd.ServiceSide

/-!
# The frame handoff

The driver and the service side by side, from ownership lines that an earlier generation
has left behind. The service accepts exactly the requests that Linux has committed, one
after another; the slot it holds does not change; each request is streamed at most once.

A call of `lcd_scanout` reports success only for a frame that was streamed, provided that
no leftover completion line has the commit 1 and the result 0. `complete` writes the new
record over such a line without revoking its commit first, so for a moment Linux can see
the new generation and sequence with the old result.
-/

namespace NanoKvm.Lcd

open Exec

/-- One operation of either side. -/
abbrev HandoffStep :
    Pair LinuxOp ServiceOp LinuxOp.Ret ServiceOp.Ret Shared Unit Unit →
    Pair LinuxOp ServiceOp LinuxOp.Ret ServiceOp.Ret Shared Unit Unit → Prop :=
  ParallelStep Shared.LinuxPerforms Shared.ServicePerforms

/-- The driver after its probe. -/
def LcdFrames.new : LcdFrames where
  fault := none
  sequence _ := 0
  completed _ := 0
  nextSlot := 0

/-- The records carry no commit of the generation, and nothing has happened yet. -/
structure Fresh (generation : UInt32) (s : Shared) : Prop where
  request : ∀ slot, ¬ (Record.ofLine (s.request slot)).Committed generation
  completion : ∀ slot, ¬ (Record.ofLine (s.completion slot)).Committed generation
  committed : s.committed = []
  accepted : s.accepted = []
  scanned : s.scanned = []
  published : s.published = []

section

variable {generation : UInt32} {s : Shared}

theorem fresh_not_held (h : Fresh generation s) (slot : Slot) : ¬ s.Held slot := by
  intro hheld
  have hlt := hheld.1
  rw [h.accepted, h.published] at hlt
  exact absurd hlt (Nat.lt_irrefl _)

theorem fresh_valid (h : Fresh generation s) : s.Valid generation s.completion where
  accepted := by
    rw [h.accepted]
    exact List.nil_prefix
  scanned := by
    rw [h.scanned]
    exact List.nil_prefix
  outstanding := by
    rw [h.committed]
    exact Nat.zero_le _
  published := by
    rw [h.published]
    exact Nat.zero_le _
  unpublished := by
    rw [h.accepted]
    exact Nat.zero_le _
  sequence request hrequest := by
    rw [h.committed] at hrequest
    exact absurd hrequest List.not_mem_nil
  request slot hcommitted := absurd hcommitted (h.request slot)
  shows _ request hlast := by
    rw [h.committed] at hlast
    exact nomatch hlast
  unfinished _ request hlast := by
    rw [h.committed] at hlast
    exact nomatch hlast
  next _ request _ := fresh_not_held h request.slot
  settled slot _ := by
    unfold Shared.Settled
    rw [h.accepted]
    rfl

theorem fresh_driver (h : Fresh generation s) :
    DriverIdle generation s.completion LcdFrames.new s := by
  refine ⟨fresh_valid h, fun _ => ?_, fun _ => ?_⟩
  · rw [h.scanned, h.committed]
    rfl
  · rw [h.committed]
    exact ⟨fun _ => rfl, fun _ => rfl, fun _ hlast => nomatch hlast⟩

theorem fresh_service (h : Fresh generation s) :
    ServiceIdle generation s.completion Service.new s := by
  refine ⟨fresh_valid h, .vacant ?_⟩
  rw [h.accepted, h.published]
  exact ⟨rfl, rfl, fun _ => rfl, fun _ => ⟨rfl, rfl⟩, fun _ hengine => nomatch hengine⟩

end

/-- The invariant holds in every state of a run, and so do the preconditions of what both sides
still have to do. -/
theorem handoff_run {generation : UInt32} {frames steps : Nat} {start s : Shared}
    {linux : LinuxCode Unit} {service : ServiceCode Unit} (hfresh : Fresh generation start)
    (hleftover : Unambiguous start.completion)
    (hrun : Relation.ReflTransGen HandoffStep
      (linuxMain generation .new frames, serviceMain generation .new steps, start)
      (linux, service, s)) :
    s.Valid generation start.completion ∧
      LinuxRuns generation start.completion linux
        (fun _ t => t.Valid generation start.completion) s ∧
      ServiceRuns generation start.completion service
        (fun _ t => t.Valid generation start.completion) s := by
  have hlinux := linux_main_runs hleftover frames LcdFrames.new (fresh_driver hfresh)
  have hservice := service_main_runs steps Service.new (fresh_service hfresh)
  refine parallel_run (linuxMachine generation start.completion)
    (serviceMachine generation start.completion) ?_ ?_ (fresh_valid hfresh) hlinux hservice hrun
  · intro state operation result next hallowed hperform
    exact ⟨linux_rely hallowed hperform, fun hvalid => valid_linux hvalid hallowed hperform⟩
  · intro state operation result next hallowed hperform
    exact ⟨service_rely hallowed hperform, fun hvalid => valid_service hvalid hallowed hperform⟩

/-- An allowed operation of the driver leaves the slots alone that the service holds. -/
theorem linux_keeps_held {s next : Shared} {operation : LinuxOp} {result : operation.Ret}
    (hallowed : LinuxAllowed s operation) (hnext : s.LinuxPerforms operation result next)
    {slot : Slot} (hheld : s.Held slot) :
    next.request slot = s.request slot ∧ next.pixels slot = s.pixels slot := by
  have hother : ∀ {other}, s.Idle other → slot ≠ other :=
    fun hidle heq => hidle.2 (heq ▸ hheld)
  cases operation with
  | writeRequest other index word =>
      rw [show next = _ from hnext]
      simp [Shared.writeRequest, hother hallowed.1]
  | writePixel other index pixel =>
      rw [show next = _ from hnext]
      simp [Shared.writePixel, hother hallowed]
  | commit request =>
      rw [show next = _ from hnext]
      simp [Shared.commit, hother hallowed.1]
  | readCompletion | arrange =>
      rw [hnext.2]
      exact ⟨rfl, rfl⟩
  | nextFrame | lock | turns | checkGeneration | beginCpuAccess | returned =>
      rw [show next = s from hnext]
      exact ⟨rfl, rfl⟩

/-- The service never writes requests or pixels. -/
theorem service_keeps {s next : Shared} {operation : ServiceOp} {result : operation.Ret}
    (hnext : s.ServicePerforms operation result next) :
    next.request = s.request ∧ next.pixels = s.pixels := by
  cases operation with
  | writeCompletion | publish | accept | stream =>
      rw [show next = _ from hnext]
      exact ⟨rfl, rfl⟩
  | readRequest | arrange =>
      rw [hnext.2]
      exact ⟨rfl, rfl⟩
  | authorized | newPanel | advance =>
      rw [show next = s from hnext]
      exact ⟨rfl, rfl⟩

/-- In every interleaving of the driver and the service: the service accepts the one committed
request that it has not accepted before, as it was committed; the request and the pixels of a slot
that it holds do not change; what was streamed are the committed requests, in their order, each
once; and a call that succeeds has had its frame streamed. -/
theorem frame_handoff {generation : UInt32} {frames steps : Nat} {start s : Shared}
    {linux : LinuxCode Unit} {service : ServiceCode Unit} (hfresh : Fresh generation start)
    (hleftover : Unambiguous start.completion)
    (hrun : Relation.ReflTransGen HandoffStep
      (linuxMain generation .new frames, serviceMain generation .new steps, start)
      (linux, service, s)) :
    (∀ slot record rest, service = .op (.accept slot record) rest →
      ∃ request, s.committed = s.accepted ++ [request] ∧ request.slot = slot ∧
        request.record = record) ∧
    (∀ next, HandoffStep (linux, service, s) next → ∀ slot, s.Held slot →
      next.2.2.request slot = s.request slot ∧ next.2.2.pixels slot = s.pixels slot) ∧
    (s.accepted <+: s.committed ∧ s.scanned <+: s.committed.map Request.image) ∧
    (∀ frame rest, linux = .op (.returned frame none) rest →
      ∃ request, s.committed.getLast? = some request ∧ request.Carries frame ∧
        s.scanned = s.committed.map Request.image) := by
  obtain ⟨hvalid, hlinux, hservice⟩ := handoff_run hfresh hleftover hrun
  refine ⟨?_, ?_, ⟨hvalid.accepted, ?_⟩, ?_⟩
  · intro slot record rest hnext
    subst hnext
    obtain ⟨_, hcommitted⟩ := Machine.wp_guard hservice
    exact ⟨_, hcommitted, rfl, rfl⟩
  · intro next hstep slot hheld
    cases hstep with
    | left hperform => exact linux_keeps_held (Machine.wp_guard hlinux) hperform hheld
    | right hperform =>
        obtain ⟨hrequest, hpixels⟩ := service_keeps hperform
        exact ⟨congrFun hrequest slot, congrFun hpixels slot⟩
  · exact hvalid.scanned.trans (hvalid.accepted.map Request.image)
  · intro frame rest hnext
    subst hnext
    exact Machine.wp_guard hlinux

/-- A frame of one pixel. -/
def onePixel : Frame where
  x := 0
  y := 0
  width := 1
  height := 1
  pixels _ := 0

/-- Memory that no generation has used. -/
def clearedMemory : Shared where
  request _ _ := 0
  completion _ _ := 0
  pixels _ _ := 0
  committed := []
  accepted := []
  scanned := []
  published := []

theorem cleared_memory_fresh : Fresh 7 clearedMemory where
  request _ hcommitted := absurd (show (0 : UInt32) = 7 from hcommitted.1) (by decide)
  completion _ hcommitted := absurd (show (0 : UInt32) = 7 from hcommitted.1) (by decide)
  committed := rfl
  accepted := rfl
  scanned := rfl
  published := rfl

theorem cleared_memory_unambiguous : Unambiguous clearedMemory.completion :=
  fun _ hleftover => absurd (show (0 : UInt32) = 1 from hleftover.1) (by decide)

/-- The service is about to accept the first frame. -/
theorem frame_handoff_accept :
    ∃ linux rest s, Relation.ReflTransGen HandoffStep
        (linuxMain 7 .new 1, serviceMain 7 .new 1, clearedMemory)
        (linux, .op (.accept 0 (frameRequest 7 1 0 onePixel).record) rest, s) ∧
      ∃ request, s.committed = s.accepted ++ [request] ∧
        request.record = (frameRequest 7 1 0 onePixel).record := by
  have hrun : ∃ linux rest s, Relation.ReflTransGen HandoffStep
      (linuxMain 7 .new 1, serviceMain 7 .new 1, clearedMemory)
      (linux, .op (.accept 0 (frameRequest 7 1 0 onePixel).record) rest, s) := by
    refine ⟨?linux, ?rest, ?state, ?run⟩
    case run =>
      refine run_left onePixel rfl ?_
      refine run_left true rfl ?_
      refine run_left (1 : Nat) rfl ?_
      refine run_left GenerationCheck.current rfl ?_
      refine run_left (none : Option Errno) rfl ?_
      refine run_left () rfl ?_
      refine run_left (frameCells onePixel) ⟨.refl _, rfl⟩ ?_
      iterate 18 refine run_left () rfl ?_
      refine run_right true rfl ?_
      refine run_right true rfl ?_
      refine run_right Outcome.finished rfl ?_
      refine run_right (frameRequest 7 1 0 onePixel).record.toLine ⟨by decide, rfl⟩ ?_
      refine run_right (frameRequest 7 1 0 onePixel).record.toLine ⟨by decide, rfl⟩ ?_
      exact .refl
  obtain ⟨linux, rest, s, hrun⟩ := hrun
  obtain ⟨haccept, _⟩ :=
    frame_handoff cleared_memory_fresh cleared_memory_unambiguous hrun
  obtain ⟨request, hcommitted, _, hrecord⟩ := haccept 0 _ rest rfl
  exact ⟨linux, rest, s, hrun, request, hcommitted, hrecord⟩

/-- The memory after an earlier generation has shown one frame in each slot. -/
def earlierFrames : Shared where
  request slot := (frameRequest 6 1 slot onePixel).record.toLine
  completion _ := { completionRecord 6 1 0 with commit := 1 }.toLine
  pixels _ _ := 0
  committed := []
  accepted := []
  scanned := []
  published := []

theorem earlier_frames_fresh : Fresh 7 earlierFrames where
  request _ hcommitted := absurd (show (6 : UInt32) = 7 from hcommitted.1) (by decide)
  completion _ hcommitted := absurd (show (6 : UInt32) = 7 from hcommitted.1) (by decide)
  committed := rfl
  accepted := rfl
  scanned := rfl
  published := rfl

/-- The panel fails on the first frame of a generation. The service has written only the generation
of the error completion over the completion of the earlier generation, which has the same
sequence and commit, and the call succeeds although nothing was streamed. -/
theorem failed_frame_succeeds :
    Fresh 7 earlierFrames ∧ ∃ rest service s, Relation.ReflTransGen HandoffStep
        (linuxMain 7 .new 1, serviceMain 7 .new 2, earlierFrames)
        (.op (.returned onePixel none) rest, service, s) ∧
      s.committed.length = 1 ∧ s.scanned = [] := by
  refine ⟨earlier_frames_fresh, ?rest, ?service, ?state, ?run, ?committed, ?scanned⟩
  case run =>
    -- Linux commits its first frame.
    refine run_left onePixel rfl ?_
    refine run_left true rfl ?_
    refine run_left (1 : Nat) rfl ?_
    refine run_left GenerationCheck.current rfl ?_
    refine run_left (none : Option Errno) rfl ?_
    refine run_left () rfl ?_
    refine run_left (frameCells onePixel) ⟨.refl _, rfl⟩ ?_
    iterate 18 refine run_left () rfl ?_
    refine run_left (1 : Nat) rfl ?_
    -- The service accepts it in its first step.
    refine run_right true rfl ?_
    refine run_right true rfl ?_
    refine run_right Outcome.finished rfl ?_
    refine run_right (frameRequest 7 1 0 onePixel).record.toLine ⟨by decide, rfl⟩ ?_
    refine run_right (frameRequest 7 1 0 onePixel).record.toLine ⟨by decide, rfl⟩ ?_
    refine run_right () rfl ?_
    -- In its second step the panel fails, and the first word of the completion is written.
    refine run_right true rfl ?_
    refine run_right Outcome.failed rfl ?_
    refine run_right ([1, 0, 2, 3, 4, 5, 6, 7, 8, 9, 10, 11, 12, 13, 14, 15] : List (Fin 16))
      ⟨by decide, rfl⟩ ?_
    refine run_right () rfl ?_
    -- Linux polls.
    refine run_left GenerationCheck.current rfl ?_
    refine run_left { completionRecord 7 1 0 with commit := 1 }.toLine ⟨by decide, rfl⟩ ?_
    refine run_left { completionRecord 7 1 0 with commit := 1 }.toLine ⟨by decide, rfl⟩ ?_
    exact .refl
  case committed => rfl
  case scanned => rfl

end NanoKvm.Lcd
