import NanoKvm.Exec.Ledger
import NanoKvm.Media.VpssPower

/-!
# Buffers of the VPSS driver

What the driver has taken out of the queues of the mem2mem core it gives back once: at once when a
job is refused or a queue stops, else when the handler finishes the job. `buffers_settled` follows
the ledger of a whole run.
-/

namespace NanoKvm.VpssSession

open Exec Vpss

section

variable {ι : Type}

/-! ## The ledger -/

/-- Removed buffers are held until they are done. -/
def custodyLedger : Ledger (Custody ι) (Buffer ι) where
  gains
    | .remove buffer => some buffer
    | .done .. => none
  returns
    | .remove _ => none
    | .done buffer _ => some buffer

/-- The buffers of the job in the hardware. -/
def held : Option (Job ι) → Multiset (Buffer ι)
  | none => 0
  | some job => {job.source} + {job.destination}

variable [DecidableEq ι] {entries : List (Custody ι)}

/-- The entries are settled, and the buffers are held in the end. -/
def Settles (entries : List (Custody ι)) (buffers : Multiset (Buffer ι)) : Prop :=
  custodyLedger.settle entries 0 = some buffers

variable {buffers : Multiset (Buffer ι)}

theorem settles_remove (h : Settles entries buffers) (buffer : Buffer ι) :
    Settles (entries ++ [.remove buffer]) (buffers + {buffer}) := by
  unfold Settles at *
  rw [Ledger.settle_concat, h, Option.bind_some]
  exact Ledger.enter_gains rfl rfl buffers

theorem settles_done {buffer : Buffer ι} (h : Settles entries (buffers + {buffer}))
    (state : BufState) : Settles (entries ++ [.done buffer state]) buffers := by
  unfold Settles at *
  rw [Ledger.settle_concat, h, Option.bind_some, Ledger.enter_returns rfl rfl,
    if_pos (Multiset.mem_add.mpr (.inr (Multiset.mem_singleton_self buffer))), add_comm,
    Multiset.singleton_add, Multiset.erase_cons_head]

/-- The loop of `vpss_stop_streaming` keeps no buffer. -/
theorem settles_drained (h : Settles entries buffers) (ctx : ι) (queue : Queue)
    (ready : List Nat) : Settles (entries ++ drained ctx queue ready) buffers := by
  induction ready generalizing entries with
  | nil =>
      rw [drained, List.flatMap_nil, List.append_nil]
      exact h
  | cons b ready ih =>
      -- each turn of the loop takes a buffer and gives it back
      have hround := settles_done (settles_remove h ⟨ctx, queue, b⟩) .error
      have hrest := ih hround
      rw [List.append_assoc, List.append_assoc] at hrest
      exact hrest

/-- A job that is taken. -/
theorem settles_take (h : Settles entries 0) (job : Job ι) :
    Settles (entries ++ [.remove job.source, .remove job.destination]) (held (some job)) := by
  have hboth := settles_remove (settles_remove h job.source) job.destination
  rw [List.append_assoc, zero_add] at hboth
  exact hboth

/-- A job that is finished. -/
theorem settles_finish {job : Job ι} (h : Settles entries (held (some job))) (state : BufState) :
    Settles (entries ++ [.done job.source state, .done job.destination state]) 0 := by
  have hsource : Settles (entries ++ [.done job.source state]) (0 + {job.destination}) := by
    refine settles_done ?_ state
    rw [zero_add, add_comm]
    exact h
  have hboth := settles_done hsource state
  rw [List.append_assoc] at hboth
  exact hboth

/-! ## Steps -/

variable {s : State ι}

theorem settles_check (hjobs : JobInv s.jobs) (h : Settles s.custody (held s.curr)) {ctx : ι}
    (hrunner : s.runner = some (.check ctx)) (bufs : Option (Nat × Nat)) :
    Settles (s.checkJob ctx bufs).custody (held (s.checkJob ctx bufs).curr) := by
  have hcurr : s.curr = none := hjobs.taken _ hrunner
  have hgiveUp : ∀ job : Job ι, Settles (s.giveUp job).custody (held (s.giveUp job).curr) := by
    intro job
    rw [hcurr] at h
    have hround := settles_finish (settles_take h job) .error
    rw [List.append_assoc] at hround
    show Settles _ (held s.curr)
    rw [hcurr]
    exact hround
  unfold State.checkJob
  split
  · exact h
  · split
    · exact hgiveUp _
    · split
      · exact hgiveUp _
      · exact h

theorem settles_job_finish (h : Settles s.custody (held s.curr)) (state : BufState) :
    Settles (s.vpssJobFinish state).custody (held (s.vpssJobFinish state).curr) := by
  unfold State.vpssJobFinish
  split
  · exact h
  · rename_i job hcurr
    rw [hcurr] at h
    exact settles_finish h state

variable {maps : ColourMaps} {addr : ι → Queue → Nat → Nat}

/-- A step keeps the ledger settled. -/
theorem settles_step (hjobs : JobInv s.jobs) (h : Settles s.custody (held s.curr))
    {action : Action ι} {s' : State ι} (hstep : Step maps addr s action s') :
    Settles s'.custody (held s'.curr) := by
  cases hstep with
  | startStreaming =>
      rename_i ctx queue
      obtain ⟨_, _, _, _, hframe, _⟩ := start_streaming_frame s ctx queue
      rw [hframe]
      exact h
  | stopStreaming =>
      rename_i ctx queue ready
      obtain ⟨_, _, hframe⟩ := stop_streaming_frame s ctx queue ready
      rw [hframe]
      exact settles_drained h ctx queue ready
  | bufPrepare =>
      rename_i ctx queue b size
      obtain ⟨_, hframe⟩ := buf_prepare_frame s ctx queue b size
      rw [hframe]
      exact h
  | checkJob hrunner => exact settles_check hjobs h hrunner _
  | takeJob hrunner =>
      rename_i ctx src dst
      have hcurr : s.curr = none := hjobs.taken _ hrunner
      rw [hcurr] at h
      exact settles_take h ⟨ctx, src, dst⟩
  | irqFinish hfinish => exact settles_job_finish h _
  | opens | release | sFmt | sSelection | allocate | freeBufs | started | startFailed | put | resume
  | unmask | hwInit | suspend | synchronized | gateClocks | deviceRun | jobInput | jobScaler
  | jobOutput | jobStart | irqEnter | irqRead => exact h

/-! ## Runs -/

variable {actions : List (Action ι)}

/-- In every run the driver gives back only what it holds, so nothing twice, and what it holds are
the two buffers of the job in the hardware, whose queues both stream. -/
theorem buffers_settled (h : (driver maps addr).Run Surroundings actions s) :
    custodyLedger.settle s.custody 0 = some (held s.curr) ∧
    held s.curr + custodyLedger.returned s.custody = custodyLedger.gained s.custody ∧
    ∀ buffer ∈ held s.curr, buffer.ctx ∈ s.streams buffer.queue := by
  have hjobs := run_jobs h
  have hsettles : Settles s.custody (held s.curr) := by
    refine h.invariant (fun s => Settles s.custody (held s.curr)) ?_ ?_
    · rintro _ ⟨regs, coef, fabric, rfl⟩
      rfl
    · exact fun _ _ _ _ hrun ih _ hstep => settles_step (run_jobs hrun) ih hstep
  refine ⟨hsettles, (Ledger.settle_total hsettles).trans (zero_add _), fun buffer hbuffer => ?_⟩
  cases hcurr : s.curr with
  | none =>
      rw [hcurr] at hbuffer
      exact absurd hbuffer (Multiset.notMem_zero buffer)
  | some job =>
      rw [hcurr] at hbuffer
      have hstreams := hjobs.streams job.ctx (hjobs.curr job hcurr)
      rcases Multiset.mem_add.mp hbuffer with hsource | hdestination
      · rw [Multiset.mem_singleton.mp hsource]
        exact hstreams .output
      · rw [Multiset.mem_singleton.mp hdestination]
        exact hstreams .capture

end

/-- The first job has given its buffers back, the second one holds its own. -/
theorem buffers_settled_second :
    ∃ s, (driver someMaps bufferAddr).Run Surroundings (firstFrame ++ secondFrame) s ∧
      custodyLedger.settle s.custody 0 = some {⟨true, .output, 0⟩, ⟨true, .capture, 3⟩} := by
  obtain ⟨s, hrun, hcurr, _⟩ := two_frames
  have hrun := hrun.mono fun _ _ hassumed => hassumed.1
  have hsettled := (buffers_settled hrun).1
  rw [hcurr] at hsettled
  exact ⟨s, hrun, hsettled⟩

end NanoKvm.VpssSession
