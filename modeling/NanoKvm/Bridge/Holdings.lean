import NanoKvm.Bridge.Live
import NanoKvm.Exec.Ledger
import Mathlib.Tactic.Abel

/-!
# What the live bridge holds

The descriptors and mappings of `live_bridge_vpss`, read off its calls and off its variables.
`wp_set_up`: wherever the set-up ends, what it holds is what `out` will close and remove, but for
the exported capture buffers and for the descriptor 0 of array entries that were not reached.
-/

namespace NanoKvm.Bridge

open Exec

/-- A call with what it returned. -/
abbrev LiveEvent : Type := Event Call Call.Ret

/-- The descriptor that a call returned. -/
def obtained : LiveEvent → Option Nat
  | ⟨.openDevice _, fd⟩ => fd
  | ⟨.openOutput _, fd⟩ => fd
  | ⟨.openHeap _, fd⟩ => fd
  | ⟨.heapAlloc _, fd⟩ => fd
  | ⟨.expbuf _, fd⟩ => fd
  | ⟨.socket, fd⟩ => fd
  | _ => none

/-- The descriptor that was closed. -/
def closed : LiveEvent → Option Nat
  | ⟨.close fd, _⟩ => some fd
  | _ => none

/-- The mapping that a call made. -/
def mapped : LiveEvent → Option (Nat × Nat)
  | ⟨.mmap _ length, address⟩ => address.map fun address => (address.1, length)
  | _ => none

/-- The mapping that was removed. -/
def unmapped : LiveEvent → Option (Nat × Nat)
  | ⟨.munmap address length, _⟩ => some (address, length)
  | _ => none

/-- The descriptors of a run. -/
def descriptors : Ledger LiveEvent Nat := ⟨obtained, closed⟩

/-- The mappings of a run. -/
def mappings : Ledger LiveEvent (Nat × Nat) := ⟨mapped, unmapped⟩

/-- The entries of a buffer array that was allocated. -/
def entriesOf : LiveEvent → Nat
  | ⟨.calloc .mappedBufs count, true⟩ => count.toNat
  | _ => 0

/-- The entry that a call filled in. -/
def filledBy : LiveEvent → Nat
  | ⟨.querybuf _ _ _, some _⟩ => 1
  | ⟨.heapAlloc _, some _⟩ => 1
  | _ => 0

/-- No capture buffer was exported. -/
def NoneExported (events : List LiveEvent) : Prop :=
  ∀ index fd, (⟨.expbuf index, some fd⟩ : LiveEvent) ∉ events

/-! ## What is held -/

/-- The descriptor that the call returned and `out` does not close. -/
def leaked : LiveEvent → Option Nat
  | ⟨.expbuf _, fd⟩ => fd
  | ⟨.openOutput _, fd⟩ => fd.filter (· = stdoutFileno)
  | _ => none

/-- The descriptors that `unmap_queue` closes. -/
def MappedQueue.closing (queue : MappedQueue) : Multiset Nat :=
  ↑(((queue.bufs.getD []).take queue.count.toNat).filterMap MappedBuf.dmabufFd)

/-- The mapping of an entry. -/
def MappedBuf.mapping (buf : MappedBuf) : Option (Nat × Nat) :=
  buf.addr.bind fun address => if buf.length = 0 then none else some (address, buf.length)

/-- The mappings that `unmap_queue` removes. -/
def MappedQueue.unmapping (queue : MappedQueue) : Multiset (Nat × Nat) :=
  ↑(((queue.bufs.getD []).take queue.count.toNat).filterMap MappedBuf.mapping)

/-- The descriptor that a variable holds. -/
def heldBy (fd : Option Nat) : Multiset Nat := ↑fd.toList

/-- The descriptors outside of the queues that `out` closes. -/
def Live.plain (live : Live) : Multiset Nat :=
  heldBy live.rtsp.fd + heldBy live.heapFd + heldBy live.scalerFd + heldBy live.encoderFd +
    heldBy live.captureFd + heldBy (live.outputFd.filter (· ≠ stdoutFileno))

/-- The descriptors that `out` closes. -/
def Live.closing (live : Live) : Multiset Nat :=
  live.encoderCap.closing + live.mid.closing + live.captureQueue.closing + live.plain

/-- The mappings that `out` removes. -/
def Live.unmapping (live : Live) : Multiset (Nat × Nat) :=
  live.encoderCap.unmapping + live.mid.unmapping + live.captureQueue.unmapping

/-- What is held is what `out` closes, but for the entries that are not filled in and for what it
leaves. -/
structure Balanced (unset : Nat) (live : Live) (history : List LiveEvent) : Prop where
  descriptors : ∃ held, descriptors.settle history 0 = some held ∧
    held + .replicate unset 0 = live.closing + ↑(history.filterMap leaked)
  mappings : mappings.settle history 0 = some live.unmapping
  entries : (history.map entriesOf).sum = (history.map filledBy).sum + unset
  unexported : live.capFds = none → NoneExported history
  exporting : live.capFds ≠ none → live.captureQueue.bufs ≠ none ∧ unset = 0

/-- What holds at `out`. -/
def BalancedOut (live : Live) (history : List LiveEvent) : Prop :=
  ∃ unset, Balanced unset live history

/-- An event that moves neither a descriptor nor a mapping. -/
structure Unmoved (event : LiveEvent) : Prop where
  obtained : obtained event = none
  closed : closed event = none
  mapped : mapped event = none
  unmapped : unmapped event = none
  entriesOf : entriesOf event = 0
  filledBy : filledBy event = 0
  leaked : leaked event = none

theorem NoneExported.concat {history : List LiveEvent} {event : LiveEvent}
    (h : NoneExported history) (hevent : ∀ index fd, event ≠ ⟨.expbuf index, some fd⟩) :
    NoneExported (history ++ [event]) := by
  intro index fd hmem
  rcases List.mem_append.mp hmem with hmem | hmem
  · exact h index fd hmem
  · exact hevent index fd (List.mem_singleton.mp hmem).symm

namespace Balanced

variable {unset next : Nat} {live after : Live} {history : List LiveEvent} {event : LiveEvent}

/-- A call that closes nothing, and what is stored after it. -/
theorem call (h : Balanced unset live history) (hclosed : closed event = none)
    (hunmapped : unmapped event = none)
    (hdescriptors : after.closing + ↑(Bridge.leaked event).toList + .replicate unset 0 =
      live.closing + ↑(obtained event).toList + .replicate next 0)
    (hmappings : after.unmapping = live.unmapping + ↑(mapped event).toList)
    (hentries : entriesOf event + unset = filledBy event + next)
    (hunexported : after.capFds = none → NoneExported (history ++ [event]))
    (hexporting : after.capFds ≠ none → after.captureQueue.bufs ≠ none ∧ next = 0) :
    Balanced next after (history ++ [event]) where
  descriptors := by
    obtain ⟨held, hsettle, heq⟩ := h.descriptors
    refine ⟨held + ↑(obtained event).toList, ?_, ?_⟩
    · rw [Ledger.settle_concat, hsettle, Option.bind_some, Ledger.enter]
      simp only [Bridge.descriptors, hclosed]
    · rw [List.filterMap_append]
      ext fd
      have hcount := congrArg (Multiset.count fd) hdescriptors
      have hheld := congrArg (Multiset.count fd) heq
      have hone : (↑([event].filterMap Bridge.leaked) : Multiset Nat) =
          ↑(Bridge.leaked event).toList := by
        cases hleaked : Bridge.leaked event <;> simp [hleaked]
      rw [← Multiset.coe_add, hone]
      simp only [Multiset.count_add] at hcount hheld ⊢
      omega
  mappings := by
    rw [Ledger.settle_concat, h.mappings, Option.bind_some, Ledger.enter]
    simp only [Bridge.mappings, hunmapped, hmappings]
  entries := by
    simp only [List.map_append, List.sum_append, List.map_singleton, List.sum_singleton, h.entries]
    omega
  unexported := hunexported
  exporting := hexporting

/-- A call that moves nothing. -/
theorem unmoved (h : Balanced unset live history) (event : LiveEvent) (hevent : Unmoved event) :
    Balanced unset live (history ++ [event]) := by
  refine h.call hevent.closed hevent.unmapped ?_ ?_ ?_ ?_ h.exporting
  · rw [hevent.leaked, hevent.obtained]
  · rw [hevent.mapped]
    simp
  · rw [hevent.entriesOf, hevent.filledBy]
  · refine fun hcap => (h.unexported hcap).concat fun index fd heq => ?_
    have := hevent.obtained
    rw [heq] at this
    cases this

/-- A change of what `out` does not look at. -/
theorem change (h : Balanced unset live history) (hclosing : after.closing = live.closing)
    (hunmapping : after.unmapping = live.unmapping)
    (hcap : after.capFds = live.capFds)
    (hcapture : live.captureQueue.bufs ≠ none → after.captureQueue.bufs ≠ none) :
    Balanced unset after history where
  descriptors := by
    rw [hclosing]
    exact h.descriptors
  mappings := by
    rw [hunmapping]
    exact h.mappings
  entries := h.entries
  unexported := fun hnone => h.unexported (hcap ▸ hnone)
  exporting := fun hsome => (h.exporting (hcap ▸ hsome)).imp_left hcapture

end Balanced

/-! ## The steps of the set-up -/

section

variable {unset : Nat} {live : Live} {history : List LiveEvent}

theorem balanced_start : Balanced 0 .start [] where
  descriptors := ⟨0, rfl, rfl⟩
  mappings := rfl
  entries := rfl
  unexported := fun _ _ _ hmem => by cases hmem
  exporting := fun hsome => absurd rfl hsome

theorem unmoved_report (message : String) : Unmoved ⟨.report message, ()⟩ := by
  constructor <;> rfl

theorem unmoved_die_step (initStep : String) : Unmoved ⟨.dieStep initStep, ()⟩ := by
  constructor <;> rfl

variable {α : Type} {post : α → Live → List LiveEvent → Prop}

theorem BalancedOut.unmoved (h : BalancedOut live history) (event : LiveEvent)
    (hevent : Unmoved event) : BalancedOut live (history ++ [event]) :=
  h.imp fun _ hbalanced => hbalanced.unmoved _ hevent

theorem wp_report_out (h : BalancedOut live history) (message : String) :
    (reportOut message : Bridging α).wp post BalancedOut live history := by
  refine Attempt.wp_bind.mpr (Attempt.wp_perform.mpr fun result => ?_)
  exact Attempt.wp_fail.mpr (h.unmoved _ (unmoved_report message))

theorem wp_goto_out_errno (h : BalancedOut live history) (initStep : String) :
    (gotoOutErrno initStep : Bridging α).wp post BalancedOut live history := by
  refine Attempt.wp_bind.mpr (Attempt.wp_perform.mpr fun result => ?_)
  exact Attempt.wp_fail.mpr (h.unmoved _ (unmoved_die_step initStep))

/-- The rule of a result that is needed. -/
theorem wp_need {initStep : String} {result : Option α}
    (hnone : result = none → BalancedOut live history)
    (hsome : ∀ value, result = some value → post value live history) :
    (need initStep result).wp post BalancedOut live history := by
  cases result with
  | none => exact wp_goto_out_errno (hnone rfl) initStep
  | some value => exact Attempt.wp_pure.mpr (hsome value rfl)

/-- The rule of a success that is needed. -/
theorem wp_need_true {initStep : String} {success : Bool} {post : Unit → Live → List LiveEvent → Prop}
    (hfalse : success = false → BalancedOut live history)
    (htrue : success = true → post () live history) :
    (needTrue initStep success).wp post BalancedOut live history := by
  cases success with
  | false => exact wp_goto_out_errno (hfalse rfl) initStep
  | true => exact Attempt.wp_pure.mpr (htrue rfl)

end

/-! ### Queues -/

section

variable {live : Live} {which : QueueOf} {change : MappedQueue → MappedQueue}

/-- The descriptors that `out` closes besides those of a queue. -/
def Live.closingBut (live : Live) : QueueOf → Multiset Nat
  | .captureQueue => live.encoderCap.closing + live.mid.closing + live.plain
  | .mid => live.encoderCap.closing + live.captureQueue.closing + live.plain
  | .encoderCap => live.mid.closing + live.captureQueue.closing + live.plain

/-- The mappings that `out` removes besides those of a queue. -/
def Live.unmappingBut (live : Live) : QueueOf → Multiset (Nat × Nat)
  | .captureQueue => live.encoderCap.unmapping + live.mid.unmapping
  | .mid => live.encoderCap.unmapping + live.captureQueue.unmapping
  | .encoderCap => live.mid.unmapping + live.captureQueue.unmapping

theorem closing_but (live : Live) (which : QueueOf) :
    live.closing = live.closingBut which + (live.queue which).closing := by
  unfold Live.closing
  cases which <;> simp only [Live.closingBut, Live.queue] <;> abel

theorem unmapping_but (live : Live) (which : QueueOf) :
    live.unmapping = live.unmappingBut which + (live.queue which).unmapping := by
  unfold Live.unmapping
  cases which <;> simp only [Live.unmappingBut, Live.queue] <;> abel

@[simp] theorem on_queue_queue : (live.onQueue which change).queue which = change (live.queue which) := by
  cases which <;> rfl

@[simp] theorem on_queue_closing_but :
    (live.onQueue which change).closingBut which = live.closingBut which := by
  cases which <;> rfl

@[simp] theorem on_queue_unmapping_but :
    (live.onQueue which change).unmappingBut which = live.unmappingBut which := by
  cases which <;> rfl

@[simp] theorem on_queue_cap_fds : (live.onQueue which change).capFds = live.capFds := by
  cases which <;> rfl

theorem MappedQueue.closing_null {queue : MappedQueue} (h : queue.bufs = none) :
    queue.closing = 0 := by
  simp [MappedQueue.closing, h]

theorem MappedQueue.unmapping_null {queue : MappedQueue} (h : queue.bufs = none) :
    queue.unmapping = 0 := by
  simp [MappedQueue.unmapping, h]

/-- Some entries are filled in and the others are cleared. -/
def MappedQueue.Partly (front : List MappedBuf) (left : Nat) (queue : MappedQueue) : Prop :=
  queue.bufs = some (front ++ .replicate left .cleared) ∧ front.length + left = queue.count.toNat

variable {front : List MappedBuf} {left : Nat} {queue : MappedQueue}

theorem MappedQueue.Partly.closing (h : queue.Partly front left) :
    queue.closing = ↑(front.filterMap MappedBuf.dmabufFd) + .replicate left 0 := by
  obtain ⟨hbufs, hcount⟩ := h
  rw [MappedQueue.closing, hbufs, Option.getD_some,
    List.take_of_length_le (by simp [hcount]), List.filterMap_append, ← Multiset.coe_add]
  congr 1
  rw [← Multiset.coe_replicate]
  congr 1
  exact List.filterMap_replicate_of_some rfl

theorem MappedQueue.Partly.unmapping (h : queue.Partly front left) :
    queue.unmapping = ↑(front.filterMap MappedBuf.mapping) := by
  obtain ⟨hbufs, hcount⟩ := h
  rw [MappedQueue.unmapping, hbufs, Option.getD_some,
    List.take_of_length_le (by simp [hcount]), List.filterMap_append]
  simp [MappedBuf.mapping, MappedBuf.cleared]

theorem MappedQueue.Partly.put (h : queue.Partly front (left + 1)) (buf : MappedBuf) :
    (queue.put front.length buf).Partly (front ++ [buf]) left := by
  obtain ⟨hbufs, hcount⟩ := h
  refine ⟨?_, ?_⟩
  · rw [MappedQueue.put, hbufs, Option.map_some, List.replicate_succ]
    simp
  · show _ = queue.count.toNat
    simp only [List.length_append, List.length_singleton]
    omega

theorem MappedQueue.Partly.put_again {buf : MappedBuf} (h : queue.Partly (front ++ [buf]) left)
    (again : MappedBuf) : (queue.put front.length again).Partly (front ++ [again]) left := by
  obtain ⟨hbufs, hcount⟩ := h
  refine ⟨?_, ?_⟩
  · rw [MappedQueue.put, hbufs, Option.map_some]
    simp
  · show _ = queue.count.toNat
    simpa using hcount

end

namespace Balanced

variable {live : Live} {which : QueueOf} {front : List MappedBuf} {left : Nat} {buf : MappedBuf}
  {history : List LiveEvent} {event : LiveEvent}

/-- A call before any capture buffer is exported. -/
theorem call_early {next : Nat} {after : Live} (h : Balanced left live history)
    (hcap : live.capFds = none) (hafter : after.capFds = live.capFds)
    (hclosed : closed event = none) (hunmapped : unmapped event = none)
    (hevent : ∀ index fd, event ≠ ⟨.expbuf index, some fd⟩)
    (hdescriptors : after.closing + ↑(leaked event).toList + .replicate left 0 =
      live.closing + ↑(obtained event).toList + .replicate next 0)
    (hmappings : after.unmapping = live.unmapping + ↑(mapped event).toList)
    (hentries : entriesOf event + left = filledBy event + next) :
    Balanced next after (history ++ [event]) := by
  refine h.call hclosed hunmapped hdescriptors hmappings hentries ?_ ?_
  · exact fun _ => (h.unexported hcap).concat hevent
  · exact fun hsome => absurd (hafter.trans hcap) hsome

/-- An array of cleared entries is made. -/
theorem clear (h : Balanced 0 live history) (which : QueueOf) (hbufs : (live.queue which).bufs = none)
    (hcap : live.capFds = none) {queue : MappedQueue} {count : UInt32}
    (hqueue : queue.Partly [] count.toNat) :
    Balanced count.toNat (live.onQueue which fun _ => queue)
      (history ++ [⟨.calloc .mappedBufs count, true⟩]) := by
  refine h.call_early hcap on_queue_cap_fds rfl rfl ?_ ?_ ?_ (Nat.add_comm _ _)
  · intro index fd heq
    cases heq
  · rw [closing_but _ which, closing_but live which, on_queue_closing_but, on_queue_queue,
      hqueue.closing, MappedQueue.closing_null hbufs]
    simp [leaked, obtained]
  · rw [unmapping_but _ which, unmapping_but live which, on_queue_unmapping_but, on_queue_queue,
      hqueue.unmapping, MappedQueue.unmapping_null hbufs]
    simp [mapped]

/-- The next entry is filled in. -/
theorem fill (h : Balanced (left + 1) live history) (buf : MappedBuf)
    (hqueue : (live.queue which).Partly front (left + 1)) (hcap : live.capFds = none)
    (hclosed : closed event = none) (hunmapped : unmapped event = none)
    (hmapped : mapped event = none) (hobtained : obtained event = buf.dmabufFd)
    (hleaked : leaked event = none) (hentries : entriesOf event = 0) (hfilled : filledBy event = 1)
    (haddr : buf.addr = none) :
    Balanced left (live.onQueue which (.put front.length buf)) (history ++ [event]) := by
  have hput := hqueue.put buf
  refine h.call_early hcap on_queue_cap_fds hclosed hunmapped ?_ ?_ ?_ ?_
  · intro index fd heq
    rw [heq] at hfilled
    cases hfilled
  · rw [closing_but _ which, closing_but live which, on_queue_closing_but, on_queue_queue,
      hqueue.closing, hput.closing, hleaked, hobtained, List.filterMap_append, ← Multiset.coe_add,
      Multiset.replicate_succ, ← Multiset.singleton_add]
    have hone : (↑([buf].filterMap MappedBuf.dmabufFd) : Multiset Nat) =
        ↑buf.dmabufFd.toList := by
      cases hfd : buf.dmabufFd <;> simp [hfd]
    rw [hone]
    simp only [Option.toList_none, Multiset.coe_nil]
    abel
  · rw [unmapping_but _ which, unmapping_but live which, on_queue_unmapping_but, on_queue_queue,
      hqueue.unmapping, hput.unmapping, hmapped, List.filterMap_append]
    simp [MappedBuf.mapping, haddr]
  · rw [hentries, hfilled]
    omega

/-- The entry that was filled in last is mapped. -/
theorem map (h : Balanced left live history)
    (hqueue : (live.queue which).Partly (front ++ [buf]) left) (hcap : live.capFds = none)
    (haddr : buf.addr = none) (what : MapOf)
    (address : { address : Nat // 0 < address ∧ 0 < buf.length }) :
    Balanced left (live.onQueue which (.put front.length { buf with addr := some address.1 }))
      (history ++ [⟨.mmap what buf.length, some address⟩]) := by
  have hput := hqueue.put_again { buf with addr := some address.1 }
  refine h.call_early hcap on_queue_cap_fds rfl rfl ?_ ?_ ?_ rfl
  · intro index fd heq
    cases heq
  · rw [closing_but _ which, closing_but live which, on_queue_closing_but, on_queue_queue,
      hqueue.closing, hput.closing, List.filterMap_append, List.filterMap_append]
    rfl
  · rw [unmapping_but _ which, unmapping_but live which, on_queue_unmapping_but, on_queue_queue,
      hqueue.unmapping, hput.unmapping, List.filterMap_append, List.filterMap_append]
    have hlength : buf.length ≠ 0 := Nat.pos_iff_ne_zero.mp address.2.2
    simp [MappedBuf.mapping, haddr, hlength, mapped, ← Multiset.coe_add, add_assoc]

end Balanced

theorem on_queue_twice {live : Live} {which : QueueOf} {queue : MappedQueue}
    {change : MappedQueue → MappedQueue} :
    (live.onQueue which fun _ => queue).onQueue which change =
      live.onQueue which fun _ => change queue := by
  cases which <;> rfl

/-- The queue is filled in up to an index, and the rest is as it was. -/
def Filling (start : Live) (which : QueueOf) (count i : Nat) (live : Live)
    (history : List LiveEvent) : Prop :=
  ∃ queue front, (live = start.onQueue which fun _ => queue) ∧ front.length = i ∧
    queue.Partly front (count - i) ∧ Balanced (count - i) live history

section

variable {start live : Live} {which : QueueOf} {count i : Nat} {history : List LiveEvent}
  {initStep : String}

/-- The rule of an entry that a call has filled in. -/
theorem wp_store_entry (hcap : start.capFds = none) (h : Filling start which count i live history)
    (hcount : i < count) {event : LiveEvent} {length : Nat} {dmabufFd : Option Nat} {what : MapOf}
    (hclosed : closed event = none) (hunmapped : unmapped event = none)
    (hmapped : mapped event = none) (hobtained : obtained event = dmabufFd)
    (hleaked : leaked event = none) (hentries : entriesOf event = 0)
    (hfilled : filledBy event = 1) :
    (storeEntry initStep which i length dmabufFd what).wp
      (fun _ => Filling start which count (i + 1)) BalancedOut live (history ++ [event]) := by
  obtain ⟨queue, front, rfl, rfl, hpartly, hbalanced⟩ := h
  have hleft : count - front.length = count - (front.length + 1) + 1 := by omega
  rw [hleft] at hpartly hbalanced
  have hqueue : ((start.onQueue which fun _ => queue).queue which).Partly front
      (count - (front.length + 1) + 1) := by simpa using hpartly
  have hfill := hbalanced.fill ⟨none, length, dmabufFd⟩ hqueue (by simpa using hcap)
    hclosed hunmapped hmapped hobtained hleaked hentries hfilled rfl
  rw [on_queue_twice] at hfill
  have hput := hpartly.put ⟨none, length, dmabufFd⟩
  refine Attempt.wp_bind.mpr (Attempt.wp_modify.mpr ?_)
  refine Attempt.wp_bind.mpr (Attempt.wp_perform.mpr fun result => ?_)
  rw [on_queue_twice]
  refine Attempt.wp_bind.mpr (wp_need ?_ fun address haddress => Attempt.wp_modify.mpr ?_)
  · rintro rfl
    exact ⟨_, hfill.unmoved _ (by constructor <;> rfl)⟩
  · subst haddress
    have hqueue' : ((start.onQueue which fun _ =>
        queue.put front.length ⟨none, length, dmabufFd⟩).queue which).Partly
        (front ++ [⟨none, length, dmabufFd⟩]) (count - (front.length + 1)) := by
      simpa using hput
    have hmap := hfill.map hqueue' (by simpa using hcap) rfl what address
    rw [on_queue_twice] at hmap ⊢
    exact ⟨_, _, rfl, List.length_append, hput.put_again _, hmap⟩

/-- The array is complete. -/
theorem filling_complete (h : Filling start which count count live history) :
    ∃ queue, (live = start.onQueue which fun _ => queue) ∧ queue.bufs ≠ none ∧
      Balanced 0 live history := by
  obtain ⟨queue, front, rfl, -, ⟨hbufs, -⟩, hbalanced⟩ := h
  rw [Nat.sub_self] at hbalanced
  exact ⟨queue, rfl, by rw [hbufs]; exact Option.some_ne_none _, hbalanced⟩

theorem wp_map_queue (initStep : String) (h : Balanced 0 live history) (hbufs : (live.queue which).bufs = none)
    (hcap : live.capFds = none) (device : Device) (type : BufType) (requested : UInt32) :
    (mapQueue initStep device type requested which).wp
      (fun _ last events => ∃ queue, (last = live.onQueue which fun _ => queue) ∧
        queue.bufs ≠ none ∧ Balanced 0 last events) BalancedOut live history := by
  refine Attempt.wp_bind.mpr (Attempt.wp_perform.mpr fun result => ?_)
  have hreqbufs := h.unmoved ⟨.reqbufs device type .mmap requested, result⟩
    (by constructor <;> rfl)
  refine Attempt.wp_bind.mpr (wp_need (fun _ => ⟨_, hreqbufs⟩) fun count _ => ?_)
  split
  · exact wp_goto_out_errno ⟨_, hreqbufs⟩ initStep
  · refine Attempt.wp_bind.mpr (Attempt.wp_perform.mpr fun granted => ?_)
    refine Attempt.wp_bind.mpr (wp_need_true ?_ ?_)
    · rintro rfl
      exact ⟨_, hreqbufs.unmoved _ (by constructor <;> rfl)⟩
    · rintro rfl
      refine Attempt.wp_bind.mpr (Attempt.wp_modify.mpr ?_)
      have hqueue : MappedQueue.Partly [] count.toNat
          ⟨some (.replicate count.toNat .cleared), count⟩ := ⟨rfl, Nat.zero_add _⟩
      refine Attempt.wp_mono (Attempt.wp_for_each
        (Filling live which count.toNat) ?_ ?_) ?_ fun _ _ hexit => hexit
      · intro i hi state events hfilling
        refine Attempt.wp_bind.mpr (Attempt.wp_perform.mpr fun answer => ?_)
        refine Attempt.wp_bind.mpr (wp_need ?_ fun value hvalue => ?_)
        · rintro rfl
          obtain ⟨_, _, _, _, _, hbalanced⟩ := hfilling
          exact ⟨_, hbalanced.unmoved _ (by constructor <;> rfl)⟩
        · subst hvalue
          exact wp_store_entry hcap hfilling hi rfl rfl rfl rfl rfl rfl rfl
      · exact ⟨_, [], rfl, rfl, hqueue, hreqbufs.clear which hbufs hcap hqueue⟩
      · exact fun _ last events hfilling => filling_complete hfilling

end

/-! ### The descriptors outside of the queues -/

@[simp] theorem held_by_none : heldBy none = 0 := rfl

@[simp] theorem held_by_some (fd : Nat) : heldBy (some fd) = {fd} := rfl

@[simp] theorem held_by_stdout :
    heldBy ((some stdoutFileno).filter (· ≠ stdoutFileno)) = 0 := rfl

/-- The descriptor of the output is closed or it is that of standard output. -/
theorem held_by_output (fd : Nat) :
    heldBy ((some fd).filter (· ≠ stdoutFileno)) +
      (↑((some fd).filter (· = stdoutFileno)).toList : Multiset Nat) = {fd} := by
  by_cases hfd : fd = stdoutFileno <;> simp [Option.filter, hfd]

/-- A call that obtains a descriptor, which is stored. -/
theorem Balanced.gain {unset fd : Nat} {live after : Live} {history : List LiveEvent}
    {event : LiveEvent} (h : Balanced unset live history) (hobtained : obtained event = some fd)
    (hclosed : closed event = none) (hmapped : mapped event = none)
    (hunmapped : unmapped event = none) (hentries : entriesOf event = 0)
    (hfilled : filledBy event = 0) (hleaked : leaked event = none)
    (hclosing : after.closing = live.closing + {fd}) (hunmapping : after.unmapping = live.unmapping)
    (hcap : after.capFds = live.capFds) (hcapture : after.captureQueue = live.captureQueue) :
    Balanced unset after (history ++ [event]) := by
  refine h.call hclosed hunmapped ?_ ?_ ?_ ?_ ?_
  · rw [hclosing, hobtained, hleaked, Option.toList_some, Option.toList_none,
      Multiset.coe_singleton, Multiset.coe_nil, add_zero]
  · rw [hunmapping, hmapped]
    simp
  · rw [hentries, hfilled]
  · refine fun hnone => (h.unexported (hcap ▸ hnone)).concat fun index fd heq => ?_
    rw [heq] at hobtained hleaked
    cases hleaked
  · rw [hcap, hcapture]
    exact h.exporting

/-- The set-up before any capture buffer is exported, with these queues not made yet. -/
structure Early (empty : List QueueOf) (live : Live) (history : List LiveEvent) : Prop where
  balanced : Balanced 0 live history
  capFds : live.capFds = none
  empty : ∀ which ∈ empty, (live.queue which).bufs = none

/-- All queues. -/
def allQueues : List QueueOf := [.mid, .encoderCap, .captureQueue]

section

variable {live : Live} {history : List LiveEvent} {empty : List QueueOf} {event : LiveEvent}

theorem Early.unmoved (h : Early empty live history) (event : LiveEvent)
    (hevent : Unmoved event) :
    Early empty live (history ++ [event]) :=
  ⟨h.balanced.unmoved _ hevent, h.capFds, h.empty⟩

theorem Early.out (h : Early empty live history) : BalancedOut live history := ⟨0, h.balanced⟩

/-- The rule of one of the device nodes. -/
theorem wp_open_node (post : Live → Prop) {path : String} {store : Nat → Live → Live}
    (h : Early allQueues live history)
    (hstore : ∀ fd, post (store fd live) ∧ (store fd live).closing = live.closing + {fd} ∧
      (store fd live).unmapping = live.unmapping ∧ (store fd live).capFds = live.capFds ∧
      ∀ which, (store fd live).queue which = live.queue which) :
    (openNode path store).wp (fun _ last events => post last ∧ Early allQueues last events)
      BalancedOut live history := by
  refine Attempt.wp_bind.mpr (Attempt.wp_perform.mpr fun result => ?_)
  cases result with
  | none => exact wp_report_out ⟨0, h.balanced.unmoved _ (by constructor <;> rfl)⟩ path
  | some fd =>
      obtain ⟨hpost, hclosing, hunmapping, hcap, hqueues⟩ := hstore fd
      refine Attempt.wp_modify.mpr ⟨hpost, ?_, hcap.trans h.capFds, ?_⟩
      · exact h.balanced.gain rfl rfl rfl rfl rfl rfl rfl hclosing hunmapping hcap
          (hqueues .captureQueue)
      · intro which hwhich
        rw [hqueues]
        exact h.empty which hwhich

/-- The rule of the output. -/
theorem wp_open_output (outputPath : Option String) (h : Early allQueues live history)
    (hnone : live.outputFd = none ∧ live.heapFd = none) :
    (openOutput outputPath).wp
      (fun _ last events => last.heapFd = none ∧ Early allQueues last events)
      BalancedOut live history := by
  unfold openOutput
  cases outputPath with
  | none => exact Attempt.wp_pure.mpr ⟨hnone.2, h⟩
  | some path =>
      dsimp only
      split
      · -- standard output is not one of the descriptors that are closed
        have hclosing : { live with outputFd := some stdoutFileno }.closing = live.closing := by
          simp only [Live.closing, Live.plain, hnone.1, held_by_stdout, Option.filter_none,
            held_by_none]
        exact Attempt.wp_modify.mpr ⟨hnone.2, h.balanced.change hclosing rfl rfl id, h.capFds,
          h.empty⟩
      · refine Attempt.wp_bind.mpr (Attempt.wp_perform.mpr fun result => ?_)
        cases result with
        | none => exact wp_report_out ⟨0, h.balanced.unmoved _ (by constructor <;> rfl)⟩ path
        | some fd =>
            refine Attempt.wp_modify.mpr ⟨hnone.2, ?_, h.capFds, h.empty⟩
            refine h.balanced.call rfl rfl ?_ (by simp [Live.unmapping, mapped]) rfl ?_
              h.balanced.exporting
            · simp only [Live.closing, Live.plain, hnone.1, leaked, obtained, Option.filter_none,
                held_by_none, Option.toList_some, Multiset.coe_singleton, ← held_by_output fd]
              abel
            · exact fun hcap => (h.balanced.unexported hcap).concat fun index fd heq => by cases heq

theorem wp_open_all (opts : BridgeOptions) (h : Balanced 0 .start history) :
    (openAll opts).wp (fun _ last events => last.heapFd = none ∧ Early allQueues last events)
      BalancedOut .start history := by
  have hstart : Early allQueues .start history := by
    refine ⟨h, rfl, fun which _ => ?_⟩
    cases which <;> rfl
  refine Attempt.wp_bind.mpr (Attempt.wp_mono (wp_open_node (fun live =>
    live.encoderFd = none ∧ live.scalerFd = none ∧ live.outputFd = none ∧ live.heapFd = none)
    hstart ?_) ?_ fun _ _ hexit => hexit)
  · intro fd
    refine ⟨⟨rfl, rfl, rfl, rfl⟩, ?_, rfl, rfl, fun which => by cases which <;> rfl⟩
    simp [Live.closing, Live.plain, Live.start]
  rintro - first events ⟨⟨hencoder, hscaler, houtput, hheap⟩, hfirst⟩
  refine Attempt.wp_bind.mpr (Attempt.wp_mono (wp_open_node (fun live =>
    live.scalerFd = none ∧ live.outputFd = none ∧ live.heapFd = none)
    hfirst ?_) ?_ fun _ _ hexit => hexit)
  · intro fd
    refine ⟨⟨hscaler, houtput, hheap⟩, ?_, rfl, rfl, fun which => by cases which <;> rfl⟩
    simp only [Live.closing, Live.plain, hencoder, held_by_none, held_by_some]
    abel
  rintro - second events ⟨⟨hscaler, houtput, hheap⟩, hsecond⟩
  refine Attempt.wp_bind.mpr (Attempt.wp_mono (wp_open_node (fun live =>
    live.outputFd = none ∧ live.heapFd = none) hsecond ?_) ?_ fun _ _ hexit => hexit)
  · intro fd
    refine ⟨⟨houtput, hheap⟩, ?_, rfl, rfl, fun which => by cases which <;> rfl⟩
    simp only [Live.closing, Live.plain, hscaler, held_by_none, held_by_some]
    abel
  rintro - third events ⟨hnone, hthird⟩
  exact wp_open_output opts.outputPath hthird hnone

end

/-! ### Calls that move nothing -/

/-- The call moves nothing, whatever it returns. -/
def Unmoving (request : Call) : Prop := ∀ result, Unmoved ⟨request, result⟩

section

variable {α : Type} {live : Live} {history : List LiveEvent} {unset : Nat}

/-- The rule of a program of such calls. -/
theorem wp_unmoving {program : Bridging α} (hstill : program.Still Unmoving)
    (h : Balanced unset live history) :
    program.wp (fun _ last events => last = live ∧ Balanced unset live events) BalancedOut live
      history := by
  have hkeep : ∀ history event, Unmoving event.operation → Balanced unset live history →
      Balanced unset live (history ++ [event]) :=
    fun history event hevent hbalanced => hbalanced.unmoved event (hevent event.result)
  refine Attempt.wp_mono (Attempt.wp_steady hkeep hstill h) (fun _ _ _ hlast => hlast) ?_
  rintro last events ⟨rfl, hbalanced⟩
  exact ⟨unset, hbalanced⟩

theorem still_call {request : Call} (h : Unmoving request) : (call request).Still Unmoving :=
  Attempt.steady_perform h

theorem unmoving_report {message : String} : Unmoving (.report message) :=
  fun _ => unmoved_report message

theorem unmoving_die_step {initStep : String} : Unmoving (.dieStep initStep) :=
  fun _ => unmoved_die_step initStep

theorem still_negotiate_unmoving {opts : BridgeOptions} : (negotiate opts).Still Unmoving := by
  refine Attempt.steady_mono still_negotiate (fun _ _ hsame => hsame) ?_
  intro request hrequest result
  cases request with
  | getFormat | setFormat | setCrop | setControls | dieStep | report => constructor <;> rfl
  | _ => exact hrequest.elim

theorem still_queue_all {initStep : String} {device : Device} {count : UInt32} :
    (queueAll initStep device count).Still Unmoving :=
  Attempt.steady_for_each (fun _ => Attempt.steady_bind
    (still_call fun _ => by constructor <;> rfl) fun _ => steady_need_true unmoving_die_step) _

end

/-! ### The stages -/

section

variable {live after : Live} {history : List LiveEvent} {empty : List QueueOf} {which : QueueOf}

/-- A change of what `out` does not look at. -/
theorem Early.change (h : Early empty live history) (hclosing : after.closing = live.closing)
    (hunmapping : after.unmapping = live.unmapping) (hcap : after.capFds = live.capFds)
    (hqueues : ∀ which, (after.queue which).bufs = (live.queue which).bufs) :
    Early empty after history where
  balanced := h.balanced.change hclosing hunmapping hcap fun hsome => by
    have := hqueues .captureQueue
    rwa [show after.captureQueue.bufs = live.captureQueue.bufs from this]
  capFds := hcap.trans h.capFds
  empty := fun which hwhich => (hqueues which).trans (h.empty which hwhich)

theorem on_queue_other {change : MappedQueue → MappedQueue} {other : QueueOf} (h : other ≠ which) :
    (live.onQueue which change).queue other = live.queue other := by
  cases which <;> cases other <;> first | rfl | exact absurd rfl h

/-- One queue is made. -/
theorem Early.made (h : Early (which :: empty) live history) (hnew : which ∉ empty)
    {queue : MappedQueue} {events : List LiveEvent}
    (hbalanced : Balanced 0 (live.onQueue which fun _ => queue) events) :
    Early empty (live.onQueue which fun _ => queue) events where
  balanced := hbalanced
  capFds := on_queue_cap_fds.trans h.capFds
  empty := fun other hother => by
    have hne : other ≠ which := fun heq => hnew (by rwa [← heq])
    rw [on_queue_other hne]
    exact h.empty other (List.mem_cons_of_mem _ hother)

theorem wp_open_heap (reserved : Bool) (h : Early empty live history) (hheap : live.heapFd = none) :
    (openHeap reserved).wp (fun _ last events => Early empty last events) BalancedOut live
      history := by
  have hstore : ∀ fd, { live with heapFd := some fd }.closing = live.closing + {fd} := by
    intro fd
    simp only [Live.closing, Live.plain, hheap, held_by_none, held_by_some]
    abel
  refine Attempt.wp_bind.mpr (Attempt.wp_perform.mpr fun result => ?_)
  cases result with
  | some fd =>
      refine Attempt.wp_modify.mpr ⟨?_, h.capFds, h.empty⟩
      exact h.balanced.gain rfl rfl rfl rfl rfl rfl rfl (hstore fd) rfl rfl rfl
  | none =>
      have hfirst := h.unmoved ⟨.openHeap (if reserved then dmaHeapReserved else dmaHeapCma),
        none⟩ (by constructor <;> rfl)
      dsimp only
      split
      · exact wp_goto_out_errno hfirst.out _
      · refine Attempt.wp_bind.mpr (Attempt.wp_perform.mpr fun result => ?_)
        refine Attempt.wp_bind.mpr (wp_need ?_ fun fd hfd => Attempt.wp_modify.mpr ?_)
        · rintro rfl
          exact (hfirst.unmoved _ (by constructor <;> rfl)).out
        · subst hfd
          refine ⟨?_, h.capFds, h.empty⟩
          exact hfirst.balanced.gain rfl rfl rfl rfl rfl rfl rfl (hstore fd) rfl rfl rfl

theorem wp_allocate_buffer {start : Live} {count i : Nat} (sizeimage : UInt32)
    (hcap : start.capFds = none) (h : Filling start .mid count i live history) (hi : i < count) :
    (allocateBuffer sizeimage i).wp (fun _ => Filling start .mid count (i + 1)) BalancedOut live
      history := by
  refine Attempt.wp_bind.mpr (Attempt.wp_perform.mpr fun answer => ?_)
  refine Attempt.wp_bind.mpr (wp_need ?_ fun fd hfd => ?_)
  · rintro rfl
    obtain ⟨_, _, _, _, _, hbalanced⟩ := h
    exact ⟨_, hbalanced.unmoved _ (by constructor <;> rfl)⟩
  · subst hfd
    exact wp_store_entry hcap h hi rfl rfl rfl rfl rfl rfl rfl

theorem wp_allocate_middle (midBuffers sizeimage : UInt32)
    (h : Early allQueues live history) :
    (allocateMiddle midBuffers sizeimage).wp
      (fun _ last events => Early [.encoderCap, .captureQueue] last events) BalancedOut live
      history := by
  have hmid : (live.queue .mid).bufs = none := h.empty .mid (List.mem_cons_self ..)
  refine Attempt.wp_bind.mpr (Attempt.wp_perform.mpr fun result => ?_)
  have hreqbufs := h.unmoved ⟨.reqbufs .scaler .capture .dmabuf midBuffers, result⟩
    (by constructor <;> rfl)
  refine Attempt.wp_bind.mpr (wp_need (fun _ => hreqbufs.out) fun count _ => ?_)
  split
  · exact wp_goto_out_errno hreqbufs.out _
  refine Attempt.wp_bind.mpr (Attempt.wp_modify.mpr ?_)
  -- the count alone is nothing to `unmap_queue`
  have hcounted : Early allQueues (live.onQueue .mid fun queue => { queue with count })
      (history ++ [⟨.reqbufs .scaler .capture .dmabuf midBuffers, result⟩]) := by
    refine hreqbufs.change ?_ ?_ rfl fun which => by cases which <;> rfl
    · rw [closing_but _ .mid, closing_but live .mid, on_queue_closing_but, on_queue_queue,
        MappedQueue.closing_null hmid, MappedQueue.closing_null (by exact hmid)]
    · rw [unmapping_but _ .mid, unmapping_but live .mid, on_queue_unmapping_but, on_queue_queue,
        MappedQueue.unmapping_null hmid, MappedQueue.unmapping_null (by exact hmid)]
  refine Attempt.wp_bind.mpr (Attempt.wp_perform.mpr fun result => ?_)
  have hgranted := hcounted.unmoved
    ⟨.reqbufs .encoder .output .dmabuf count, result⟩ (by constructor <;> rfl)
  refine Attempt.wp_bind.mpr (wp_need (fun _ => hgranted.out) fun granted _ => ?_)
  split
  · exact wp_goto_out_errno hgranted.out _
  refine Attempt.wp_bind.mpr (Attempt.wp_perform.mpr fun cleared => ?_)
  refine Attempt.wp_bind.mpr (wp_need_true ?_ ?_)
  · rintro rfl
    exact (hgranted.unmoved _ (by constructor <;> rfl)).out
  rintro rfl
  refine Attempt.wp_bind.mpr (Attempt.wp_modify.mpr ?_)
  have hqueue : MappedQueue.Partly [] count.toNat
      ⟨some (.replicate count.toNat .cleared), count⟩ := ⟨rfl, Nat.zero_add _⟩
  refine Attempt.wp_bind.mpr (Attempt.wp_mono (Attempt.wp_for_each
    (Filling (live.onQueue .mid fun queue => { queue with count }) .mid count.toNat)
    ?_ ?_) ?_ fun _ _ hexit => hexit)
  · exact fun i hi state events hfilling => wp_allocate_buffer sizeimage h.capFds hfilling hi
  · exact ⟨_, [], rfl, rfl, hqueue, hgranted.balanced.clear .mid hmid h.capFds hqueue⟩
  · intro _ last events hfilling
    obtain ⟨queue, rfl, -, hbalanced⟩ := filling_complete hfilling
    have hmade := hcounted.made (by decide) hbalanced
    refine Attempt.wp_bind.mpr (Attempt.wp_perform.mpr fun result => ?_)
    have hstates := hmade.unmoved ⟨.calloc .midState count, result⟩
      (by constructor <;> rfl)
    refine Attempt.wp_bind.mpr (wp_need_true (fun _ => hstates.out) fun _ => ?_)
    exact Attempt.wp_modify.mpr (hstates.change rfl rfl rfl fun which => by cases which <;> rfl)

theorem wp_encoder_buffers (h : Early [.encoderCap, .captureQueue] live history) :
    encoderBuffers.wp (fun _ last events => Early [.captureQueue] last events) BalancedOut live
      history := by
  have hmap := wp_map_queue "encoder CAPTURE buffers" h.balanced
    (h.empty .encoderCap (List.mem_cons_self ..)) h.capFds .encoder .capture encoderCapBuffers
  refine Attempt.wp_bind.mpr (Attempt.wp_mono hmap ?_ fun _ _ hexit => hexit)
  rintro - middle events ⟨queue, rfl, -, hbalanced⟩
  have hmade := h.made (by decide) hbalanced
  refine Attempt.wp_bind.mpr (Attempt.wp_get.mpr ?_)
  refine Attempt.wp_mono (wp_unmoving still_queue_all hbalanced) ?_ fun _ _ hexit => hexit
  rintro - last events' ⟨rfl, hafter⟩
  exact ⟨hafter, hmade.capFds, hmade.empty⟩

theorem wp_prime (encoderOut : PixFormat) (h : Early empty live history) :
    (prime encoderOut).wp (fun _ last events => Early empty last events) BalancedOut live
      history := by
  refine Attempt.wp_bind.mpr (Attempt.wp_get.mpr ?_)
  dsimp only
  split
  · exact Attempt.wp_fail.mpr h.out
  refine Attempt.wp_bind.mpr (Attempt.wp_perform.mpr fun result => ?_)
  have hsync := h.unmoved ⟨.sync (live.mid.entry 0).dmabufFd, result⟩
    (by constructor <;> rfl)
  refine Attempt.wp_bind.mpr (wp_need_true (fun _ => hsync.out) fun _ => ?_)
  refine Attempt.wp_bind.mpr (Attempt.wp_perform.mpr fun result => ?_)
  have hqueued := hsync.unmoved ⟨_, result⟩ (by constructor <;> rfl)
  refine Attempt.wp_bind.mpr (wp_need_true (fun _ => hqueued.out) fun _ => ?_)
  exact Attempt.wp_modify.mpr (hqueued.change rfl rfl rfl fun which => by cases which <;> rfl)

theorem wp_start_encoder (h : Early empty live history) :
    startEncoder.wp (fun _ last events => Early empty last events) BalancedOut live history := by
  refine Attempt.wp_bind.mpr (Attempt.wp_perform.mpr fun result => ?_)
  have hcapture := h.unmoved ⟨.stream .encoder .capture true, result⟩
    (by constructor <;> rfl)
  refine Attempt.wp_bind.mpr (wp_need_true (fun _ => hcapture.out) fun _ => ?_)
  refine Attempt.wp_bind.mpr (Attempt.wp_modify.mpr ?_)
  have hon : Early empty { live with encoderCapOn := true } _ :=
    hcapture.change rfl rfl rfl fun which => by cases which <;> rfl
  refine Attempt.wp_bind.mpr (Attempt.wp_perform.mpr fun result => ?_)
  have houtput := hon.unmoved ⟨.stream .encoder .output true, result⟩
    (by constructor <;> rfl)
  refine Attempt.wp_bind.mpr (wp_need_true (fun _ => houtput.out) fun _ => ?_)
  exact Attempt.wp_modify.mpr (houtput.change rfl rfl rfl fun which => by cases which <;> rfl)

end

section

variable {live : Live} {history : List LiveEvent} {unset : Nat}

/-- From here on there are exported buffers. -/
theorem Balanced.exports (h : Balanced 0 live history) (hbufs : live.captureQueue.bufs ≠ none)
    (fds : List Nat) : Balanced 0 { live with capFds := some fds } history where
  descriptors := h.descriptors
  mappings := h.mappings
  entries := h.entries
  unexported := fun hnone => by cases hnone
  exporting := fun _ => ⟨hbufs, rfl⟩

/-- The array of the exported buffers is there. -/
def Exporting (live : Live) (history : List LiveEvent) : Prop :=
  Balanced 0 live history ∧ live.capFds ≠ none ∧ live.captureQueue.bufs ≠ none

theorem wp_export_buffer (i : Nat) (h : Exporting live history) :
    (exportBuffer i).wp (fun _ => Exporting) BalancedOut live history := by
  obtain ⟨hbalanced, hcap, hbufs⟩ := h
  refine Attempt.wp_bind.mpr (Attempt.wp_perform.mpr fun result => ?_)
  refine Attempt.wp_bind.mpr (wp_need ?_ fun fd hfd => Attempt.wp_modify.mpr ?_)
  · rintro rfl
    exact ⟨0, hbalanced.unmoved _ (by constructor <;> rfl)⟩
  · subst hfd
    have hafter : live.capFds.map (·.set i fd) ≠ none := by simpa using hcap
    refine ⟨?_, hafter, hbufs⟩
    refine hbalanced.call rfl rfl rfl ?_ rfl (fun hnone => absurd hnone hafter)
      fun _ => ⟨hbufs, rfl⟩
    simp [Live.unmapping, mapped]

theorem wp_capture_buffers (requested : UInt32) (h : Early [.captureQueue] live history) :
    (captureBuffers requested).wp (fun _ last events => Balanced 0 last events) BalancedOut live
      history := by
  have hmap := wp_map_queue "capture buffers" h.balanced
    (h.empty .captureQueue (List.mem_cons_self ..)) h.capFds .capture .capture requested
  refine Attempt.wp_bind.mpr (Attempt.wp_mono hmap ?_ fun _ _ hexit => hexit)
  rintro - middle events ⟨queue, rfl, hbufs, hbalanced⟩
  refine Attempt.wp_bind.mpr (Attempt.wp_get.mpr ?_)
  refine Attempt.wp_bind.mpr (Attempt.wp_perform.mpr fun result => ?_)
  have harray := hbalanced.unmoved ⟨.calloc .capFds queue.count, result⟩
    (by constructor <;> rfl)
  refine Attempt.wp_bind.mpr (wp_need_true (fun _ => ⟨0, harray⟩) fun _ => ?_)
  refine Attempt.wp_bind.mpr (Attempt.wp_modify.mpr ?_)
  refine Attempt.wp_bind.mpr (Attempt.wp_mono (Attempt.wp_for_each
    (fun _ => Exporting) ?_ ?_) ?_ fun _ _ hexit => hexit)
  · exact fun i _ state events hstate => wp_export_buffer i hstate
  · exact ⟨harray.exports hbufs _, Option.some_ne_none _, hbufs⟩
  · rintro - last events' ⟨hlast, -, -⟩
    refine Attempt.wp_mono (wp_unmoving still_queue_all hlast) ?_ fun _ _ hexit => hexit
    rintro - final events'' ⟨rfl, hfinal⟩
    exact hfinal

theorem wp_start_capture (h : Balanced 0 live history) :
    startCapture.wp (fun _ last events => Balanced 0 last events) BalancedOut live history := by
  refine Attempt.wp_bind.mpr (Attempt.wp_perform.mpr fun result => ?_)
  have hon := h.unmoved ⟨.stream .capture .capture true, result⟩ (by constructor <;> rfl)
  refine Attempt.wp_bind.mpr (wp_need_true (fun _ => ⟨0, hon⟩) fun _ => ?_)
  exact Attempt.wp_modify.mpr (hon.change rfl rfl rfl id)

theorem wp_start_audio (audioDevice : Option String) (h : Balanced 0 live history) :
    (startAudio audioDevice).wp (fun _ last events => Balanced 0 last events) BalancedOut live
      history := by
  unfold startAudio
  cases audioDevice with
  | none => exact Attempt.wp_pure.mpr h
  | some device =>
      refine Attempt.wp_bind.mpr (Attempt.wp_perform.mpr fun result => ?_)
      have hopen := h.unmoved ⟨.audioOpen device, result⟩ (by constructor <;> rfl)
      split
      · exact Attempt.wp_modify.mpr (hopen.change rfl rfl rfl id)
      · exact Attempt.wp_fail.mpr ⟨0, hopen⟩

theorem wp_import_capture (h : Balanced 0 live history) :
    importCapture.wp (fun _ last events => Balanced 0 last events) BalancedOut live history := by
  refine Attempt.wp_bind.mpr (Attempt.wp_get.mpr ?_)
  refine Attempt.wp_bind.mpr (Attempt.wp_perform.mpr fun result => ?_)
  have hasked := h.unmoved
    ⟨.reqbufs .scaler .output .dmabuf live.captureQueue.count, result⟩
    (by constructor <;> rfl)
  cases result with
  | none => exact wp_report_out ⟨0, hasked⟩ _
  | some count =>
      dsimp only
      split
      · exact wp_report_out ⟨0, hasked⟩ _
      · exact Attempt.wp_pure.mpr hasked

theorem wp_start_scaler (h : Balanced 0 live history) :
    startScaler.wp (fun _ last events => Balanced 0 last events) BalancedOut live history := by
  refine Attempt.wp_bind.mpr (Attempt.wp_perform.mpr fun result => ?_)
  have houtput := h.unmoved ⟨.stream .scaler .output true, result⟩
    (by constructor <;> rfl)
  refine Attempt.wp_bind.mpr (wp_need_true (fun _ => ⟨0, houtput⟩) fun _ => ?_)
  refine Attempt.wp_bind.mpr (Attempt.wp_modify.mpr ?_)
  have hon : Balanced 0 { live with scalerOutOn := true } _ := houtput.change rfl rfl rfl id
  refine Attempt.wp_bind.mpr (Attempt.wp_perform.mpr fun result => ?_)
  have hcapture := hon.unmoved ⟨.stream .scaler .capture true, result⟩
    (by constructor <;> rfl)
  refine Attempt.wp_bind.mpr (wp_need_true (fun _ => ⟨0, hcapture⟩) fun _ => ?_)
  exact Attempt.wp_modify.mpr (hcapture.change rfl rfl rfl id)

/-- The set-up, whether it gets to the loop or not. -/
theorem wp_set_up (opts : BridgeOptions) (h : Balanced 0 .start history) :
    (setUp opts).wp (fun _ last events => Balanced 0 last events) BalancedOut .start history := by
  have hexit : ∀ last events, BalancedOut last events → BalancedOut last events := fun _ _ h => h
  refine Attempt.wp_bind.mpr (Attempt.wp_mono (wp_open_all opts h) ?_ hexit)
  rintro - live history ⟨hheap, hopen⟩
  refine Attempt.wp_bind.mpr (Attempt.wp_mono (wp_unmoving still_negotiate_unmoving hopen.balanced) ?_ hexit)
  rintro formats live' history ⟨rfl, hbalanced⟩
  have hearly : Early allQueues live' history := ⟨hbalanced, hopen.capFds, hopen.empty⟩
  refine Attempt.wp_bind.mpr (Attempt.wp_mono (wp_open_heap _ hearly hheap) ?_ hexit)
  intro _ live history hheap
  refine Attempt.wp_bind.mpr (Attempt.wp_mono (wp_allocate_middle _ _ hheap) ?_ hexit)
  intro _ live history hmiddle
  refine Attempt.wp_bind.mpr (Attempt.wp_mono (wp_encoder_buffers hmiddle) ?_ hexit)
  intro _ live history hencoder
  refine Attempt.wp_bind.mpr (Attempt.wp_mono (wp_prime _ hencoder) ?_ hexit)
  intro _ live history hprimed
  refine Attempt.wp_bind.mpr (Attempt.wp_mono (wp_start_encoder hprimed) ?_ hexit)
  intro _ live history hstarted
  refine Attempt.wp_bind.mpr (Attempt.wp_mono (wp_capture_buffers _ hstarted) ?_ hexit)
  intro _ live history hcapture
  refine Attempt.wp_bind.mpr (Attempt.wp_mono (wp_start_capture hcapture) ?_ hexit)
  intro _ live history hstreaming
  refine Attempt.wp_bind.mpr (Attempt.wp_mono (wp_start_audio _ hstreaming) ?_ hexit)
  intro _ live history haudio
  refine Attempt.wp_bind.mpr (Attempt.wp_mono (wp_import_capture haudio) ?_ hexit)
  intro _ live history himported
  refine Attempt.wp_bind.mpr (Attempt.wp_mono (wp_start_scaler himported) ?_ hexit)
  intro _ live history hready
  exact Attempt.wp_pure.mpr hready

end

end NanoKvm.Bridge
