import Mathlib.Algebra.Order.BigOperators.Group.List
import Mathlib.Algebra.Order.Ring.Int
import NanoKvm.Media.VpssSession

/-!
# Clocks of the VPSS driver

The driver counts the OUTPUT queues that stream, and holds a reference on runtime PM while there are
any. `PowerInv` says what the count, the reference and the clocks are at every point of its calls,
`JobInv` that a job in progress belongs to queues that stream. So no register is accessed without
the clocks of the block; the fabric clocks have besides those enables what the probe and the resumes
have left.
-/

namespace NanoKvm.VpssSession

open Exec Vpss

section

variable {ι : Type}

/-! ## What the clocks depend on -/

/-- What the device is supplied with. -/
structure Supply where
  active : Bool
  clocked : Bool
  bulk : Int
  deriving DecidableEq

/-- The supply at each point of a callback. -/
def PmPc.supply (pm : PmPc) (active : Bool) : Supply :=
  match pm with
  | .idle => ⟨active, active, if active then 1 else 0⟩
  | .unmasking => ⟨false, false, 1⟩
  | .initialising => ⟨false, true, 1⟩
  | .synchronizing | .gating => ⟨true, false, 1⟩

/-- The part of a state that the clocks depend on. -/
structure Power (ι : Type) where
  streaming : Nat
  outputs : Finset ι
  starting : Option ι
  refs : Nat
  puts : Nat
  supply : Supply
  pm : PmPc
  irq : IrqPc

def State.power (s : State ι) : Power ι where
  streaming := s.streaming
  outputs := s.streams .output
  starting := s.starting
  refs := s.refs
  puts := s.puts
  supply := ⟨s.active, s.clocked, s.bulk⟩
  pm := s.pm
  irq := s.irq

/-- The count, the reference and the supply. -/
structure PowerInv (p : Power ι) : Prop where
  counted : p.streaming = p.outputs.card + p.starting.toList.length
  first : p.starting.isSome = true → p.outputs = ∅
  refs : p.refs = (if p.streaming = 0 then 0 else 1) + p.puts
  held : p.outputs.Nonempty → p.pm = .idle ∧ p.supply.active = true
  supply : p.supply = p.pm.supply p.supply.active
  handler : p.irq ≠ .idle → p.supply.clocked = true ∨ p.pm = .synchronizing

variable {p : Power ι}

theorem power_probed (regs : RegisterFile) (coef : CoefPort) (fabric : Fabric → Bool) :
    PowerInv (State.probed ι regs coef fabric).power where
  counted := rfl
  first := fun h => (by cases h)
  refs := rfl
  held := fun h => absurd h Finset.not_nonempty_empty
  supply := rfl
  handler := fun h => absurd rfl h

/-- While a queue streams, all clocks of the block are on and the handler may run. -/
theorem PowerInv.supplied (h : PowerInv p) {ctx : ι} (hstreams : ctx ∈ p.outputs) :
    p.supply = ⟨true, true, 1⟩ := by
  obtain ⟨hpm, hactive⟩ := h.held ⟨ctx, hstreams⟩
  rw [h.supply, hpm, hactive]
  rfl

/-- The clocks are on while the handler may go on and until it was waited for. -/
theorem PowerInv.handled (h : PowerInv p) (hirq : p.irq ≠ .idle) : p.supply.bulk = 1 := by
  have hsupply := h.supply
  rcases h.handler hirq with hclocked | hpm
  · rw [hsupply] at hclocked ⊢
    cases hpm : p.pm with
    | idle =>
        rw [hpm] at hclocked
        exact if_pos hclocked
    | unmasking | initialising | synchronizing | gating => rfl
  · rw [hsupply, hpm]
    rfl

/-- The supply at a point that is known. -/
theorem PowerInv.supply_at {s : State ι} (h : PowerInv s.power) {pm : PmPc} (hpm : s.pm = pm) :
    (⟨s.active, s.clocked, s.bulk⟩ : Supply) = pm.supply s.active := hpm ▸ h.supply

/-- With no start in progress the count is the number of the queues. -/
theorem PowerInv.settled (h : PowerInv p) (hstarting : p.starting = none) :
    p.streaming = p.outputs.card := by
  rw [h.counted, hstarting]
  rfl

/-! ## Callbacks -/

/-- Outside the callbacks nothing but the supply moves while no queue streams. -/
theorem PowerInv.supplyTo (h : PowerInv p) (hnone : ¬ p.outputs.Nonempty) (pm : PmPc)
    (supply : Supply) (hsupply : supply = pm.supply supply.active)
    (hhandler : p.irq ≠ .idle → supply.clocked = true ∨ pm = .synchronizing) :
    PowerInv { p with supply := supply, pm := pm } :=
  ⟨h.counted, h.first, h.refs, fun hsome => absurd hsome hnone, hsupply, hhandler⟩

/-- Nothing streams during a callback. -/
theorem PowerInv.none_streams (h : PowerInv p) (hpm : p.pm ≠ .idle) : ¬ p.outputs.Nonempty :=
  fun hsome => hpm (h.held hsome).1

/-- Nothing streams while the device is not active or no reference is held. -/
theorem PowerInv.none_inactive (h : PowerInv p) (hactive : p.supply.active = false) :
    ¬ p.outputs.Nonempty := by
  intro hsome
  rw [(h.held hsome).2] at hactive
  cases hactive

theorem PowerInv.none_held (h : PowerInv p) (hrefs : p.refs = 0) : ¬ p.outputs.Nonempty := by
  intro hsome
  have hpos := Finset.card_pos.mpr hsome
  have hcounted := h.counted
  have hone := h.refs
  rw [if_neg (by omega), hrefs] at hone
  omega

/-! ## Calls that count -/

/-- The first OUTPUT queue asks runtime PM. -/
theorem PowerInv.ask (h : PowerInv p) (ctx : ι) (hstarting : p.starting = none)
    (hstreaming : p.streaming = 0) :
    PowerInv { p with
      streaming := p.streaming + 1
      refs := p.refs + 1
      starting := some ctx } := by
  have hcount := h.settled hstarting
  rw [hstreaming] at hcount
  have hempty := Finset.card_eq_zero.mp hcount.symm
  refine ⟨?_, fun _ => hempty, ?_, h.held, h.supply, h.handler⟩
  · show p.streaming + 1 = p.outputs.card + 1
    rw [hempty, hstreaming]
    rfl
  · show p.refs + 1 = (if p.streaming + 1 = 0 then 0 else 1) + p.puts
    rw [h.refs, if_pos hstreaming, if_neg (Nat.succ_ne_zero _)]
    omega

/-- What is counted while the first queue starts. -/
theorem PowerInv.asking (h : PowerInv p) {ctx : ι} (hstarting : p.starting = some ctx) :
    p.outputs = ∅ ∧ p.streaming = 1 ∧ p.refs = 1 + p.puts := by
  have hempty := h.first (by rw [hstarting]; rfl)
  have hcount := h.counted
  rw [hstarting, hempty] at hcount
  refine ⟨hempty, hcount, ?_⟩
  rw [h.refs, hcount]
  rfl

/-- Runtime PM refuses. -/
theorem PowerInv.deny (h : PowerInv p) {ctx : ι} (hstarting : p.starting = some ctx) :
    PowerInv { p with
      streaming := p.streaming - 1
      refs := p.refs - 1
      starting := none } := by
  obtain ⟨hempty, hcount, hrefs⟩ := h.asking hstarting
  refine ⟨?_, fun hsome => (by cases hsome), ?_, h.held, h.supply, h.handler⟩
  · show p.streaming - 1 = p.outputs.card + 0
    rw [hempty, hcount]
    rfl
  · show p.refs - 1 = (if p.streaming - 1 = 0 then 0 else 1) + p.puts
    rw [hrefs, hcount, if_pos rfl]
    omega

/-- A stop gives its reference back. -/
theorem PowerInv.put (h : PowerInv p) (hputs : 0 < p.puts) :
    PowerInv { p with refs := p.refs - 1, puts := p.puts - 1 } :=
  { h with
    refs := by
      show p.refs - 1 = (if p.streaming = 0 then 0 else 1) + (p.puts - 1)
      rw [h.refs]
      omega }

/-- An OUTPUT queue streams only when no other one is starting. -/
theorem PowerInv.not_starting (h : PowerInv p) {ctx : ι} (hstreams : ctx ∈ p.outputs) :
    p.starting = none := by
  cases hstarting : p.starting with
  | none => rfl
  | some other =>
      rw [h.first (by rw [hstarting]; rfl)] at hstreams
      exact absurd hstreams (Finset.notMem_empty ctx)

variable [DecidableEq ι]

/-- Another OUTPUT queue streams. -/
theorem PowerInv.next (h : PowerInv p) {ctx : ι} (hstarting : p.starting = none)
    (hnew : ctx ∉ p.outputs) (hstreaming : p.streaming ≠ 0) :
    PowerInv { p with streaming := p.streaming + 1, outputs := insert ctx p.outputs } where
  counted := by
    show p.streaming + 1 = (insert ctx p.outputs).card + p.starting.toList.length
    rw [Finset.card_insert_of_notMem hnew, h.counted]
    omega
  first := fun hsome => by
    rw [show p.starting = none from hstarting] at hsome
    cases hsome
  refs := by
    show p.refs = (if p.streaming + 1 = 0 then 0 else 1) + p.puts
    rw [h.refs, if_neg hstreaming, if_neg (Nat.succ_ne_zero _)]
  held := fun _ => by
    refine h.held (Finset.card_pos.mp ?_)
    rw [← h.settled hstarting]
    exact Nat.pos_of_ne_zero hstreaming
  supply := h.supply
  handler := h.handler

/-- Runtime PM grants the reference. -/
theorem PowerInv.grant (h : PowerInv p) {ctx : ι} (hstarting : p.starting = some ctx)
    (hpm : p.pm = .idle) (hactive : p.supply.active = true) :
    PowerInv { p with outputs := insert ctx p.outputs, starting := none } := by
  obtain ⟨hempty, hcount, hrefs⟩ := h.asking hstarting
  refine ⟨?_, fun hsome => (by cases hsome), h.refs, fun _ => ⟨hpm, hactive⟩, h.supply, h.handler⟩
  show p.streaming = (insert ctx p.outputs).card + 0
  rw [hempty, hcount]
  rfl

/-- An OUTPUT queue stops, and the last one has the reference to give back. -/
theorem PowerInv.last (h : PowerInv p) {ctx : ι} (hstreams : ctx ∈ p.outputs) :
    PowerInv { p with
      streaming := p.streaming - 1
      outputs := p.outputs.erase ctx
      puts := if p.streaming - 1 = 0 then p.puts + 1 else p.puts } where
  counted := by
    have hstarting := h.not_starting hstreams
    show p.streaming - 1 = (p.outputs.erase ctx).card + p.starting.toList.length
    rw [Finset.card_erase_of_mem hstreams, h.settled hstarting, hstarting]
    rfl
  first := fun hsome => by
    rw [show p.starting = none from h.not_starting hstreams] at hsome
    cases hsome
  refs := by
    have hpos := Finset.card_pos.mpr ⟨ctx, hstreams⟩
    rw [← h.settled (h.not_starting hstreams)] at hpos
    show p.refs = (if p.streaming - 1 = 0 then 0 else 1)
      + if p.streaming - 1 = 0 then p.puts + 1 else p.puts
    rw [h.refs, if_neg (Nat.pos_iff_ne_zero.mp hpos)]
    split
    · exact Nat.add_comm 1 p.puts |>.trans (Nat.zero_add _).symm
    · rfl
  held := fun ⟨other, hother⟩ => h.held ⟨other, Finset.mem_of_mem_erase hother⟩
  supply := h.supply
  handler := h.handler

/-! ## Steps -/

variable {s : State ι}

theorem mem_start {ctx other : ι} {queue side : Queue} :
    other ∈ (s.start ctx queue).streams side ↔
      (other = ctx ∧ side = queue) ∨ other ∈ s.streams side := by
  unfold State.start
  by_cases hside : side = queue
  · subst hside
    simp
  · simp [hside]

theorem mem_stop {ctx other : ι} {queue side : Queue} :
    other ∈ (s.stop ctx queue).streams side ↔
      other ∈ s.streams side ∧ ¬ (other = ctx ∧ side = queue) := by
  unfold State.stop
  by_cases hside : side = queue
  · subst hside
    simp [and_comm]
  · simp [hside]

/-- What the calls of the driver change. -/
theorem start_streaming_frame (s : State ι) (ctx : ι) (queue : Queue) :
    ∃ streaming refs starting streams, s.startStreaming ctx queue = { s with
        streaming := streaming
        refs := refs
        starting := starting
        streams := streams } ∧ ∀ side, s.streams side ⊆ streams side := by
  cases queue with
  | capture => exact ⟨_, _, _, _, rfl, fun side other hother => mem_start.mpr (.inr hother)⟩
  | output =>
      unfold State.startStreaming
      dsimp only
      split
      · exact ⟨_, _, _, _, rfl, fun side other hother => mem_start.mpr (.inr hother)⟩
      · exact ⟨_, _, _, _, rfl, fun side other hother => hother⟩

theorem stop_streaming_frame (s : State ι) (ctx : ι) (queue : Queue) (ready : List Nat) :
    ∃ streaming puts, s.stopStreaming ctx queue ready = { s with
      streaming := streaming
      puts := puts
      streams := (s.stop ctx queue).streams
      custody := s.custody ++ drained ctx queue ready } := by
  unfold State.stopStreaming
  dsimp only
  split
  · exact ⟨_, _, rfl⟩
  · exact ⟨_, _, rfl⟩

theorem check_job_frame (s : State ι) (ctx : ι) (bufs : Option (Nat × Nat)) :
    ∃ custody running runner, s.checkJob ctx bufs = { s with
      custody := custody
      running := running
      runner := runner } := by
  unfold State.checkJob
  split
  · exact ⟨_, _, _, rfl⟩
  · split
    · exact ⟨_, _, _, rfl⟩
    · split
      · exact ⟨_, _, _, rfl⟩
      · exact ⟨_, _, _, rfl⟩

theorem job_finish_frame (s : State ι) (state : BufState) :
    ∃ curr custody running, s.vpssJobFinish state = { s with
      curr := curr
      custody := custody
      running := running } := by
  unfold State.vpssJobFinish
  split
  · exact ⟨_, _, _, rfl⟩
  · exact ⟨_, _, _, rfl⟩

theorem buf_prepare_frame (s : State ι) (ctx : ι) (queue : Queue) (b size : Nat) :
    ∃ prepared, s.bufPrepare ctx queue b size = { s with prepared := prepared } := by
  unfold State.bufPrepare
  split
  · exact ⟨_, rfl⟩
  · exact ⟨_, rfl⟩

theorem start_output_power (ctx : ι) :
    (s.start ctx .output).power = { s.power with outputs := insert ctx s.power.outputs } := by
  unfold State.start State.power
  simp only [Function.update_self]

theorem start_capture_power (ctx : ι) : (s.start ctx .capture).power = s.power := by
  unfold State.start State.power
  simp only [Function.update_of_ne (by decide : Queue.output ≠ .capture)]

theorem stop_output_power (ctx : ι) :
    (s.stop ctx .output).power = { s.power with outputs := s.power.outputs.erase ctx } := by
  unfold State.stop State.power
  simp only [Function.update_self]

theorem stop_capture_power (ctx : ι) : (s.stop ctx .capture).power = s.power := by
  unfold State.stop State.power
  simp only [Function.update_of_ne (by decide : Queue.output ≠ .capture)]

/-- A queue starts, or asks for the clocks. -/
theorem power_start_streaming (h : PowerInv s.power) {ctx : ι} {queue : Queue}
    (hstarting : s.starting = none) (hnew : ctx ∉ s.streams queue) :
    PowerInv (s.startStreaming ctx queue).power := by
  cases queue with
  | capture =>
      show PowerInv (s.start ctx .capture).power
      rw [start_capture_power]
      exact h
  | output =>
      unfold State.startStreaming
      dsimp only
      split
      · rename_i hstreaming
        have hstart := start_output_power (s := s) ctx
        rw [show State.power { s.start ctx .output with streaming := s.streaming + 1 }
          = { (s.start ctx .output).power with streaming := s.streaming + 1 } from rfl, hstart]
        exact h.next hstarting hnew hstreaming
      · rename_i hnone
        exact h.ask ctx hstarting (not_not.mp hnone)

theorem power_stop_streaming (h : PowerInv s.power) {ctx : ι} {queue : Queue} (ready : List Nat)
    (hstreams : ctx ∈ s.streams queue) :
    PowerInv (s.stopStreaming ctx queue ready).power := by
  cases queue with
  | capture =>
      have hsame : (s.stopStreaming ctx .capture ready).power = (s.stop ctx .capture).power := by
        unfold State.stopStreaming
        rw [if_neg fun hboth => (by cases hboth.1)]
        rfl
      rw [hsame, stop_capture_power]
      exact h
  | output =>
      have hlast := h.last hstreams
      have hpos : s.streaming ≠ 0 := by
        have hcard := Finset.card_pos.mpr ⟨ctx, hstreams⟩
        have hcount := h.settled (h.not_starting hstreams)
        change s.streaming = _ at hcount
        change 0 < s.power.outputs.card at hcard
        omega
      have hstop := stop_output_power (s := s) ctx
      have hsame : (s.stopStreaming ctx .output ready).power = { s.power with
          streaming := s.power.streaming - 1
          outputs := s.power.outputs.erase ctx
          puts := if s.power.streaming - 1 = 0 then s.power.puts + 1 else s.power.puts } := by
        unfold State.stopStreaming
        rw [if_pos ⟨rfl, hpos⟩]
        exact congrArg (fun p : Power ι => { p with
          streaming := s.streaming - 1
          puts := if s.streaming - 1 = 0 then s.puts + 1 else s.puts }) hstop
      rw [hsame]
      exact hlast

variable {maps : ColourMaps} {addr : ι → Queue → Nat → Nat}

/-- A step keeps the invariant. -/
theorem power_step (h : PowerInv s.power) {action : Action ι} {s' : State ι}
    (hassumed : Surroundings s action) (hstep : Step maps addr s action s') :
    PowerInv s'.power := by
  cases hstep with
  | startStreaming =>
      obtain ⟨hstarting, _, hnew⟩ := hassumed.videobuf2
      exact power_start_streaming h hstarting hnew
  | started hstarting =>
      rename_i ctx
      obtain ⟨hpm, hactive⟩ := hassumed.runtimePm
      have hgrant := h.grant hstarting hpm hactive
      have hstart := start_output_power (s := s) ctx
      rw [show State.power { s.start ctx .output with starting := none }
        = { (s.start ctx .output).power with starting := none } from rfl, hstart]
      exact hgrant
  | startFailed hstarting => exact h.deny hstarting
  | stopStreaming => exact power_stop_streaming h _ hassumed.videobuf2
  | put hputs => exact h.put hputs
  | resume =>
      rename_i fabric bulk
      obtain ⟨hpm, hactive⟩ := hassumed.runtimePm
      obtain ⟨_, hclocked, hbulk⟩ := Supply.mk.inj (h.supply_at hpm)
      rw [hactive] at hclocked hbulk
      refine h.supplyTo (h.none_inactive hactive) _ _ ?_ ?_
      · cases bulk with
        | true =>
            show (⟨s.active, s.clocked, s.bulk + 1⟩ : Supply) = ⟨false, false, 1⟩
            rw [hactive, hclocked, hbulk]
            rfl
        | false =>
            -- the callback has failed, and only the fabric clocks have moved
            show (⟨s.active, s.clocked, s.bulk + 0⟩ : Supply) = s.pm.supply s.active
            rw [hpm, hactive, hclocked, hbulk]
            rfl
      · intro hirq
        rcases h.handler hirq with hon | hsync
        · cases hclocked.symm.trans hon
        · cases hpm.symm.trans hsync
  | unmask hpm =>
      obtain ⟨hactive, _, hbulk⟩ := Supply.mk.inj (h.supply_at hpm)
      refine h.supplyTo (h.none_inactive hactive) .initialising ⟨s.active, true, s.bulk⟩ ?_
        fun _ => .inl rfl
      rw [hactive, hbulk]
      rfl
  | hwInit hpm =>
      obtain ⟨hactive, hclocked, hbulk⟩ := Supply.mk.inj (h.supply_at hpm)
      refine h.supplyTo (h.none_inactive hactive) .idle ⟨true, s.clocked, s.bulk⟩ ?_
        fun _ => .inl hclocked
      rw [hclocked, hbulk]
      rfl
  | suspend =>
      obtain ⟨hpm, hactive, hrefs⟩ := hassumed.runtimePm
      obtain ⟨_, _, hbulk⟩ := Supply.mk.inj (h.supply_at hpm)
      rw [hactive] at hbulk
      -- without a reference no OUTPUT queue streams; a handler that has begun may still read
      refine h.supplyTo (h.none_held hrefs) .synchronizing ⟨s.active, false, s.bulk⟩ ?_
        fun _ => .inr rfl
      rw [hactive, hbulk]
      rfl
  | synchronized hpm hirq =>
      have hnone := h.none_streams fun hidle => (by cases hpm.symm.trans hidle)
      have hsupply := h.supply_at hpm
      exact h.supplyTo hnone .gating ⟨s.active, s.clocked, s.bulk⟩ hsupply
        fun hbusy => absurd hirq hbusy
  | gateClocks hpm =>
      obtain ⟨_, hclocked, hbulk⟩ := Supply.mk.inj (h.supply_at hpm)
      have hnone := h.none_streams fun hidle => (by cases hpm.symm.trans hidle)
      refine h.supplyTo hnone .idle ⟨false, s.clocked, s.bulk - 1⟩ ?_ fun hbusy => ?_
      · rw [hclocked, hbulk]
        rfl
      -- the handler was waited for, so none runs any more
      · rcases h.handler hbusy with hon | hsync
        · cases hclocked.symm.trans hon
        · cases hpm.symm.trans hsync
  | irqEnter hidle hclocked => exact { h with handler := fun _ => .inl hclocked }
  | irqRead hentered =>
      refine { h with handler := fun _ => h.handler ?_ }
      rw [show s.power.irq = _ from hentered]
      exact fun hidle => (by cases hidle)
  | irqFinish hfinish =>
      rename_i state
      obtain ⟨_, _, _, hframe⟩ := job_finish_frame s state
      rw [hframe]
      exact { h with handler := fun hbusy => absurd rfl hbusy }
  | checkJob hrunner =>
      rename_i ctx bufs
      obtain ⟨_, _, _, hframe⟩ := check_job_frame s ctx bufs
      rw [hframe]
      exact h
  | bufPrepare =>
      rename_i ctx queue b size
      obtain ⟨_, hframe⟩ := buf_prepare_frame s ctx queue b size
      rw [hframe]
      exact h
  | opens | release | sFmt | sSelection | allocate | freeBufs | deviceRun | takeJob | jobInput
  | jobScaler | jobOutput | jobStart => exact h

/-! ## Jobs -/

/-- The part of a state that a job in progress is. -/
structure Jobs (ι : Type) where
  curr : Option (Job ι)
  running : Option ι
  runner : Option (RunPc ι)
  streams : Queue → Finset ι

def State.jobs (s : State ι) : Jobs ι := ⟨s.curr, s.running, s.runner, s.streams⟩

/-- A running job is of a context whose queues stream. The thread in `vpss_device_run` works for it,
and `curr` is what that thread has taken. -/
structure JobInv (j : Jobs ι) : Prop where
  streams : ∀ ctx, j.running = some ctx → ∀ queue, ctx ∈ j.streams queue
  runs : ∀ pc, j.runner = some pc → j.running = some pc.ctx
  curr : ∀ job, j.curr = some job → j.running = some job.ctx
  taken : ∀ pc, j.runner = some pc → j.curr = pc.job

omit [DecidableEq ι] in
/-- No job is in progress. -/
theorem job_idle (streams : Queue → Finset ι) : JobInv ⟨none, none, none, streams⟩ where
  streams := fun _ h => (by cases h)
  runs := fun _ h => (by cases h)
  curr := fun _ h => (by cases h)
  taken := fun _ h => (by cases h)

omit [DecidableEq ι] in
/-- The queues of a running job stream as before. -/
theorem JobInv.stream {j : Jobs ι} (h : JobInv j) (streams : Queue → Finset ι)
    (hkept : ∀ ctx, j.running = some ctx → ∀ queue, ctx ∈ j.streams queue → ctx ∈ streams queue) :
    JobInv { j with streams := streams } :=
  { h with
    streams := fun ctx hrunning queue =>
      hkept ctx hrunning queue (h.streams ctx hrunning queue) }

omit [DecidableEq ι] in
/-- The thread goes on for the job that it has taken. -/
theorem JobInv.move {j : Jobs ι} (h : JobInv j) {pc : RunPc ι} (next : RunPc ι)
    (hrunner : j.runner = some pc) (hctx : next.ctx = pc.ctx) (hjob : next.job = pc.job) :
    JobInv { j with runner := some next } where
  streams := h.streams
  runs := fun other hother => by
    obtain rfl := Option.some.inj hother
    rw [hctx]
    exact h.runs pc hrunner
  curr := h.curr
  taken := fun other hother => by
    obtain rfl := Option.some.inj hother
    rw [hjob]
    exact h.taken pc hrunner

omit [DecidableEq ι] in
/-- The thread is done. -/
theorem JobInv.leave {j : Jobs ι} (h : JobInv j) : JobInv { j with runner := none } where
  streams := h.streams
  runs := fun _ hpc => (by cases hpc)
  curr := h.curr
  taken := fun _ hpc => (by cases hpc)

/-- The job that the thread gives up is the one that runs. -/
theorem job_give_up (h : JobInv s.jobs) {ctx : ι} (hrunner : s.runner = some (.check ctx))
    (src dst : Nat) : JobInv (s.giveUp ⟨ctx, src, dst⟩).jobs := by
  have hrunning : s.running = some ctx := h.runs _ hrunner
  have hcurr : s.curr = none := h.taken _ hrunner
  show JobInv ⟨s.curr, if s.running = some ctx then none else s.running, none, s.streams⟩
  rw [if_pos hrunning, hcurr]
  exact job_idle s.streams

theorem job_check (h : JobInv s.jobs) {ctx : ι} (hrunner : s.runner = some (.check ctx))
    (bufs : Option (Nat × Nat)) : JobInv (s.checkJob ctx bufs).jobs := by
  unfold State.checkJob
  split
  · exact h.leave
  · split
    · exact job_give_up h hrunner _ _
    · split
      · exact job_give_up h hrunner _ _
      · exact h.move (.take ctx) hrunner rfl rfl

/-- The handler finishes no job that is still being programmed. -/
theorem job_finish (h : JobInv s.jobs) (hblock : ∀ pc, s.runner = some pc → pc.job = none)
    (state : BufState) : JobInv (s.vpssJobFinish state).jobs := by
  unfold State.vpssJobFinish
  split
  · exact h
  · rename_i job hcurr
    have hrunning : s.running = some job.ctx := h.curr job hcurr
    have hrunner : s.runner = none := by
      cases hpc : s.runner with
      | none => rfl
      | some pc =>
          have htaken : s.curr = pc.job := h.taken pc hpc
          rw [hcurr, hblock pc hpc] at htaken
          cases htaken
    show JobInv ⟨none, if s.running = some job.ctx then none else s.running, s.runner, s.streams⟩
    rw [if_pos hrunning, hrunner]
    exact job_idle s.streams

/-- A step keeps the invariant. -/
theorem job_step (h : JobInv s.jobs) {action : Action ι} {s' : State ι}
    (hassumed : Surroundings s action) (hstep : Step maps addr s action s') :
    JobInv s'.jobs := by
  cases hstep with
  | startStreaming =>
      rename_i ctx queue
      obtain ⟨_, _, _, streams, hframe, hmore⟩ := start_streaming_frame s ctx queue
      rw [hframe]
      exact h.stream streams fun _ _ side hstreams => hmore side hstreams
  | started hstarting => exact h.stream _ fun _ _ _ hstreams => mem_start.mpr (.inr hstreams)
  | stopStreaming =>
      rename_i ctx queue ready
      obtain ⟨_, _, hframe⟩ := stop_streaming_frame s ctx queue ready
      rw [hframe]
      -- the core has waited for the job of a file before its queue stops
      refine h.stream _ fun other hrunning side hstreams => mem_stop.mpr ⟨hstreams, fun hsame => ?_⟩
      exact hassumed.mem2mem (hsame.1 ▸ hrunning)
  | deviceRun =>
      obtain ⟨hnone, hstreams⟩ := hassumed.mem2mem
      -- no job runs, so none is in the hardware
      have hcurr : s.curr = none := by
        cases hjob : s.curr with
        | none => rfl
        | some job => cases hnone.symm.trans (h.curr job hjob)
      refine ⟨fun ctx hctx queue => ?_, fun pc hpc => ?_, fun job hjob => ?_, fun pc hpc => ?_⟩
      · obtain rfl := Option.some.inj hctx
        exact hstreams queue
      · obtain rfl := Option.some.inj hpc
        rfl
      · cases hcurr.symm.trans hjob
      · obtain rfl := Option.some.inj hpc
        exact hcurr
  | checkJob hrunner => exact job_check h hrunner _
  | takeJob hrunner =>
      have hrunning : s.running = some _ := h.runs _ hrunner
      refine ⟨h.streams, fun pc hpc => ?_, fun job hjob => ?_, fun pc hpc => ?_⟩
      · obtain rfl := Option.some.inj hpc
        exact hrunning
      · obtain rfl := Option.some.inj hjob
        exact hrunning
      · obtain rfl := Option.some.inj hpc
        rfl
  | jobInput hrunner => exact h.move _ hrunner rfl rfl
  | jobScaler hrunner => exact h.move _ hrunner rfl rfl
  | jobOutput hrunner => exact h.move _ hrunner rfl rfl
  | jobStart hrunner => exact h.leave
  | irqFinish hfinish => exact job_finish h hassumed.block _
  | bufPrepare =>
      rename_i ctx queue b size
      obtain ⟨_, hframe⟩ := buf_prepare_frame s ctx queue b size
      rw [hframe]
      exact h
  | opens | release | sFmt | sSelection | allocate | freeBufs | startFailed | put | resume | unmask
  | hwInit | suspend | synchronized | gateClocks | irqEnter | irqRead => exact h

/-! ## Runs -/

variable {actions : List (Action ι)}

theorem run_power (h : (driver maps addr).Run Surroundings actions s) : PowerInv s.power := by
  refine h.invariant (fun s => PowerInv s.power) ?_ ?_
  · rintro _ ⟨regs, coef, fabric, rfl⟩
    exact power_probed regs coef fabric
  · exact fun _ _ _ _ _ ih hassumed hstep => power_step ih hassumed hstep

theorem run_jobs (h : (driver maps addr).Run Surroundings actions s) : JobInv s.jobs := by
  refine h.invariant (fun s => JobInv s.jobs) ?_ ?_
  · rintro _ ⟨regs, coef, fabric, rfl⟩
    exact job_idle _
  · exact fun _ _ _ _ _ ih hassumed hstep => job_step ih hassumed hstep

/-- A job in progress is supplied. -/
theorem job_supplied (h : (driver maps addr).Run Surroundings actions s) {pc : RunPc ι}
    (hrunner : s.runner = some pc) :
    s.power.supply = ⟨true, true, 1⟩ ∧ s.streaming ≠ 0 := by
  have hpower := run_power h
  have hjobs := run_jobs h
  have hstreams : pc.ctx ∈ s.power.outputs :=
    hjobs.streams pc.ctx (hjobs.runs pc hrunner) .output
  refine ⟨hpower.supplied hstreams, ?_⟩
  have hcounted : s.streaming = s.power.outputs.card + _ := hpower.counted
  have hpos := Finset.card_pos.mpr ⟨_, hstreams⟩
  omega

/-! ## Clocks -/

/-- What a resume leaves of the enables of a fabric clock beside those of the clocks of the block:
one when only the fabric clock started, and one too few when only the others did. -/
def Action.left (clock : Fabric) : Action ι → Int
  | .resume fabric bulk => (if fabric clock then 1 else 0) - if bulk then 1 else 0
  | _ => 0

/-- The enables of a fabric clock beside those of the clocks of the block, since the probe. -/
def State.extra (s : State ι) (clock : Fabric) : Int :=
  s.fabric clock - s.bulk - s.atProbe clock

end

/-! ## Two files -/

/-- Where the buffers of two files lie. -/
def bufferAddr (ctx : Bool) (queue : Queue) (b : Nat) : Nat :=
  0x80000000 + (if ctx then 0x4000000 else 0) + (if queue = .capture then 0x2000000 else 0)
    + b * 0x400000

/-- The clocks of the block fail when the first file starts. Then it converts a frame. -/
def firstFrame : List (Action Bool) :=
  [.opens false, .allocate false .output, .allocate false .capture,
    .bufPrepare false .output 0 4147200, .bufPrepare false .capture 0 3110400,
    .bufPrepare false .capture 1 3110400, .startStreaming false .capture,
    .startStreaming false .output, .resume (fun _ => true) false, .startFailed,
    .startStreaming false .output, .resume (fun _ => true) true, .unmask, .hwInit, .started,
    .deviceRun false, .checkJob (some (0, 0)), .takeJob 0 0, .jobInput, .jobScaler, .jobOutput,
    .jobStart, .irqEnter, .irqRead 0x80, .irqFinish]

/-- The first file is closed while the second one starts, which scales a frame down to the upper
lines of its surface. -/
def secondFrame : List (Action Bool) :=
  [.stopStreaming false .capture [1], .freeBufs false .capture, .opens true,
    .sFmt true .capture ⟨1280, 736, pixFmtNv12, 1, 0, 0, rec709⟩,
    .sSelection true .capture .crop ⟨0, 0, 1280, 720⟩, .allocate true .output,
    .allocate true .capture, .bufPrepare true .output 0 4147200,
    .bufPrepare true .capture 3 1413120, .startStreaming true .capture,
    .stopStreaming false .output [], .startStreaming true .output, .put, .started,
    .freeBufs false .output, .release false, .deviceRun true, .checkJob (some (0, 3)),
    .takeJob 0 3, .jobInput, .jobScaler, .jobOutput]

/-- Both frames, up to the start of the second one. A fabric clock fails in the probe. -/
theorem two_frames :
    ∃ s, (driver someMaps bufferAddr).Run SettledSurroundings (firstFrame ++ secondFrame) s ∧
      s.curr = some ⟨true, 0, 3⟩ ∧ (∃ geometry, s.runner = some (.start geometry ⟨true, 0, 3⟩)) ∧
      s.starting = none ∧ s.pm = .idle ∧ s.streaming = 1 ∧ s.puts = 0 ∧ s.atProbe .axi = 0 ∧
      s.atProbe .cfgReg = -1 := by
  refine ⟨?_, ?_, ?_⟩
  rotate_left
  · have hstart : (driver someMaps bufferAddr).Run SettledSurroundings []
        (.probed Bool (fun _ => 0) ⟨0, 0, fun _ => (0, 0)⟩ (· = .axi)) := .start ⟨_, _, _, rfl⟩
    refine hstart.append ?_
    -- The first file has a buffer in each queue, and starts them.
    refine .next ⟨⟨rfl, trivial, trivial, trivial⟩, trivial⟩ .opens ?_
    refine .next ⟨⟨⟨rfl, rfl⟩, trivial, trivial, trivial⟩, trivial⟩ .allocate ?_
    refine .next ⟨⟨⟨rfl, rfl⟩, trivial, trivial, trivial⟩, trivial⟩ .allocate ?_
    refine .next ⟨⟨⟨rfl, rfl⟩, trivial, trivial, trivial⟩, trivial⟩ .bufPrepare ?_
    refine .next ⟨⟨⟨rfl, rfl⟩, trivial, trivial, trivial⟩, trivial⟩ .bufPrepare ?_
    refine .next ⟨⟨⟨rfl, rfl⟩, trivial, trivial, trivial⟩, trivial⟩ .bufPrepare ?_
    refine .next ⟨⟨⟨rfl, rfl, by decide⟩, trivial, trivial, trivial⟩, trivial⟩ .startStreaming ?_
    refine .next ⟨⟨⟨rfl, rfl, by decide⟩, trivial, trivial, trivial⟩, trivial⟩ .startStreaming ?_
    -- The clocks of the block fail once.
    refine .next ⟨⟨trivial, trivial, ⟨rfl, rfl⟩, trivial⟩, trivial⟩ .resume ?_
    refine .next ⟨⟨trivial, trivial, trivial, trivial⟩, trivial⟩ (.startFailed rfl) ?_
    refine .next ⟨⟨⟨rfl, rfl, by decide⟩, trivial, trivial, trivial⟩, trivial⟩ .startStreaming ?_
    refine .next ⟨⟨trivial, trivial, ⟨rfl, rfl⟩, trivial⟩, trivial⟩ .resume ?_
    refine .next ⟨⟨trivial, trivial, trivial, trivial⟩, trivial⟩ (.unmask rfl) ?_
    refine .next ⟨⟨trivial, trivial, trivial, trivial⟩, trivial⟩ (.hwInit rfl) ?_
    refine .next ⟨⟨trivial, trivial, ⟨rfl, rfl⟩, trivial⟩, trivial⟩ (.started rfl) ?_
    -- A frame of the first file.
    refine .next ⟨⟨trivial, ⟨rfl, fun side => by cases side <;> decide⟩, trivial, trivial⟩, trivial⟩
      .deviceRun ?_
    refine .next ⟨⟨trivial, trivial, trivial, trivial⟩, trivial⟩ (.checkJob rfl) ?_
    refine .next ⟨⟨trivial, fun pc hpc => (by cases hpc; decide), trivial, trivial⟩, trivial⟩
      (.takeJob rfl) ?_
    refine .next ⟨⟨trivial, trivial, trivial, trivial⟩, trivial⟩ (.jobInput rfl) ?_
    refine .next ⟨⟨trivial, trivial, trivial, trivial⟩, trivial⟩ (.jobScaler rfl) ?_
    refine .next ⟨⟨trivial, trivial, trivial, trivial⟩, trivial⟩ (.jobOutput rfl) ?_
    refine .next ⟨⟨trivial, trivial, trivial, trivial⟩, trivial⟩ (.jobStart rfl) ?_
    refine .next ⟨⟨trivial, trivial, trivial, trivial⟩, trivial⟩ (.irqEnter rfl rfl) ?_
    refine .next ⟨⟨trivial, trivial, trivial, trivial⟩, trivial⟩ (.irqRead rfl) ?_
    refine .next ⟨⟨trivial, trivial, trivial, fun pc hpc => (by cases hpc)⟩, trivial⟩
      (.irqFinish rfl) ?_
    -- The first file closes, and the second one has another format and a crop.
    refine .next ⟨⟨(by decide : false ∈ _), (by decide : none ≠ _), trivial, trivial⟩, trivial⟩
      .stopStreaming ?_
    refine .next ⟨⟨⟨by decide, by decide⟩, trivial, trivial, trivial⟩, trivial⟩ .freeBufs ?_
    refine .next ⟨⟨rfl, trivial, trivial, trivial⟩, trivial⟩ .opens ?_
    refine .next ⟨⟨⟨rfl, rfl⟩, trivial, trivial, trivial⟩, trivial⟩ .sFmt ?_
    refine .next ⟨⟨⟨rfl, rfl⟩, trivial, trivial, trivial⟩, fun pc hpc => (by cases hpc)⟩
      .sSelection ?_
    refine .next ⟨⟨⟨rfl, rfl⟩, trivial, trivial, trivial⟩, trivial⟩ .allocate ?_
    refine .next ⟨⟨⟨rfl, rfl⟩, trivial, trivial, trivial⟩, trivial⟩ .allocate ?_
    refine .next ⟨⟨⟨rfl, rfl⟩, trivial, trivial, trivial⟩, trivial⟩ .bufPrepare ?_
    refine .next ⟨⟨⟨rfl, rfl⟩, trivial, trivial, trivial⟩, trivial⟩ .bufPrepare ?_
    refine .next ⟨⟨⟨rfl, rfl, by decide⟩, trivial, trivial, trivial⟩, trivial⟩ .startStreaming ?_
    -- The reference of the first session is given back after the second one has asked for its own.
    refine .next ⟨⟨(by decide : false ∈ _), (by decide : none ≠ _), trivial, trivial⟩, trivial⟩
      .stopStreaming ?_
    refine .next ⟨⟨⟨rfl, rfl, by decide⟩, trivial, trivial, trivial⟩, trivial⟩ .startStreaming ?_
    refine .next ⟨⟨trivial, trivial, trivial, trivial⟩, trivial⟩ (.put (by decide)) ?_
    refine .next ⟨⟨trivial, trivial, ⟨rfl, rfl⟩, trivial⟩, trivial⟩ (.started rfl) ?_
    refine .next ⟨⟨⟨by decide, by decide⟩, trivial, trivial, trivial⟩, trivial⟩ .freeBufs ?_
    refine .next ⟨⟨⟨by decide, fun side => by cases side <;> exact ⟨by decide, rfl⟩⟩, trivial,
      trivial, trivial⟩, trivial⟩ .release ?_
    refine .next ⟨⟨trivial, ⟨rfl, fun side => by cases side <;> decide⟩, trivial, trivial⟩, trivial⟩
      .deviceRun ?_
    refine .next ⟨⟨trivial, trivial, trivial, trivial⟩, trivial⟩ (.checkJob rfl) ?_
    refine .next ⟨⟨trivial, fun pc hpc => (by cases hpc; decide), trivial, trivial⟩, trivial⟩
      (.takeJob rfl) ?_
    refine .next ⟨⟨trivial, trivial, trivial, trivial⟩, trivial⟩ (.jobInput rfl) ?_
    refine .next ⟨⟨trivial, trivial, trivial, trivial⟩, trivial⟩ (.jobScaler rfl) ?_
    refine .next ⟨⟨trivial, trivial, trivial, trivial⟩, trivial⟩ (.jobOutput rfl) ?_
    exact .none
  · exact ⟨rfl, ⟨_, rfl⟩, rfl, rfl, rfl, rfl, rfl, rfl⟩

section

variable {ι : Type} [DecidableEq ι] {maps : ColourMaps} {addr : ι → Queue → Nat → Nat}
  {s : State ι} {actions : List (Action ι)}

end

end NanoKvm.VpssSession
