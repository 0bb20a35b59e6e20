import NanoKvm.Media.VpssPower

/-!
# Frames of the VPSS driver

The registers and the coefficient RAM are shared by all files. A frame is nevertheless started with
what one job has programmed from the geometry of its own file, with the coefficients that its scale
calls for, and the output engine stays inside the buffer of that job.
-/

namespace NanoKvm.VpssSession

open Exec Vpss

/-! ## The coefficient RAM -/

/-- The entries of the RAM are those of a table. -/
def CoefPort.Holds (port : CoefPort) (table : List Taps) : Prop :=
  ∀ i < 128, port.ram i = (table.getD i ⟨0, 0, 0, 0⟩).words

/-- The strobe of an entry. -/
theorem strobe_entry (i : Fin 128) :
    BitVec.ofNat 32 (0x5 <<< 8 ||| i) >>> 8 = 5 ∧
      (BitVec.ofNat 32 (0x5 <<< 8 ||| i) &&& 0xff).toNat = i := by
  revert i
  decide +kernel

theorem write_strobe (port : CoefPort) {val : Word} (h : val >>> 8 = 5) :
    port.write scCoef0 val = { port with
      ram := Function.update port.ram (val &&& 0xff).toNat (port.coef1, port.coef2) } := by
  unfold CoefPort.write
  rw [if_neg (by decide), if_neg (by decide), if_pos ⟨rfl, h⟩]

theorem load_row_ram (table : List Taps) (port : CoefPort) {i : Nat} (h : i < 128) :
    (loadRow table port i).ram
      = Function.update port.ram i (table.getD i ⟨0, 0, 0, 0⟩).words := by
  obtain ⟨hstrobe, hindex⟩ := strobe_entry ⟨i, h⟩
  unfold loadRow
  dsimp only at hstrobe hindex ⊢
  rw [write_strobe _ hstrobe, hindex]
  rfl

theorem upload_ram (table : List Taps) (port : CoefPort) {n : Nat} (h : n ≤ 128) :
    ∀ i < n, ((List.range n).foldl (loadRow table) port).ram i
      = (table.getD i ⟨0, 0, 0, 0⟩).words := by
  induction n with
  | zero => exact fun i hi => absurd hi (Nat.not_lt_zero i)
  | succ n ih =>
      intro i hi
      rw [List.range_succ, List.foldl_append]
      show (loadRow table ((List.range n).foldl (loadRow table) port) n).ram i = _
      rw [load_row_ram table _ h]
      by_cases hlast : i = n
      · rw [hlast, Function.update_self]
      · rw [Function.update_of_ne hlast]
        exact ih (Nat.le_of_succ_le h) i (Nat.lt_of_le_of_ne (Nat.le_of_lt_succ hi) hlast)

/-- After `vpss_load_coef` the RAM holds the table that was asked for, if the flag is right. -/
theorem load_coef_holds {flag identity : Bool} {port : CoefPort}
    (h : flag = identity → port.Holds (coefTable identity)) :
    (loadCoef flag identity port).Holds (coefTable identity) := by
  unfold loadCoef
  split
  · rename_i hsame
    exact h hsame
  · exact upload_ram _ port (Nat.le_refl 128)

section

variable {ι : Type}

/-! ## Formats and buffers -/

/-- What `vpss_job_hw` has read of its context. -/
def RunPc.snapshot : RunPc ι → Option (Ctx × Job ι)
  | .scaler geometry job | .output geometry job | .start geometry job => some (geometry, job)
  | _ => none

theorem snapshot_job {pc : RunPc ι} {geometry : Ctx} {job : Job ι}
    (h : pc.snapshot = some (geometry, job)) : pc.job = some job := by
  cases pc <;> cases h <;> rfl

/-- The part of a state that formats, buffers and coefficients are. -/
structure Frames (ι : Type) where
  isOpen : ι → Bool
  geometry : ι → Ctx
  busy : ι → Queue → Bool
  prepared : ι → Queue → Nat → Option Nat
  streams : Queue → Finset ι
  starting : Option ι
  coef : CoefPort
  coefIsIdentity : Bool
  active : Bool
  runner : Option (RunPc ι)

def State.frames (s : State ι) : Frames ι where
  isOpen := s.isOpen
  geometry := s.geometry
  busy := s.busy
  prepared := s.prepared
  streams := s.streams
  starting := s.starting
  coef := s.coef
  coefIsIdentity := s.coefIsIdentity
  active := s.active
  runner := s.runner

/-- Prepared buffers fit the format of their queue, the RAM holds the table that was loaded last,
and what a job has read is still the format of its buffers. -/
structure FrameInv (maps : ColourMaps) (f : Frames ι) : Prop where
  closed : ∀ ctx, f.isOpen ctx = false → ∀ queue, f.busy ctx queue = false
  streams : ∀ ctx queue, ctx ∈ f.streams queue → f.busy ctx queue = true
  starting : ∀ ctx, f.starting = some ctx → f.busy ctx .output = true
  sized : ∀ ctx queue b size, f.prepared ctx queue b = some size →
    f.busy ctx queue = true ∧ sizeimage (f.geometry ctx) queue ≤ size
  reached : ∀ ctx, Reached maps (f.geometry ctx)
  loaded : f.active = true → f.coef.Holds (coefTable f.coefIsIdentity)
  kept : ∀ pc geometry job, f.runner = some pc → pc.snapshot = some (geometry, job) →
    Reached maps geometry ∧ geometry.capture = (f.geometry job.ctx).capture
  surface : ∀ pc job, f.runner = some pc → pc.job = some job →
    (f.prepared job.ctx .capture job.dst).isSome

variable {maps : ColourMaps} {f : Frames ι}

theorem frame_probed (regs : RegisterFile) (coef : CoefPort) (fabric : Fabric → Bool) :
    FrameInv maps (State.probed ι regs coef fabric).frames where
  closed := fun _ _ _ => rfl
  streams := fun _ _ h => absurd h (Finset.notMem_empty _)
  starting := fun _ h => (by cases h)
  sized := fun _ _ _ _ h => (by cases h)
  reached := fun _ => .opened
  loaded := fun h => (by cases h)
  kept := fun _ _ _ h => (by cases h)
  surface := fun _ _ h => (by cases h)

/-- No job is being programmed, or none is any more. -/
theorem FrameInv.free (h : FrameInv maps f) (runner : Option (RunPc ι))
    (hrunner : ∀ pc, runner = some pc → pc.job = none) :
    FrameInv maps { f with runner := runner } :=
  { h with
    kept := fun pc geometry job hpc hsnapshot => by
      cases (hrunner pc hpc).symm.trans (snapshot_job hsnapshot)
    surface := fun pc job hpc hjob => by
      cases (hrunner pc hpc).symm.trans hjob }

/-- The job goes on, with what it has read. -/
theorem FrameInv.move (h : FrameInv maps f) {pc : RunPc ι} (next : RunPc ι)
    (hrunner : f.runner = some pc) (hsnapshot : next.snapshot = pc.snapshot)
    (hjob : next.job = pc.job) :
    FrameInv maps { f with runner := some next } :=
  { h with
    kept := fun other geometry job hother hread => by
      obtain rfl := Option.some.inj hother
      exact h.kept pc geometry job hrunner (hsnapshot ▸ hread)
    surface := fun other job hother htaken => by
      obtain rfl := Option.some.inj hother
      exact h.surface pc job hrunner (hjob ▸ htaken) }

/-- The RAM is loaded, or the device is not active. -/
theorem FrameInv.load (h : FrameInv maps f) (coef : CoefPort) (coefIsIdentity active : Bool)
    (hloaded : active = true → coef.Holds (coefTable coefIsIdentity)) :
    FrameInv maps { f with coef := coef, coefIsIdentity := coefIsIdentity, active := active } :=
  { h with loaded := hloaded }

/-- Queues that stream from now on have buffers. -/
theorem FrameInv.stream (h : FrameInv maps f) (streams : Queue → Finset ι) (starting : Option ι)
    (hstreams : ∀ ctx queue, ctx ∈ streams queue →
      ctx ∈ f.streams queue ∨ f.busy ctx queue = true)
    (hstarting : ∀ ctx, starting = some ctx → f.busy ctx .output = true) :
    FrameInv maps { f with streams := streams, starting := starting } :=
  { h with
    streams := fun ctx queue hctx => (hstreams ctx queue hctx).elim (h.streams ctx queue) id
    starting := hstarting }

variable [DecidableEq ι]

/-- A context gets another geometry, in which its buffers have the size that they had. -/
theorem FrameInv.reshape (h : FrameInv maps f) (ctx : ι) {geometry : Ctx}
    (hreached : Reached maps geometry)
    (hsize : ∀ queue, f.busy ctx queue = true →
      sizeimage geometry queue = sizeimage (f.geometry ctx) queue)
    (hcapture : f.busy ctx .capture = true → geometry.capture = (f.geometry ctx).capture) :
    FrameInv maps { f with geometry := Function.update f.geometry ctx geometry } where
  closed := h.closed
  streams := h.streams
  starting := h.starting
  sized := fun other queue b size hprepared => by
    obtain ⟨hbusy, hfits⟩ := h.sized other queue b size hprepared
    refine ⟨hbusy, ?_⟩
    show sizeimage (Function.update f.geometry ctx geometry other) queue ≤ size
    by_cases hsame : other = ctx
    · subst hsame
      rwa [Function.update_self, hsize queue hbusy]
    · rwa [Function.update_of_ne hsame]
  reached := fun other => by
    show Reached maps (Function.update f.geometry ctx geometry other)
    by_cases hsame : other = ctx
    · subst hsame
      rwa [Function.update_self]
    · rw [Function.update_of_ne hsame]
      exact h.reached other
  loaded := h.loaded
  kept := fun pc read job hpc hsnapshot => by
    obtain ⟨hpast, hsurface⟩ := h.kept pc read job hpc hsnapshot
    refine ⟨hpast, hsurface.trans ?_⟩
    show _ = (Function.update f.geometry ctx geometry job.ctx).capture
    by_cases hsame : job.ctx = ctx
    · obtain ⟨size, hsize⟩ :=
        Option.isSome_iff_exists.mp (h.surface pc job hpc (snapshot_job hsnapshot))
      have hbusy := (h.sized job.ctx .capture job.dst size hsize).1
      rw [hsame] at hbusy ⊢
      rw [Function.update_self]
      exact (hcapture hbusy).symm
    · rw [Function.update_of_ne hsame]
  surface := h.surface

/-- A refused format changes no size, and a format changes the size of its own queue only. -/
theorem s_fmt_size (geometry : Ctx) (queue side : Queue) (busy : Queue → Bool) (pix : PixFormat)
    (hbusy : busy side = true) :
    sizeimage (Vpss.sFmt maps geometry queue busy pix).2 side = sizeimage geometry side ∧
      (side = .capture →
        (Vpss.sFmt maps geometry queue busy pix).2.capture = geometry.capture) := by
  unfold Vpss.sFmt
  split
  · exact ⟨rfl, fun _ => rfl⟩
  · rename_i hfree
    dsimp only
    split
    · exact ⟨rfl, fun _ => rfl⟩
    · cases queue with
      | output =>
          cases side with
          | output => exact absurd hbusy hfree
          | capture => exact ⟨rfl, fun _ => rfl⟩
      | capture =>
          cases side with
          | output => exact ⟨rfl, fun h => (by cases h)⟩
          | capture => exact absurd hbusy hfree

theorem s_selection_size (geometry : Ctx) (queue side : Queue) (target : Target) (r : Rect) :
    sizeimage (Vpss.sSelection geometry queue target r).2 side = sizeimage geometry side ∧
      (Vpss.sSelection geometry queue target r).2.capture = geometry.capture := by
  unfold Vpss.sSelection
  split
  · exact ⟨rfl, rfl⟩
  · cases side with
    | output => exact ⟨rfl, rfl⟩
    | capture => exact ⟨rfl, rfl⟩

/-! ## Steps -/

variable {s : State ι}

/-- A queue with buffers starts, or asks for the clocks. -/
theorem frames_start_streaming (h : FrameInv maps s.frames) {ctx : ι} {queue : Queue}
    (hbusy : s.busy ctx queue = true) :
    FrameInv maps (s.startStreaming ctx queue).frames := by
  have hstart : FrameInv maps (s.start ctx queue).frames := by
    refine h.stream _ s.starting (fun other side hother => ?_) h.starting
    rcases mem_start.mp hother with ⟨rfl, rfl⟩ | hbefore
    · exact .inr hbusy
    · exact .inl hbefore
  cases queue with
  | capture => exact hstart
  | output =>
      unfold State.startStreaming
      dsimp only
      split
      · exact hstart
      · refine h.stream s.streams (some ctx) (fun _ _ => .inl) fun other hother => ?_
        obtain rfl := Option.some.inj hother
        exact hbusy

/-- A buffer is prepared for the format of its queue. -/
theorem frames_prepare (h : FrameInv maps s.frames) {ctx : ι} {queue : Queue} (b size : Nat)
    (hbusy : s.busy ctx queue = true) : FrameInv maps (s.bufPrepare ctx queue b size).frames := by
  unfold State.bufPrepare
  split
  · exact h
  · rename_i hfits
    refine { h with sized := fun other side index plane hprepared => ?_, surface := ?_ }
    · change (if other = ctx ∧ side = queue ∧ index = b then some size
        else s.prepared other side index) = some plane at hprepared
      split at hprepared
      · rename_i hsame
        obtain ⟨rfl, rfl, rfl⟩ := hsame
        obtain rfl := Option.some.inj hprepared
        exact ⟨hbusy, Nat.not_lt.mp hfits⟩
      · exact h.sized other side index plane hprepared
    · intro pc job hpc hjob
      show (if job.ctx = ctx ∧ Queue.capture = queue ∧ job.dst = b then some size
        else s.prepared job.ctx .capture job.dst).isSome
      split
      · rfl
      · exact h.surface pc job hpc hjob

/-- The buffers of a queue are freed, which no job has. -/
theorem frames_free (h : FrameInv maps s.frames) {ctx : ι} {queue : Queue}
    (hstarting : s.starting ≠ some ctx) (hstopped : ctx ∉ s.streams queue)
    (hstreams : ∀ pc job, s.runner = some pc → pc.job = some job →
      job.ctx ∈ s.streams .capture) :
    FrameInv maps (State.frames { s with
      busy := fun other side => if other = ctx ∧ side = queue then false else s.busy other side
      prepared := fun other side =>
        if other = ctx ∧ side = queue then fun _ => none else s.prepared other side }) where
  closed := fun other hclosed side => by
    show (if other = ctx ∧ side = queue then false else s.busy other side) = false
    split
    · rfl
    · exact h.closed other hclosed side
  streams := fun other side hother => by
    show (if other = ctx ∧ side = queue then false else s.busy other side) = true
    rw [if_neg]
    · exact h.streams other side hother
    · rintro ⟨rfl, rfl⟩
      exact hstopped hother
  starting := fun other hother => by
    show (if other = ctx ∧ Queue.output = queue then false else s.busy other .output) = true
    rw [if_neg]
    · exact h.starting other hother
    · rintro ⟨rfl, _⟩
      exact hstarting hother
  sized := fun other side b size hprepared => by
    change (if other = ctx ∧ side = queue then fun _ => none else s.prepared other side) b
      = some size at hprepared
    show (if other = ctx ∧ side = queue then false else s.busy other side) = true ∧ _
    split at hprepared
    · cases hprepared
    · rename_i hother
      rw [if_neg hother]
      exact h.sized other side b size hprepared
  reached := h.reached
  loaded := h.loaded
  kept := h.kept
  surface := fun pc job hpc hjob => by
    show ((if job.ctx = ctx ∧ Queue.capture = queue then fun _ => none
      else s.prepared job.ctx .capture) job.dst).isSome
    rw [if_neg]
    · exact h.surface pc job hpc hjob
    · rintro ⟨hsame, rfl⟩
      exact hstopped (hsame ▸ hstreams pc job hpc hjob)

/-- What is left in `vpss_device_run` after its decision. -/
theorem check_job_runner (s : State ι) (ctx : ι) (bufs : Option (Nat × Nat)) {pc : RunPc ι}
    (hpc : (s.checkJob ctx bufs).runner = some pc) :
    pc = .take ctx ∧ ¬ Rejects (s.geometry ctx) := by
  unfold State.checkJob at hpc
  split at hpc
  · cases hpc
  · split at hpc
    · cases hpc
    · rename_i haccepted
      split at hpc
      · cases hpc
      · exact ⟨(Option.some.inj hpc).symm, haccepted⟩

variable {addr : ι → Queue → Nat → Nat}

/-- A step keeps the invariant. -/
theorem frame_step (hjobs : JobInv s.jobs) (h : FrameInv maps s.frames) {action : Action ι}
    {s' : State ι} (hassumed : Surroundings s action) (hstep : Step maps addr s action s') :
    FrameInv maps s'.frames := by
  cases hstep with
  | opens =>
      rename_i ctx
      have hclosed : s.isOpen ctx = false := hassumed.videobuf2
      -- a file that is not open has no buffers, whatever geometry it had before
      have hempty : ∀ queue, s.busy ctx queue ≠ true := fun queue hbusy => by
        cases (h.closed ctx hclosed queue).symm.trans hbusy
      have hshape := h.reshape ctx (.opened : Reached maps vpssOpen)
        (fun queue hbusy => absurd hbusy (hempty queue)) fun hbusy => absurd hbusy (hempty _)
      refine { hshape with closed := fun other hother => ?_ }
      change Function.update s.isOpen ctx true other = false at hother
      by_cases hsame : other = ctx
      · rw [hsame, Function.update_self] at hother
        cases hother
      · rw [Function.update_of_ne hsame] at hother
        exact h.closed other hother
  | release =>
      rename_i ctx
      obtain ⟨_, hempty⟩ := hassumed.videobuf2
      refine { h with closed := fun other hother queue => ?_ }
      change Function.update s.isOpen ctx false other = false at hother
      by_cases hsame : other = ctx
      · rw [hsame]
        exact (hempty queue).2
      · rw [Function.update_of_ne hsame] at hother
        exact h.closed other hother queue
  | sFmt =>
      rename_i ctx queue pix
      exact h.reshape ctx (.sFmt (h.reached ctx) ..)
        (fun side hbusy => (s_fmt_size _ _ side _ pix hbusy).1)
        (fun hbusy => (s_fmt_size _ _ .capture _ pix hbusy).2 rfl)
  | sSelection =>
      rename_i ctx queue target r
      exact h.reshape ctx (.sSelection (h.reached ctx) ..)
        (fun side _ => (s_selection_size _ queue side target r).1)
        (fun _ => (s_selection_size _ queue .capture target r).2)
  | allocate =>
      rename_i ctx queue
      obtain ⟨_, hopen⟩ := hassumed.videobuf2
      have hmore : ∀ other side, s.busy other side = true →
          (if other = ctx ∧ side = queue then true else s.busy other side) = true := by
        intro other side hbusy
        split
        · rfl
        · exact hbusy
      refine { h with closed := ?_, streams := ?_, starting := ?_, sized := ?_ }
      · intro other hclosed side
        show (if other = ctx ∧ side = queue then true else s.busy other side) = false
        rw [if_neg]
        · exact h.closed other hclosed side
        · rintro ⟨rfl, _⟩
          cases hopen.symm.trans hclosed
      · exact fun other side hother => hmore other side (h.streams other side hother)
      · exact fun other hother => hmore other .output (h.starting other hother)
      · exact fun other side b size hprepared =>
          (h.sized other side b size hprepared).imp_left (hmore other side)
  | freeBufs =>
      obtain ⟨hstarting, hstopped⟩ := hassumed.videobuf2
      -- the queues of a job in progress stream, so its surface is not freed
      refine frames_free h hstarting hstopped fun pc job hpc hjob => ?_
      exact hjobs.streams _ (hjobs.curr job ((hjobs.taken pc hpc).trans hjob)) .capture
  | bufPrepare =>
      obtain ⟨_, hbusy⟩ := hassumed.videobuf2
      exact frames_prepare h _ _ hbusy
  | startStreaming =>
      obtain ⟨_, hbusy, _⟩ := hassumed.videobuf2
      exact frames_start_streaming h hbusy
  | started hstarting =>
      rename_i ctx
      refine h.stream _ none (fun other side hother => ?_) fun other hother => (by cases hother)
      rcases mem_start.mp hother with ⟨rfl, rfl⟩ | hbefore
      · exact .inr (h.starting other hstarting)
      · exact .inl hbefore
  | startFailed hstarting =>
      exact h.stream s.streams none (fun _ _ => .inl) fun other hother => (by cases hother)
  | stopStreaming =>
      rename_i ctx queue ready
      obtain ⟨_, _, hframe⟩ := stop_streaming_frame s ctx queue ready
      rw [hframe]
      exact h.stream _ s.starting (fun other side hother => .inl (mem_stop.mp hother).1) h.starting
  | hwInit hpm =>
      -- `vpss_hw_init` forces the load: the RAM may have lost its entries with the clocks
      have hload : (loadCoef true false s.coef).Holds (coefTable false) :=
        load_coef_holds fun hsame => (by cases hsame)
      exact h.load _ false true fun _ => hload
  | gateClocks hpm => exact h.load _ s.coefIsIdentity false fun hactive => (by cases hactive)
  | deviceRun =>
      refine h.free _ fun pc hpc => ?_
      obtain rfl := Option.some.inj hpc
      rfl
  | checkJob hrunner =>
      rename_i ctx bufs
      have hrunner : ∀ pc, (s.checkJob ctx bufs).runner = some pc → pc = .take ctx ∧ _ :=
        fun _ hpc => check_job_runner s ctx bufs hpc
      obtain ⟨_, _, runner, hframe⟩ := check_job_frame s ctx bufs
      rw [hframe] at hrunner ⊢
      refine h.free runner fun pc hpc => ?_
      rw [(hrunner pc hpc).1]
      rfl
  | takeJob hrunner =>
      rename_i ctx src dst
      have hprepared := (hassumed.mem2mem _ hrunner).2
      refine { h with kept := fun pc geometry job hpc hsnapshot => ?_, surface := ?_ }
      · obtain rfl := Option.some.inj hpc
        cases hsnapshot
      · intro pc job hpc hjob
        obtain rfl := Option.some.inj hpc
        obtain rfl := Option.some.inj hjob
        exact hprepared
  | jobInput hrunner =>
      rename_i job
      refine { h with kept := ?_, surface := ?_ }
      · intro pc geometry taken hpc hsnapshot
        obtain rfl := Option.some.inj hpc
        obtain ⟨rfl, rfl⟩ := Prod.mk.inj (Option.some.inj hsnapshot)
        exact ⟨h.reached job.ctx, rfl⟩
      · intro pc taken hpc hjob
        obtain rfl := Option.some.inj hpc
        exact h.surface _ taken hrunner hjob
  | jobScaler hrunner =>
      rename_i geometry job
      -- the table is loaded unless the flag says that it is there already
      have hloaded := h.load (loadCoef s.coefIsIdentity (!scales geometry) s.coef)
        (!scales geometry) s.active
        fun hactive => load_coef_holds fun hsame => hsame ▸ h.loaded hactive
      exact hloaded.move (.output geometry job) hrunner rfl rfl
  | jobOutput hrunner =>
      rename_i geometry job
      exact h.move (.start geometry job) hrunner rfl rfl
  | jobStart hrunner => exact h.free none fun pc hpc => (by cases hpc)
  | irqFinish hfinish =>
      rename_i state
      obtain ⟨_, _, _, hframe⟩ := job_finish_frame s state
      rw [hframe]
      exact h
  | put | resume | unmask | suspend | synchronized | irqEnter | irqRead => exact h

/-! ## Runs -/

variable {actions : List (Action ι)}

theorem run_frames (h : (driver maps addr).Run Surroundings actions s) :
    FrameInv maps s.frames := by
  refine h.invariant (fun s => FrameInv maps s.frames) ?_ ?_
  · rintro _ ⟨regs, coef, fabric, rfl⟩
    exact frame_probed regs coef fabric
  · exact fun _ _ _ _ hrun ih hassumed hstep => frame_step (run_jobs hrun) ih hassumed hstep

/-- What the registers hold at each point of `vpss_job_hw`, over what they held before. -/
def RunPc.Written (addr : ι → Queue → Nat → Nat) (before regs : RegisterFile)
    (coefIsIdentity : Bool) : RunPc ι → Prop
  | .scaler geometry job =>
      regs = Vpss.jobInput geometry (addr job.ctx .output job.src) before
  | .output geometry job => coefIsIdentity = !scales geometry ∧
      regs = Vpss.jobScaler geometry
        (Vpss.jobInput geometry (addr job.ctx .output job.src) before)
  | .start geometry job => coefIsIdentity = !scales geometry ∧
      regs = Vpss.jobOutput geometry (addr job.ctx .capture job.dst)
        (Vpss.jobScaler geometry (Vpss.jobInput geometry (addr job.ctx .output job.src) before))
  | _ => True

/-- In the state `past` the thread was about to read the geometry of this job, and has read no other
since. -/
structure ReadAt (maps : ColourMaps) (addr : ι → Queue → Nat → Nat)
    (assumed : State ι → Action ι → Prop) (actions : List (Action ι)) (s : State ι) (job : Job ι)
    (past : State ι) : Prop where
  last : (driver maps addr).LastAt assumed (· = .jobInput) past actions s
  job : past.runner = some (.input job)

/-- What has been read was read once, and the registers hold what was made of it. -/
def Reads (maps : ColourMaps) (addr : ι → Queue → Nat → Nat) (assumed : State ι → Action ι → Prop)
    (actions : List (Action ι)) (s : State ι) : Prop :=
  ∀ pc geometry job, s.runner = some pc → pc.snapshot = some (geometry, job) →
    ∃ past, ReadAt maps addr assumed actions s job past ∧ geometry = past.geometry job.ctx ∧
      pc.Written addr past.regs s.regs s.coefIsIdentity

variable {assumed : State ι → Action ι → Prop}

/-- A step beside the thread and its registers. -/
theorem Reads.beside (h : Reads maps addr assumed actions s) {action : Action ι} {s' : State ι}
    (hassumed : assumed s action) (hstep : Step maps addr s action s') (hother : action ≠ .jobInput)
    (hrunner : s'.runner = s.runner) (hregs : s'.regs = s.regs)
    (hflag : s'.coefIsIdentity = s.coefIsIdentity) :
    Reads maps addr assumed (actions ++ [action]) s' := by
  intro pc geometry job hpc hsnapshot
  rw [hrunner] at hpc
  obtain ⟨past, hread, hgeometry, hwritten⟩ := h pc geometry job hpc hsnapshot
  refine ⟨past, ⟨.later hread.last hassumed hother hstep, hread.job⟩, hgeometry, ?_⟩
  rw [hregs, hflag]
  exact hwritten

omit [DecidableEq ι] in
/-- Nothing has been read. -/
theorem reads_nothing [DecidableEq ι] (h : ∀ pc, s.runner = some pc → pc.snapshot = none) :
    Reads maps addr assumed actions s := by
  intro pc geometry job hpc hsnapshot
  cases (h pc hpc).symm.trans hsnapshot

/-- A step keeps it. -/
theorem reads_step (hrun : (driver maps addr).Run Surroundings actions s)
    (h : Reads maps addr assumed actions s) {action : Action ι} {s' : State ι}
    (hassumed : assumed s action) (hstep : Step maps addr s action s')
    (hlast : (driver maps addr).Run assumed actions s) :
    Reads maps addr assumed (actions ++ [action]) s' := by
  have hmade := hstep
  cases hstep with
  | jobInput hrunner =>
      intro pc geometry job hpc hsnapshot
      obtain rfl := Option.some.inj hpc
      obtain ⟨rfl, rfl⟩ := Prod.mk.inj (Option.some.inj hsnapshot)
      -- here the geometry is read
      exact ⟨s, ⟨.now hlast hassumed rfl hmade, hrunner⟩, rfl, rfl⟩
  | jobScaler hrunner =>
      intro pc geometry job hpc hsnapshot
      obtain rfl := Option.some.inj hpc
      obtain ⟨rfl, rfl⟩ := Prod.mk.inj (Option.some.inj hsnapshot)
      obtain ⟨past, hread, hgeometry, hwritten⟩ := h _ _ _ hrunner rfl
      exact ⟨past, ⟨.later hread.last hassumed (fun h => (by cases h)) hmade, hread.job⟩, hgeometry,
        rfl, congrArg (Vpss.jobScaler _) hwritten⟩
  | jobOutput hrunner =>
      intro pc geometry job hpc hsnapshot
      obtain rfl := Option.some.inj hpc
      obtain ⟨rfl, rfl⟩ := Prod.mk.inj (Option.some.inj hsnapshot)
      obtain ⟨past, hread, hgeometry, hflag, hwritten⟩ := h _ _ _ hrunner rfl
      exact ⟨past, ⟨.later hread.last hassumed (fun h => (by cases h)) hmade, hread.job⟩, hgeometry,
        hflag, congrArg (Vpss.jobOutput _ _) hwritten⟩
  | jobStart hrunner => exact reads_nothing fun pc hpc => (by cases hpc)
  | deviceRun =>
      refine reads_nothing fun pc hpc => ?_
      obtain rfl := Option.some.inj hpc
      rfl
  | checkJob hrunner =>
      refine reads_nothing fun pc hpc => ?_
      rw [(check_job_runner s _ _ hpc).1]
      rfl
  | takeJob hrunner =>
      refine reads_nothing fun pc hpc => ?_
      obtain rfl := Option.some.inj hpc
      rfl
  | hwInit hpm =>
      -- while the device resumes, no job is in progress
      refine reads_nothing fun pc hpc => ?_
      have hsupply : s.power.supply = s.pm.supply s.active := (run_power hrun).supply
      rw [hpm, (job_supplied hrun hpc).1] at hsupply
      cases hsupply
  | startStreaming =>
      rename_i ctx queue
      obtain ⟨_, _, _, _, hframe, _⟩ := start_streaming_frame s ctx queue
      rw [hframe] at hmade ⊢
      exact h.beside hassumed hmade (fun h => (by cases h)) rfl rfl rfl
  | stopStreaming =>
      rename_i ctx queue ready
      obtain ⟨_, _, hframe⟩ := stop_streaming_frame s ctx queue ready
      rw [hframe] at hmade ⊢
      exact h.beside hassumed hmade (fun h => (by cases h)) rfl rfl rfl
  | bufPrepare =>
      rename_i ctx queue b size
      obtain ⟨_, hframe⟩ := buf_prepare_frame s ctx queue b size
      rw [hframe] at hmade ⊢
      exact h.beside hassumed hmade (fun h => (by cases h)) rfl rfl rfl
  | irqFinish hfinish =>
      rename_i state
      obtain ⟨_, _, _, hframe⟩ := job_finish_frame s state
      rw [hframe] at hmade ⊢
      exact h.beside hassumed hmade (fun h => (by cases h)) rfl rfl rfl
  | opens | release | sFmt | sSelection | allocate | freeBufs | started | startFailed | put | resume
  | unmask | suspend | synchronized | gateClocks | irqEnter | irqRead =>
      exact h.beside hassumed hmade (fun h => (by cases h)) rfl rfl rfl

theorem run_reads (h : (driver maps addr).Run assumed actions s)
    (hassumed : ∀ s action, assumed s action → Surroundings s action) :
    Reads maps addr assumed actions s := by
  induction h with
  | start hinitial =>
      obtain ⟨regs, coef, fabric, rfl⟩ := hinitial
      exact reads_nothing fun pc hpc => (by cases hpc)
  | step hrun hnext hstep ih => exact reads_step (hrun.mono hassumed) ih hnext hstep hrun

/-- The frame of a job that starts. -/
theorem started_of_reads (h : (driver maps addr).Run assumed actions s)
    (hassumed : ∀ s action, assumed s action → Surroundings s action) {geometry : Ctx} {job : Job ι}
    (hrunner : s.runner = some (.start geometry job)) :
    ∃ past, ReadAt maps addr assumed actions s job past ∧ geometry = past.geometry job.ctx ∧
      s.coefIsIdentity = (!scales geometry) ∧
      Vpss.jobStart s.regs = Vpss.jobHw geometry (addr job.ctx .output job.src)
        (addr job.ctx .capture job.dst) past.regs ∧ s.curr = some job := by
  obtain ⟨past, hread, hgeometry, hflag, hregs⟩ := run_reads h hassumed _ _ _ hrunner rfl
  exact ⟨past, hread, hgeometry, hflag, congrArg Vpss.jobStart hregs,
    (run_jobs (h.mono hassumed)).taken _ hrunner⟩

/-! ## The geometry of a frame -/

/-- What was checked is accepted, and what was read of it too. -/
def Accepted (s : State ι) : Prop :=
  ∀ pc, s.runner = some pc → (∀ ctx, pc.checked = some ctx → ¬ Rejects (s.geometry ctx)) ∧
    ∀ geometry job, pc.snapshot = some (geometry, job) → ¬ Rejects geometry

omit [DecidableEq ι] in
/-- Only the geometries and the thread in `vpss_device_run` matter. -/
theorem Accepted.same {s' : State ι} (h : Accepted s)
    (hgeometry : ∀ pc ctx, s.runner = some pc → pc.checked = some ctx →
      s'.geometry ctx = s.geometry ctx) (hrunner : s'.runner = s.runner) : Accepted s' := by
  intro pc hpc
  obtain ⟨hchecked, hread⟩ := h pc (hrunner ▸ hpc)
  refine ⟨fun ctx hctx => ?_, hread⟩
  rw [hgeometry pc ctx (hrunner ▸ hpc) hctx]
  exact hchecked ctx hctx

/-- While a job is checked, its queues have buffers. -/
theorem checked_busy (h : (driver maps addr).Run Surroundings actions s) {pc : RunPc ι} {ctx : ι}
    (hrunner : s.runner = some pc) (hchecked : pc.checked = some ctx) (queue : Queue) :
    s.isOpen ctx = true ∧ s.busy ctx queue = true := by
  have hframes := run_frames h
  have hctx : pc.ctx = ctx := by
    cases pc with
    | take | input => exact Option.some.inj hchecked
    | check | scaler | output | start => cases hchecked
  have hjobs := run_jobs h
  have hstreams : pc.ctx ∈ s.streams queue := hjobs.streams pc.ctx (hjobs.runs pc hrunner) queue
  have hbusy := hframes.streams pc.ctx queue hstreams
  rw [hctx] at hbusy
  refine ⟨?_, hbusy⟩
  by_contra hclosed
  have hempty := hframes.closed ctx (Bool.eq_false_iff.mpr hclosed) queue
  cases hempty.symm.trans hbusy

theorem accepted_step (hrun : (driver maps addr).Run Surroundings actions s) (h : Accepted s)
    {action : Action ι} {s' : State ι} (hassumed : Surroundings s action)
    (hsettled : Settled s action) (hstep : Step maps addr s action s') : Accepted s' := by
  have hkeep : ∀ s' : State ι, s'.runner = s.runner → s'.geometry = s.geometry → Accepted s' :=
    fun s' hrunner hgeometry => h.same (fun _ ctx _ _ => congrFun hgeometry ctx) hrunner
  cases hstep with
  | opens =>
      -- the file of a job in progress is open
      have hclosed := hassumed.videobuf2
      refine h.same (fun pc ctx hpc hchecked => Function.update_of_ne ?_ ..) rfl
      rintro rfl
      cases (checked_busy hrun hpc hchecked .output).1.symm.trans hclosed
  | sFmt =>
      rename_i ctx queue pix
      refine h.same (fun pc other hpc hchecked => ?_) rfl
      show Function.update s.geometry ctx _ other = s.geometry other
      by_cases hsame : other = ctx
      -- S_FMT is refused while the queue has buffers, as it does during a job
      · subst hsame
        rw [Function.update_self]
        unfold Vpss.sFmt
        rw [if_pos (checked_busy hrun hpc hchecked queue).2]
      · rw [Function.update_of_ne hsame]
  | sSelection =>
      refine h.same (fun pc ctx hpc hchecked => Function.update_of_ne ?_ ..) rfl
      rintro rfl
      exact hsettled pc hpc hchecked
  | deviceRun =>
      intro pc hpc
      obtain rfl := Option.some.inj hpc
      exact ⟨fun ctx h => (by cases h), fun geometry job h => (by cases h)⟩
  | checkJob hrunner =>
      rename_i ctx bufs
      intro pc hpc
      obtain ⟨rfl, haccepted⟩ := check_job_runner s ctx bufs hpc
      obtain ⟨_, _, _, hframe⟩ := check_job_frame s ctx bufs
      refine ⟨fun other hother => ?_, fun geometry job h => (by cases h)⟩
      obtain rfl := Option.some.inj hother
      rw [hframe]
      exact haccepted
  | takeJob hrunner =>
      intro pc hpc
      obtain rfl := Option.some.inj hpc
      exact ⟨(h _ hrunner).1, fun geometry job h => (by cases h)⟩
  | jobInput hrunner =>
      intro pc hpc
      obtain rfl := Option.some.inj hpc
      refine ⟨fun ctx h => (by cases h), fun geometry job hread => ?_⟩
      obtain ⟨rfl, rfl⟩ := Prod.mk.inj (Option.some.inj hread)
      exact (h _ hrunner).1 _ rfl
  | jobScaler hrunner =>
      intro pc hpc
      obtain rfl := Option.some.inj hpc
      exact ⟨fun ctx h => (by cases h), (h _ hrunner).2⟩
  | jobOutput hrunner =>
      intro pc hpc
      obtain rfl := Option.some.inj hpc
      exact ⟨fun ctx h => (by cases h), (h _ hrunner).2⟩
  | jobStart hrunner =>
      intro pc hpc
      cases hpc
  | startStreaming =>
      rename_i ctx queue
      obtain ⟨_, _, _, _, hframe, _⟩ := start_streaming_frame s ctx queue
      rw [hframe]
      exact hkeep _ rfl rfl
  | stopStreaming =>
      rename_i ctx queue ready
      obtain ⟨_, _, hframe⟩ := stop_streaming_frame s ctx queue ready
      rw [hframe]
      exact hkeep _ rfl rfl
  | bufPrepare =>
      rename_i ctx queue b size
      obtain ⟨_, hframe⟩ := buf_prepare_frame s ctx queue b size
      rw [hframe]
      exact hkeep _ rfl rfl
  | irqFinish hfinish =>
      rename_i state
      obtain ⟨_, _, _, hframe⟩ := job_finish_frame s state
      rw [hframe]
      exact hkeep _ rfl rfl
  | release | allocate | freeBufs | started | startFailed | put | resume | unmask | hwInit | suspend
  | synchronized | gateClocks | irqEnter | irqRead => exact hkeep _ rfl rfl

/-! ## Frames -/

/-- In a run in which no S_SELECTION falls between the check of a job and the reading of its
geometry, every frame is started with a geometry that the scaler can produce. -/
theorem frame_accepted (h : (driver maps addr).Run SettledSurroundings actions s) {s' : State ι}
    (hstep : Step maps addr s .jobStart s') :
    ∃ past job, ReadAt maps addr SettledSurroundings actions s job past ∧ s.curr = some job ∧
      Geometry (past.geometry job.ctx) ∧
      s'.regs = Vpss.jobHw (past.geometry job.ctx) (addr job.ctx .output job.src)
        (addr job.ctx .capture job.dst) past.regs := by
  have hassumed : ∀ (s : State ι) (action : Action ι), SettledSurroundings s action →
      Surroundings s action := fun _ _ h => h.1
  have haccepted : Accepted s := by
    refine h.invariant Accepted ?_ fun actions s action s' hrun ih hnext hnextStep => ?_
    · rintro _ ⟨regs, coef, fabric, rfl⟩ pc hpc
      cases hpc
    · exact accepted_step (hrun.mono hassumed) ih hnext.1 hnext.2 hnextStep
  cases hstep with
  | jobStart hrunner =>
      rename_i geometry job
      obtain ⟨past, hread, rfl, _, hregs, hcurr⟩ := started_of_reads h hassumed hrunner
      have hreached := ((run_frames (h.mono hassumed)).kept _ _ job hrunner rfl).1
      have hgeometry := (haccepted _ hrunner).2 _ job rfl
      exact ⟨past, job, hread, hcurr, geometry_of_run (reached_inv hreached) hgeometry, hregs⟩

theorem frame_accepted_second :
    ∃ (s s' past : State Bool),
      (driver someMaps bufferAddr).Run SettledSurroundings (firstFrame ++ secondFrame) s ∧
      Step someMaps bufferAddr s .jobStart s' ∧ Geometry (past.geometry true) ∧
      s'.regs = Vpss.jobHw (past.geometry true) 0x84000000 0x86c00000 past.regs := by
  obtain ⟨s, hrun, hcurr, ⟨_, hrunner⟩, _⟩ := two_frames
  have hstart : Step someMaps bufferAddr s .jobStart _ := .jobStart hrunner
  obtain ⟨past, job, _, hjob, hgeometry, hregs⟩ := frame_accepted hrun hstart
  obtain rfl := Option.some.inj (hcurr.symm.trans hjob)
  exact ⟨s, _, past, hrun, hstart, hgeometry, hregs⟩

end

end NanoKvm.VpssSession
