import NanoKvm.Mailbox.RtosSide

/-!
# Both cores

The driver of Linux and the shim of the C906L run side by side on the same registers. Each
keeps the protocol on its own, so every interleaving of their operations does: the cores
exclude each other, an acquisition that gives up leaves the lock to the other core, a slot
is written only while its channel is free, and a message is delivered at most once.
-/

namespace NanoKvm.Mailbox

open Exec

/-- The lock is idle, no interrupt is pending and no message is on its way. The token counters,
the enable bits and everything else start with any value. -/
structure Initial (s : World Memory) : Prop where
  lock : s.regs.lock = 0
  quiet : ∀ side channel, s.regs.pending (Side.cpu side) channel = false
  posted : ∀ side channel, s.regs.posted side channel = []
  taken : ∀ side channel, s.regs.taken side channel = []
  outside : ∀ side, (s.own side).inside = false
  accepted : ∀ side, (s.own side).accepted = []
  delivered : ∀ side channel, (s.own side).delivered channel = []
  waiting : (s.own .linux).priv.waiting = []
  deferred : ∀ channel, (s.own .linux).priv.deferred channel = false
  copied : ∀ channel, (s.own .linux).priv.pending channel = false
  sending : (s.own .rtos).priv.sending = []

/-- One operation of either core. -/
abbrev CoresStep :
    Pair (Op LinuxState LinuxEvent) (Op RtosState RtosEvent) Op.Ret Op.Ret (World Memory) Unit Unit →
    Pair (Op LinuxState LinuxEvent) (Op RtosState RtosEvent) Op.Ret Op.Ret (World Memory) Unit Unit →
    Prop :=
  ParallelStep (@World.Performs Memory Events .linux) (@World.Performs Memory Events .rtos)

section

variable {s : World Memory}

theorem initial_unowned (h : Initial s) (side : Side) : ¬ side.Owns s.regs.lock :=
  fun howns => howns.1 h.lock

theorem initial_valid (h : Initial s) : s.Valid where
  inside side hinside := absurd ((h.outside side).symm.trans hinside) (by decide)
  pending side channel hpending := absurd ((h.quiet side channel).symm.trans hpending) (by decide)
  quiet side channel _ := by rw [h.posted, h.taken]
  nodup side channel := by rw [h.posted]; exact List.nodup_nil
  posted side channel message hmessage := by
    rw [h.posted] at hmessage
    exact absurd hmessage List.not_mem_nil
  accepted side message hmessage := by
    rw [h.accepted] at hmessage
    exact absurd hmessage List.not_mem_nil
  delivered side channel := by
    rw [h.delivered]
    exact List.nil_sublist _
  payload side channel delivery hdelivery := by
    rw [h.delivered] at hdelivery
    exact absurd hdelivery List.not_mem_nil

theorem initial_linux (h : Initial s) : Settled .linux LinuxIdle s := by
  refine ⟨s.own .linux, s.regs.posted .rtos, s.regs.taken .linux,
    ⟨initial_valid h, ⟨initial_unowned h .linux, rfl, rfl⟩, rfl⟩, h.outside .linux, ?_⟩
  constructor
  · rw [h.waiting]
    exact fun message hmessage => absurd hmessage List.not_mem_nil
  · rw [h.waiting]
    exact List.nodup_nil
  · exact fun channel hdeferred => absurd ((h.deferred channel).symm.trans hdeferred) (by decide)
  · exact fun channel hcopied => absurd ((h.copied channel).symm.trans hcopied) (by decide)

theorem initial_rtos (h : Initial s) : Settled .rtos RtosIdle s := by
  refine ⟨s.own .rtos, s.regs.posted .linux, s.regs.taken .rtos,
    ⟨initial_valid h, ⟨initial_unowned h .rtos, rfl, rfl⟩, rfl⟩, h.outside .rtos, ?_⟩
  constructor
  · rw [h.sending]
    exact fun call hcall => absurd hcall List.not_mem_nil
  · rw [h.sending]
    exact List.nodup_nil

/-! ## Identities -/

/-- The messages that a side has accepted have different identities. -/
def Numbered (s : World Memory) : Prop :=
  ∀ side, ((s.own side).accepted.map Message.id).Nodup

/-- An operation of a side accepts at most one message, with a new identity. -/
theorem performs_accepted {side : Side} {operation : Op (Memory side) (Events side)}
    {result : operation.Ret} {next : World Memory}
    (hnext : s.Performs side operation result next) (other : Side) :
    (next.own other).accepted = (s.own other).accepted ∨
      ∃ channel word, (next.own other).accepted =
        (s.own other).accepted ++ [(s.own other).message other channel word] := by
  -- Only the side's own part changes, and only `accept` changes its log.
  have hupdate : ∀ own : Local (Memory side), own.accepted = (s.own side).accepted →
      ((s.update side own).own other).accepted = (s.own other).accepted := by
    intro own hown
    by_cases hother : other = side
    · subst hother
      rw [World.update_own, hown]
    · rw [s.update_own_other hother]
  cases operation with
  | writeLock | writeEnable | clearStatus | set | writeSlot =>
      rw [show next = _ from hnext]
      exact .inl rfl
  | enter | leave | store =>
      rw [show next = _ from hnext]
      exact .inl (hupdate _ rfl)
  | deliver channel message value =>
      rw [show next = _ from hnext]
      cases result with
      | true => exact .inl (hupdate _ rfl)
      | false => exact .inl rfl
  | accept channel word =>
      rw [hnext.2, hnext.1]
      by_cases hother : other = side
      · subst hother
        exact .inr ⟨channel, word, by rw [World.update_own]⟩
      · rw [s.update_own_other hother]
        exact .inl rfl
  | timeout | choose =>
      rw [show next = s from hnext]
      exact .inl rfl
  | readLock | readEnable | readStatus | readSlot | load =>
      rw [hnext.2]
      exact .inl rfl

theorem numbered_performs {side : Side} {operation : Op (Memory side) (Events side)}
    {result : operation.Ret} {next : World Memory} (hvalid : s.Valid)
    (hnext : s.Performs side operation result next) (h : Numbered s) : Numbered next := by
  intro other
  rcases performs_accepted hnext other with hsame | ⟨channel, word, hnew⟩
  · rw [hsame]
    exact h other
  · rw [hnew, List.map_append]
    refine List.nodup_append.2 ⟨h other, List.nodup_singleton _, ?_⟩
    intro first hfirst second hsecond heq
    obtain ⟨message, hmessage, hid⟩ := List.mem_map.1 hfirst
    have hlast : second = (s.own other).accepted.length := by simpa [Local.message] using hsecond
    have hlt := (hvalid.accepted other message hmessage).2
    omega

end

/-! ## Every interleaving -/

/-- The invariant of both cores. -/
structure Sound (s : World Memory) : Prop where
  valid : s.Valid
  numbered : Numbered s

theorem initial_sound {s : World Memory} (h : Initial s) : Sound s := by
  refine ⟨initial_valid h, fun side => ?_⟩
  rw [h.accepted]
  exact List.nodup_nil

theorem sound_performs {side : Side} {s next : World Memory}
    {operation : Op (Memory side) (Events side)} (hallowed : Allowed side s operation)
    {result : operation.Ret} (hnext : s.Performs side operation result next) (h : Sound s) :
    Sound next :=
  ⟨valid_performs h.valid hallowed hnext, numbered_performs h.valid hnext h.numbered⟩

/-- The invariant holds in every state of a run, and so do the preconditions of what both sides
still have to do. -/
theorem cores_run {linuxCount rtosCount : Nat} {start s : World Memory}
    {linux : LinuxCode Unit} {rtos : RtosCode Unit} (hinitial : Initial start)
    (hrun : Relation.ReflTransGen CoresStep
      (linuxStep.iterate linuxCount, rtosMain rtosCount, start) (linux, rtos, s)) :
    Sound s ∧ LinuxRuns linux (fun _ => Settled .linux LinuxIdle) s ∧
      RtosRuns rtos (fun _ => Settled .rtos RtosIdle) s := by
  have hstable := @settled_stable Memory Events .linux LinuxIdle
  have hlinux := Machine.wp_iterate hstable (fun _ => linux_step_settles)
    (initial_linux hinitial) linuxCount
  have hrtos := rtos_main_settles rtosCount (initial_rtos hinitial)
  refine parallel_run (machine Memory Events .linux) (machine Memory Events .rtos) ?_ ?_
    (initial_sound hinitial) hlinux hrtos hrun
  · intro state operation result next hallowed hperform
    exact ⟨rely_performs hallowed hperform, sound_performs hallowed hperform⟩
  · intro state operation result next hallowed hperform
    exact ⟨rely_performs hallowed hperform, sound_performs hallowed hperform⟩

/-- The cores are never both in a critical section. -/
theorem sound_exclusive {s : World Memory} (h : Sound s) :
    ¬ ((s.own .linux).inside = true ∧ (s.own .rtos).inside = true) := by
  rintro ⟨hlinux, hrtos⟩
  exact owns_disjoint (h.valid.inside .linux hlinux) (h.valid.inside .rtos hrtos)

/-- Deliveries of a channel come from different messages. -/
theorem sound_delivered_once {s : World Memory} (h : Sound s) (side : Side) (channel : Channel) :
    (((s.own side).delivered channel).map Delivery.message).Nodup := by
  have htaken := h.valid.delivered side channel
  have hposted := taken_posted h.valid side channel
  exact (h.valid.nodup side channel).sublist (htaken.trans hposted)

/-- What is delivered is a message that the other side has accepted for the channel. -/
theorem sound_delivered {s : World Memory} (h : Sound s) {side : Side} {channel : Channel}
    {delivery : Delivery} (hdelivery : delivery ∈ (s.own side).delivered channel) :
    delivery.message ∈ (s.own side.other).accepted ∧ delivery.message.channel = channel ∧
      delivery.value = handedOn side channel delivery.message := by
  have hmessage := @List.mem_map_of_mem _ _ _ _ Delivery.message hdelivery
  have htaken := (h.valid.delivered side channel).subset hmessage
  have hposted := (taken_posted h.valid side channel).subset htaken
  obtain ⟨haccepted, hchannel⟩ := h.valid.posted side channel _ hposted
  exact ⟨haccepted, hchannel, h.valid.payload side channel delivery hdelivery⟩

/-- In every interleaving of the two cores: they are never both in a critical section, an
acquisition that gives up does not own the lock, a slot is written only while no processor has its
channel enabled, and every delivery is a message accepted by the other side, at most once, and its
payload is unmodified but for a kick that the C906L takes, of which it hands on the low 32 bits. -/
theorem mailbox_integrity {linuxCount rtosCount : Nat} {start s : World Memory}
    {linux : LinuxCode Unit} {rtos : RtosCode Unit} (hinitial : Initial start)
    (hrun : Relation.ReflTransGen CoresStep
      (linuxStep.iterate linuxCount, rtosMain rtosCount, start) (linux, rtos, s)) :
    ¬ ((s.own .linux).inside = true ∧ (s.own .rtos).inside = true) ∧
    (∀ rest, linux = .op .timeout rest → ¬ Side.linux.Owns s.regs.lock) ∧
    (∀ rest, rtos = .op .timeout rest → ¬ Side.rtos.Owns s.regs.lock) ∧
    (∀ channel message rest, linux = .op (.writeSlot channel message) rest →
      ∀ cpu, s.regs.enable cpu channel = false) ∧
    (∀ channel message rest, rtos = .op (.writeSlot channel message) rest →
      ∀ cpu, s.regs.enable cpu channel = false) ∧
    ∀ side, ((s.own side).accepted.map Message.id).Nodup ∧
      ∀ channel, (((s.own side).delivered channel).map Delivery.message).Nodup ∧
        ∀ delivery ∈ (s.own side).delivered channel,
          delivery.message ∈ (s.own side.other).accepted ∧ delivery.message.channel = channel ∧
            delivery.value =
              if side = .rtos ∧ channel = vqKickChannel then
                delivery.message.word.toUInt32.toUInt64
              else delivery.message.word := by
  obtain ⟨hsound, hlinux, hrtos⟩ := cores_run hinitial hrun
  refine ⟨sound_exclusive hsound, ?_, ?_, ?_, ?_, ?_⟩
  · intro rest hnext
    subst hnext
    exact Machine.wp_guard hlinux
  · intro rest hnext
    subst hnext
    exact Machine.wp_guard hrtos
  · intro channel message rest hnext
    subst hnext
    exact (Machine.wp_guard hlinux).2
  · intro channel message rest hnext
    subst hnext
    exact (Machine.wp_guard hrtos).2
  · intro side
    refine ⟨hsound.numbered side, fun channel => ⟨sound_delivered_once hsound side channel, ?_⟩⟩
    exact fun delivery hdelivery => sound_delivered hsound hdelivery

/-! The cores after power-on. -/

def noMessage : Message := { sender := .linux, channel := 0, id := 0, word := 0 }

def resetRegisters : Registers where
  lock := 0
  enable _ _ := false
  raw _ _ := false
  slots _ := noMessage
  posted _ _ := []
  taken _ _ := []

def resetLinux : LinuxState where
  nextToken := 0
  ownerToken := 0
  deferred _ := false
  deferredData _ := noMessage
  subscribed _ := false
  content _ := noMessage
  pending _ := false
  waiting := []

def resetRtos : RtosState where
  lockCounter := 0
  lockFailures := 0
  irqDeferrals := 0
  irqStreak := 0
  irqEnabled := true
  requestDrops := 0
  vqKickDrops := 0
  unexpectedEvents := 0
  sending := []

def resetWorld : World Memory where
  regs := resetRegisters
  own
    | .linux => ⟨false, [], fun _ => [], resetLinux⟩
    | .rtos => ⟨false, [], fun _ => [], resetRtos⟩

theorem reset_world_initial : Initial resetWorld where
  lock := rfl
  quiet _ _ := rfl
  posted _ _ := rfl
  taken _ _ := rfl
  outside side := by cases side <;> rfl
  accepted side := by cases side <;> rfl
  delivered side channel := by cases side <;> rfl
  waiting := rfl
  deferred _ := rfl
  copied _ := rfl
  sending := rfl

/-! The C906L starts, Linux sends one word, and the C906L takes the interrupt. -/

section

variable (channel : Channel) (word : UInt64)

def shimStarted : RtosCode Unit × World Memory :=
  (rtosMain 1).drive (@World.answer Memory Events .rtos .isr) 11 resetWorld

def wordSent : LinuxCode Unit × World Memory :=
  (linuxStep.iterate 1).drive (@World.answer Memory Events .linux (.sendData channel word)) 40
    shimStarted.2

def wordTaken : RtosCode Unit × World Memory :=
  shimStarted.1.drive (@World.answer Memory Events .rtos .isr) 40 (wordSent channel word).2

theorem word_taken_run : Relation.ReflTransGen CoresStep
    (linuxStep.iterate 1, rtosMain 1, resetWorld)
    ((wordSent channel word).1, (wordTaken channel word).1, (wordTaken channel word).2) :=
  (drive_right (@performs_answer Memory Events .rtos .isr) 11 _ _ _).trans
    ((drive_left (@performs_answer Memory Events .linux (.sendData channel word)) 40 _ _ _).trans
      (drive_right (@performs_answer Memory Events .rtos .isr) 40 _ _ _))

end

/-- A control word arrives as it was sent. -/
theorem mailbox_integrity_send :
    ∃ linux rtos s, Relation.ReflTransGen CoresStep
        (linuxStep.iterate 1, rtosMain 1, resetWorld) (linux, rtos, s) ∧
      ∃ delivery, (s.own .rtos).delivered controlChannel = [delivery] ∧
        delivery.value = 0x100000007 ∧ delivery.message ∈ (s.own .linux).accepted ∧
        delivery.value = delivery.message.word := by
  have hlog : (((wordTaken controlChannel 0x100000007).2.own .rtos).delivered controlChannel).map
      Delivery.value = [0x100000007] := by decide +kernel
  obtain ⟨delivery, hdelivery, hvalue⟩ := List.map_eq_singleton_iff.mp hlog
  obtain ⟨-, -, -, -, -, hmessages⟩ :=
    mailbox_integrity reset_world_initial (word_taken_run controlChannel 0x100000007)
  obtain ⟨haccepted, -, hword⟩ :=
    ((hmessages .rtos).2 controlChannel).2 delivery (hdelivery ▸ List.mem_cons_self)
  exact ⟨_, _, _, word_taken_run controlChannel 0x100000007, delivery, hdelivery, hvalue, haccepted,
    hword⟩

/-- A kick whose word does not fit 32 bits arrives as another word. -/
theorem kick_truncated :
    ∃ linux rtos s, Relation.ReflTransGen CoresStep
        (linuxStep.iterate 1, rtosMain 1, resetWorld) (linux, rtos, s) ∧
      ∃ delivery ∈ (s.own .rtos).delivered vqKickChannel,
        delivery.message ∈ (s.own .linux).accepted ∧ delivery.message.word = 0x100000000 ∧
          delivery.value = 0 := by
  have hlog : (((wordTaken vqKickChannel 0x100000000).2.own .rtos).delivered vqKickChannel).map
      (fun delivery => (delivery.message, delivery.value)) =
        [(⟨.linux, vqKickChannel, 0, 0x100000000⟩, 0)] := by decide +kernel
  have haccepted : ((wordTaken vqKickChannel 0x100000000).2.own .linux).accepted =
      [⟨.linux, vqKickChannel, 0, 0x100000000⟩] := by decide +kernel
  obtain ⟨delivery, hdelivery, hpair⟩ := List.map_eq_singleton_iff.mp hlog
  obtain ⟨hmessage, hvalue⟩ := Prod.mk.inj hpair
  refine ⟨_, _, _, word_taken_run vqKickChannel 0x100000000, delivery, ?_, ?_, ?_, hvalue⟩
  · rw [hdelivery]
    exact List.mem_cons_self
  · rw [haccepted, hmessage]
    exact List.mem_cons_self
  · rw [hmessage]

end NanoKvm.Mailbox
