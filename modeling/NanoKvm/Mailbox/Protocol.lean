import Mathlib.Data.List.Sublists
import NanoKvm.Mailbox.Registers

/-!
# The protocol of the shared registers

`Valid` is the invariant of the registers and of the logs of both sides, and `Allowed` says
what a side may do with them: registers are written only by the owner of the lock, a slot
only while no processor has its channel enabled, an acquisition that gives up does not own
the lock. `Rely` is all that one side has to know about the steps of the other. An allowed
operation keeps the invariant and is within the rely of the other side, so each side can
be verified on its own.
-/

namespace NanoKvm.Mailbox

open Exec

/-! ## Tokens -/

/-- The token namespaces are disjoint. -/
theorem owns_disjoint {side : Side} {field : UInt16} (h : side.Owns field) :
    ¬ side.other.Owns field := by
  intro hother
  have hpos : field.toNat ≠ 0 := fun hzero => h.1 (UInt16.toNat_inj.1 hzero)
  cases side with
  | linux =>
      have hlow : field.toNat < 256 := h.2
      have hhigh : field.toNat % 256 = 0 := hother.2
      omega
  | rtos =>
      have hhigh : field.toNat % 256 = 0 := h.2
      have hlow : field.toNat < 256 := hother.2
      omega

/-- A write of a side has no effect on the other side's lock. -/
theorem hwspin_write_held {side : Side} {field token : UInt16} (htoken : side.Owns token)
    (hfield : side.other.Owns field) : hwspinWrite field token = field := by
  have hidle : field ≠ 0 := hfield.1
  have hother : field ≠ token := by
    intro heq
    rw [heq] at hfield
    exact owns_disjoint htoken hfield
  rw [hwspinWrite, if_neg hidle, if_neg hother]

/-- A write of a side never gives the lock to the other side. -/
theorem hwspin_write_free {side : Side} {field token : UInt16} (htoken : side.Owns token)
    (hfield : ¬ side.other.Owns field) : ¬ side.other.Owns (hwspinWrite field token) := by
  unfold hwspinWrite
  split
  · exact owns_disjoint htoken
  · split
    · exact fun hzero => hzero.1 rfl
    · exact hfield

theorem next_counter_ne_zero (counter : UInt8) : nextCounter counter ≠ 0 := by
  unfold nextCounter
  split
  · decide
  · assumption

/-- The tokens of Linux. -/
theorem linux_token_owns (counter : UInt8) : Side.linux.Owns (nextCounter counter).toUInt16 := by
  have hne := next_counter_ne_zero counter
  have hpos : (nextCounter counter).toNat ≠ 0 := fun hzero => hne (UInt8.toNat_inj.1 hzero)
  refine ⟨fun hzero => hpos ?_, ?_⟩
  · have hnat := congrArg UInt16.toNat hzero
    simpa using hnat
  · show (nextCounter counter).toUInt16.toNat < 256
    simpa using (nextCounter counter).toNat_lt

/-- The tokens of the C906L. -/
theorem rtos_token_owns (counter : UInt8) :
    Side.rtos.Owns ((nextCounter counter).toUInt16 <<< 8) := by
  have hne := next_counter_ne_zero counter
  have hpos : (nextCounter counter).toNat ≠ 0 := fun hzero => hne (UInt8.toNat_inj.1 hzero)
  have hlt := (nextCounter counter).toNat_lt
  have hvalue : ((nextCounter counter).toUInt16 <<< 8).toNat = (nextCounter counter).toNat * 256 := by
    simp [Nat.shiftLeft_eq]
    omega
  refine ⟨fun hzero => ?_, ?_⟩
  · have hnat := congrArg UInt16.toNat hzero
    rw [hvalue] at hnat
    simp at hnat
    omega
  · show ((nextCounter counter).toUInt16 <<< 8).toNat % 256 = 0
    rw [hvalue]
    omega

/-! ## The invariant -/

/-- What a side hands on of a message that it receives. Of a kick the C906L takes the 32 bits of a
queue number. -/
def handedOn (side : Side) (channel : Channel) (message : Message) : UInt64 :=
  if side = .rtos ∧ channel = vqKickChannel then message.word.toUInt32.toUInt64 else message.word

variable {Private Event : Side → Type}

/-- The invariant of the registers and the logs. -/
structure World.Valid (s : World Private) : Prop where
  inside : ∀ side, (s.own side).inside = true → side.Owns s.regs.lock
  pending : ∀ side channel, s.regs.pending side.cpu channel = true →
    s.regs.posted side channel = s.regs.taken side channel ++ [s.regs.slots channel]
  quiet : ∀ side channel, s.regs.pending side.cpu channel = false →
    s.regs.posted side channel = s.regs.taken side channel
  nodup : ∀ side channel, (s.regs.posted side channel).Nodup
  posted : ∀ side channel message, message ∈ s.regs.posted side channel →
    message ∈ (s.own side.other).accepted ∧ message.channel = channel
  accepted : ∀ side message, message ∈ (s.own side).accepted →
    message.sender = side ∧ message.id < (s.own side).accepted.length
  delivered : ∀ side channel,
    (((s.own side).delivered channel).map Delivery.message).Sublist (s.regs.taken side channel)
  payload : ∀ side channel delivery, delivery ∈ (s.own side).delivered channel →
    delivery.value = handedOn side channel delivery.message

/-- The slot holds a message that the side may post to the other one. -/
structure World.Postable (s : World Private) (side : Side) (channel : Channel) : Prop where
  disabled : s.regs.enable side.cpu channel = false
  enabled : s.regs.enable side.other.cpu channel = true
  clear : s.regs.raw side.other.cpu channel = false
  unposted : s.regs.slots channel ∉ s.regs.posted side.other channel
  accepted : s.regs.slots channel ∈ (s.own side).accepted
  channel : (s.regs.slots channel).channel = channel

/-- What a side may do. -/
def Allowed (side : Side) (s : World Private) : Op (Private side) (Event side) → Prop
  | .writeLock token => side.Owns token ∧ (s.own side).inside = false
  | .writeEnable cpu bits => side.Owns s.regs.lock ∧
      ∀ channel, s.regs.raw cpu channel = true → bits channel = s.regs.enable cpu channel
  | .clearStatus cpu bits => side.Owns s.regs.lock ∧
      (cpu = side.cpu ∨ ∀ channel, bits channel = true → s.regs.pending cpu channel = false)
  | .set bits => side.Owns s.regs.lock ∧
      ∀ channel, bits channel = true → s.Postable side channel
  | .writeSlot channel _ => side.Owns s.regs.lock ∧ ∀ cpu, s.regs.enable cpu channel = false
  | .enter => side.Owns s.regs.lock
  | .timeout => ¬ side.Owns s.regs.lock
  | .deliver channel message value => value = handedOn side channel message ∧
      (((s.own side).delivered channel).map Delivery.message ++ [message]).Sublist
        (s.regs.taken side channel)
  | _ => True

/-- What a side knows of the steps of the other side. -/
structure Rely (side : Side) (s next : World Private) : Prop where
  own : next.own side = s.own side
  held : side.Owns s.regs.lock → next.regs = s.regs
  free : ¬ side.Owns s.regs.lock → ¬ side.Owns next.regs.lock
  posted : next.regs.posted side.other = s.regs.posted side.other
  taken : next.regs.taken side = s.regs.taken side
  valid : s.Valid → next.Valid

/-- The machine of a side. -/
def machine (Private Event : Side → Type) (side : Side) :
    Machine (Op (Private side) (Event side)) Op.Ret (World Private) where
  perform := World.Performs side
  interfere := Rely side

/-! ## Allowed operations keep the invariant -/

section

variable {side : Side} {s : World Private}

@[simp] theorem World.update_regs (s : World Private) (side : Side) (own : Local (Private side)) :
    (s.update side own).regs = s.regs := rfl

@[simp] theorem World.update_own (s : World Private) (side : Side) (own : Local (Private side)) :
    (s.update side own).own side = own := by
  simp [World.update]

theorem World.update_own_other (s : World Private) {side other : Side} (h : other ≠ side)
    (own : Local (Private side)) : (s.update side own).own other = s.own other := by
  simp [World.update, h]

/-- A local step that leaves the logs alone keeps the invariant. -/
theorem valid_update (h : s.Valid) {own : Local (Private side)}
    (hinside : own.inside = true → side.Owns s.regs.lock)
    (haccepted : own.accepted = (s.own side).accepted)
    (hdelivered : own.delivered = (s.own side).delivered) : (s.update side own).Valid := by
  have hsame : ∀ other, ((s.update side own).own other).accepted = (s.own other).accepted ∧
      ((s.update side own).own other).delivered = (s.own other).delivered := by
    intro other
    by_cases hother : other = side
    · subst hother
      simp [haccepted, hdelivered]
    · simp [s.update_own_other hother own]
  refine ⟨?_, h.pending, h.quiet, h.nodup, ?_, ?_, ?_, ?_⟩
  · intro other hother
    by_cases heq : other = side
    · subst heq
      exact hinside (by simpa using hother)
    · rw [s.update_own_other heq own] at hother
      exact h.inside other hother
  · intro other channel message hmessage
    rw [(hsame other.other).1]
    exact h.posted other channel message hmessage
  · intro other message hmessage
    rw [(hsame other).1] at hmessage ⊢
    exact h.accepted other message hmessage
  · intro other channel
    rw [(hsame other).2]
    exact h.delivered other channel
  · intro other channel delivery hdelivery
    rw [(hsame other).2] at hdelivery
    exact h.payload other channel delivery hdelivery

/-- The lock is written. -/
theorem valid_write_lock (h : s.Valid) {token : UInt16} (htoken : side.Owns token)
    (hinside : (s.own side).inside = false) :
    World.Valid { s with
      regs := { s.regs with lock := hwspinWrite s.regs.lock token } } := by
  refine ⟨?_, h.pending, h.quiet, h.nodup, h.posted, h.accepted, h.delivered, h.payload⟩
  intro other hother
  have hlock := h.inside other hother
  by_cases heq : other = side
  · subst heq
    exact absurd (hother.symm.trans hinside) (by decide)
  · have hside : other = side.other := by
      cases other <;> cases side <;> first | rfl | exact absurd rfl heq
    subst hside
    show side.other.Owns (hwspinWrite s.regs.lock token)
    rw [hwspin_write_held htoken hlock]
    exact hlock

/-- A slot is written while its channel is disabled. -/
theorem valid_write_slot (h : s.Valid) {channel : Channel} (message : Message)
    (hdisabled : ∀ cpu, s.regs.enable cpu channel = false) :
    World.Valid { s with regs := s.regs.writeSlot channel message } := by
  refine ⟨h.inside, ?_, h.quiet, h.nodup, h.posted, h.accepted, h.delivered, h.payload⟩
  intro other target hpending
  have hne : target ≠ channel := by
    intro heq
    rw [heq] at hpending
    simp [Registers.pending, Registers.writeSlot, hdisabled] at hpending
  show s.regs.posted other target =
    s.regs.taken other target ++ [Function.update s.regs.slots channel message target]
  rw [Function.update_of_ne hne]
  exact h.pending other target hpending

/-- Enable bits change only where no status is raised. -/
theorem pending_write_enable {g : Registers} {cpu : Cpu} {bits : Bits}
    (hraw : ∀ channel, g.raw cpu channel = true → bits channel = g.enable cpu channel) :
    (g.writeEnable cpu bits).pending = g.pending := by
  funext other channel
  unfold Registers.pending Registers.writeEnable
  by_cases hcpu : other = cpu
  · subst hcpu
    cases hstatus : g.raw other channel with
    | false => simp
    | true => simp [hraw channel hstatus]
  · simp [Function.update_of_ne hcpu]

theorem valid_write_enable (h : s.Valid) {cpu : Cpu} {bits : Bits}
    (hraw : ∀ channel, s.regs.raw cpu channel = true →
      bits channel = s.regs.enable cpu channel) :
    World.Valid { s with regs := s.regs.writeEnable cpu bits } := by
  have hpending := pending_write_enable hraw
  refine ⟨h.inside, ?_, ?_, h.nodup, h.posted, h.accepted, h.delivered, h.payload⟩
  · intro other channel hother
    rw [hpending] at hother
    exact h.pending other channel hother
  · intro other channel hother
    rw [hpending] at hother
    exact h.quiet other channel hother

/-- What is taken has been posted. -/
theorem taken_posted (h : s.Valid) (other : Side) (channel : Channel) :
    (s.regs.taken other channel).Sublist (s.regs.posted other channel) := by
  cases hpending : s.regs.pending other.cpu channel with
  | true =>
      rw [h.pending other channel hpending]
      exact List.sublist_append_left _ _
  | false =>
      rw [h.quiet other channel hpending]

/-- Interrupts are acknowledged. -/
theorem valid_clear_status (h : s.Valid) (cpu : Cpu) (bits : Bits) :
    World.Valid { s with regs := s.regs.clearStatus cpu bits } := by
  have hpending : ∀ other channel, (s.regs.clearStatus cpu bits).pending other channel =
      (s.regs.pending other channel && !(decide (other = cpu) && bits channel)) := by
    intro other channel
    unfold Registers.clearStatus Registers.pending
    by_cases hcpu : other = cpu
    · subst hcpu
      cases hbits : bits channel <;> simp [hbits]
    · simp [hcpu]
  refine ⟨h.inside, ?_, ?_, h.nodup, h.posted, h.accepted, ?_, h.payload⟩
  · intro other channel hother
    rw [hpending, Bool.and_eq_true] at hother
    have hkept : ¬ (other.cpu = cpu ∧ bits channel = true ∧ s.regs.pending cpu channel = true) := by
      intro hcleared
      simp [hcleared.1, hcleared.2.1] at hother
    show s.regs.posted other channel = (if _ then _ else _) ++ [s.regs.slots channel]
    rw [if_neg hkept]
    exact h.pending other channel hother.1
  · intro other channel hother
    show s.regs.posted other channel = if _ then _ else _
    split
    · rfl
    · rename_i hkept
      refine h.quiet other channel ?_
      rw [hpending] at hother
      by_cases hcpu : other.cpu = cpu
      · simp only [hcpu, true_and, not_and] at hkept
        cases hbits : bits channel with
        | true => simpa [hcpu] using hkept hbits
        | false => simpa [hbits] using hother
      · simpa [hcpu] using hother
  · intro other channel
    show (((s.own other).delivered channel).map Delivery.message).Sublist (if _ then _ else _)
    split
    · exact (h.delivered other channel).trans (taken_posted h other channel)
    · exact h.delivered other channel

/-- A message is posted. -/
theorem valid_set (h : s.Valid) {bits : Bits}
    (hpostable : ∀ channel, bits channel = true → s.Postable side channel) :
    World.Valid { s with regs := s.regs.set bits } := by
  -- The side itself has the channel disabled, so only the other side sees an interrupt.
  have hcases : ∀ other channel, bits channel = true →
      s.regs.enable (Side.cpu other) channel = true →
      other = side.other ∧ s.Postable side channel := by
    intro other channel hbits henabled
    have hpost := hpostable channel hbits
    refine ⟨?_, hpost⟩
    by_cases heq : other = side
    · rw [heq, hpost.disabled] at henabled
      exact absurd henabled (by decide)
    · cases other <;> cases side <;> first | rfl | exact absurd rfl heq
  have hunposted : ∀ other channel, bits channel = true →
      s.regs.enable (Side.cpu other) channel = true →
      s.regs.pending other.cpu channel = false ∧
        s.regs.slots channel ∉ s.regs.posted other channel := by
    intro other channel hbits henabled
    obtain ⟨heq, hpost⟩ := hcases other channel hbits henabled
    subst heq
    exact ⟨by simp [Registers.pending, hpost.clear], hpost.unposted⟩
  refine ⟨h.inside, ?_, ?_, ?_, ?_, h.accepted, h.delivered, h.payload⟩
  · intro other channel hpending
    show (if _ then _ else _) = s.regs.taken other channel ++ [s.regs.slots channel]
    have hpending : (s.regs.raw other.cpu channel || bits channel) = true ∧
        s.regs.enable other.cpu channel = true := by
      simpa [Registers.pending, Registers.set] using hpending
    cases hbits : bits channel with
    | true =>
        rw [if_pos ⟨rfl, hpending.2⟩,
          h.quiet other channel (hunposted other channel hbits hpending.2).1]
    | false =>
        rw [if_neg (by simp)]
        refine h.pending other channel ?_
        simpa [Registers.pending, hbits] using hpending
  · intro other channel hpending
    show (if _ then _ else _) = s.regs.taken other channel
    have hquiet : s.regs.pending other.cpu channel = false ∧
        ¬ (bits channel = true ∧ s.regs.enable other.cpu channel = true) := by
      simp only [Registers.pending, Registers.set] at hpending ⊢
      cases hraw : s.regs.raw other.cpu channel <;> cases hbits : bits channel <;>
        cases henable : s.regs.enable other.cpu channel <;> simp_all
    rw [if_neg hquiet.2]
    exact h.quiet other channel hquiet.1
  · intro other channel
    show (if _ then _ else _ : List Message).Nodup
    split
    · rename_i hposted
      have hfresh := (hunposted other channel hposted.1 hposted.2).2
      refine List.nodup_append.2 ⟨h.nodup other channel, List.nodup_singleton _, ?_⟩
      intro first hfirst second hsecond heq
      rw [List.mem_singleton] at hsecond
      rw [heq, hsecond] at hfirst
      exact hfresh hfirst
    · exact h.nodup other channel
  · intro other channel message hmessage
    have hmessage : message ∈ (if bits channel = true ∧ s.regs.enable other.cpu channel = true then
        s.regs.posted other channel ++ [s.regs.slots channel]
      else s.regs.posted other channel) := hmessage
    split at hmessage
    · rename_i hposted
      rcases List.mem_append.1 hmessage with hold | hnew
      · exact h.posted other channel message hold
      · obtain ⟨heq, hpost⟩ := hcases other channel hposted.1 hposted.2
        rw [List.mem_singleton] at hnew
        rw [hnew, heq, Side.other_other]
        exact ⟨hpost.accepted, hpost.channel⟩
    · exact h.posted other channel message hmessage

/-- A client hands over a message. -/
theorem valid_accept (h : s.Valid) (channel : Channel) (word : UInt64) :
    (s.update side { s.own side with
      accepted := (s.own side).accepted ++ [(s.own side).message side channel word] }).Valid := by
  have hother : ∀ other, other ≠ side → (s.update side { s.own side with
      accepted := (s.own side).accepted ++ [(s.own side).message side channel word] }).own other =
      s.own other := fun other hother => s.update_own_other hother _
  refine ⟨?_, h.pending, h.quiet, h.nodup, ?_, ?_, ?_, ?_⟩
  · intro other hinside
    by_cases heq : other = side
    · subst heq
      exact h.inside other (by simpa using hinside)
    · rw [hother other heq] at hinside
      exact h.inside other hinside
  · intro other target message hmessage
    obtain ⟨haccepted, hchannel⟩ := h.posted other target message hmessage
    refine ⟨?_, hchannel⟩
    by_cases heq : other.other = side
    · subst heq
      simp [haccepted]
    · rw [hother _ heq]
      exact haccepted
  · intro other message hmessage
    by_cases heq : other = side
    · subst heq
      simp only [World.update_own, List.mem_append, List.mem_singleton, List.length_append,
        List.length_singleton] at hmessage ⊢
      rcases hmessage with hold | hnew
      · obtain ⟨hsender, hid⟩ := h.accepted other message hold
        exact ⟨hsender, by omega⟩
      · subst hnew
        exact ⟨rfl, Nat.lt_succ_self _⟩
    · rw [hother other heq] at hmessage ⊢
      exact h.accepted other message hmessage
  · intro other target
    by_cases heq : other = side
    · subst heq
      simpa using h.delivered other target
    · rw [hother other heq]
      exact h.delivered other target
  · intro other target delivery hdelivery
    by_cases heq : other = side
    · subst heq
      exact h.payload other target delivery (by simpa using hdelivery)
    · rw [hother other heq] at hdelivery
      exact h.payload other target delivery hdelivery

/-- A client keeps a payload. -/
theorem valid_keep (h : s.Valid) {channel : Channel} {message : Message} {value : UInt64}
    (hvalue : value = handedOn side channel message)
    (htaken : (((s.own side).delivered channel).map Delivery.message ++ [message]).Sublist
      (s.regs.taken side channel)) :
    (s.update side ((s.own side).keep channel ⟨message, value⟩)).Valid := by
  have hother : ∀ other, other ≠ side →
      (s.update side ((s.own side).keep channel ⟨message, value⟩)).own other = s.own other :=
    fun other hother => s.update_own_other hother _
  have hlog : ∀ target, ((s.own side).keep channel ⟨message, value⟩).delivered target =
      if target = channel then (s.own side).delivered channel ++ [⟨message, value⟩]
      else (s.own side).delivered target := by
    intro target
    by_cases htarget : target = channel
    · subst htarget
      simp [Local.keep]
    · simp [Local.keep, htarget]
  refine ⟨?_, h.pending, h.quiet, h.nodup, ?_, ?_, ?_, ?_⟩
  · intro other hinside
    by_cases heq : other = side
    · subst heq
      exact h.inside other (by simpa [Local.keep] using hinside)
    · rw [hother other heq] at hinside
      exact h.inside other hinside
  · intro other target posted hposted
    obtain ⟨haccepted, hchannel⟩ := h.posted other target posted hposted
    refine ⟨?_, hchannel⟩
    by_cases heq : other.other = side
    · subst heq
      simpa [Local.keep] using haccepted
    · rw [hother _ heq]
      exact haccepted
  · intro other accepted haccepted
    by_cases heq : other = side
    · subst heq
      simpa [Local.keep] using h.accepted other accepted (by simpa [Local.keep] using haccepted)
    · rw [hother other heq] at haccepted ⊢
      exact h.accepted other accepted haccepted
  · intro other target
    by_cases heq : other = side
    · subst heq
      rw [World.update_own, hlog]
      split
      · rename_i htarget
        subst htarget
        simpa using htaken
      · exact h.delivered other target
    · rw [hother other heq]
      exact h.delivered other target
  · intro other target delivery hdelivery
    by_cases heq : other = side
    · subst heq
      rw [World.update_own, hlog] at hdelivery
      split at hdelivery
      · rename_i htarget
        subst htarget
        rcases List.mem_append.1 hdelivery with hold | hnew
        · exact h.payload other target delivery hold
        · rw [List.mem_singleton] at hnew
          rw [hnew]
          exact hvalue
      · exact h.payload other target delivery hdelivery
    · rw [hother other heq] at hdelivery
      exact h.payload other target delivery hdelivery

/-- Allowed operations keep the invariant. -/
theorem valid_performs (h : s.Valid) {operation : Op (Private side) (Event side)}
    (hallowed : Allowed side s operation) {result : operation.Ret} {next : World Private}
    (hnext : s.Performs side operation result next) : next.Valid := by
  cases operation with
  | writeLock token =>
      rw [show next = _ from hnext]
      exact valid_write_lock h hallowed.1 hallowed.2
  | writeEnable cpu bits =>
      rw [show next = _ from hnext]
      exact valid_write_enable h hallowed.2
  | clearStatus cpu bits =>
      rw [show next = _ from hnext]
      exact valid_clear_status h cpu bits
  | set bits =>
      rw [show next = _ from hnext]
      exact valid_set h hallowed.2
  | writeSlot channel message =>
      rw [show next = _ from hnext]
      exact valid_write_slot h message hallowed.2
  | enter =>
      rw [show next = _ from hnext]
      exact valid_update h (fun _ => hallowed) rfl rfl
  | leave =>
      rw [show next = _ from hnext]
      exact valid_update h (fun hinside => by cases hinside) rfl rfl
  | store priv =>
      rw [show next = _ from hnext]
      exact valid_update h (h.inside side) rfl rfl
  | accept channel word =>
      rw [hnext.2, hnext.1]
      exact valid_accept h channel word
  | deliver channel message value =>
      rw [show next = _ from hnext]
      cases result with
      | true => exact valid_keep h hallowed.1 hallowed.2
      | false => exact h
  | timeout | choose =>
      rw [show next = s from hnext]
      exact h
  | readLock | readEnable | readStatus | readSlot | load =>
      rw [hnext.2]
      exact h

/-- Allowed operations are what the other side expects. -/
theorem rely_performs {operation : Op (Private side) (Event side)}
    (hallowed : Allowed side s operation) {result : operation.Ret} {next : World Private}
    (hnext : s.Performs side operation result next) : Rely side.other s next := by
  have hvalid : s.Valid → next.Valid := fun h => valid_performs h hallowed hnext
  -- A local step of the side.
  have hlocal : ∀ own : Local (Private side), next = s.update side own →
      Rely side.other s next := by
    intro own heq
    refine ⟨?_, fun _ => ?_, fun hfree => ?_, ?_, ?_, hvalid⟩
    · rw [heq]
      exact s.update_own_other side.other_ne own
    · rw [heq, World.update_regs]
    · rw [heq, World.update_regs]
      exact hfree
    · rw [heq, World.update_regs]
    · rw [heq, World.update_regs]
  have hnothing : next = s → Rely side.other s next := by
    intro heq
    refine ⟨by rw [heq], fun _ => by rw [heq], fun hfree => by rwa [heq], by rw [heq],
      by rw [heq], hvalid⟩
  -- A step on the registers by the owner of the lock.
  have howner : ∀ g : Registers, next = { s with regs := g } → side.Owns s.regs.lock →
      g.lock = s.regs.lock → g.posted side = s.regs.posted side →
      g.taken side.other = s.regs.taken side.other → Rely side.other s next := by
    intro g heq hlock hsame hposted htaken
    refine ⟨by rw [heq], fun hother => absurd hother (owns_disjoint hlock), fun hfree => ?_, ?_,
      ?_, hvalid⟩
    · rw [heq]
      show ¬ side.other.Owns g.lock
      rw [hsame]
      exact hfree
    · rw [heq, Side.other_other]
      exact hposted
    · rw [heq]
      exact htaken
  cases operation with
  | writeLock token =>
      refine ⟨by rw [show next = _ from hnext], fun hheld => ?_, fun hfree => ?_, ?_, ?_, hvalid⟩
      · rw [show next = _ from hnext]
        show ({ s.regs with lock := hwspinWrite s.regs.lock token } : Registers) = s.regs
        rw [hwspin_write_held hallowed.1 hheld]
      · rw [show next = _ from hnext]
        exact hwspin_write_free hallowed.1 hfree
      · rw [show next = _ from hnext]
      · rw [show next = _ from hnext]
  | writeEnable cpu bits => exact howner _ hnext hallowed.1 rfl rfl rfl
  | clearStatus cpu bits =>
      refine howner _ hnext hallowed.1 rfl rfl ?_
      funext channel
      show (if _ then _ else _) = s.regs.taken side.other channel
      rw [if_neg]
      rintro ⟨hcpu, hbits, hpending⟩
      rcases hallowed.2 with hown | hquiet
      · exact side.other_ne (Side.cpu_inj (hcpu.trans hown))
      · rw [hquiet channel hbits] at hpending
        exact absurd hpending (by decide)
  | set bits =>
      refine howner _ hnext hallowed.1 rfl ?_ rfl
      funext channel
      show (if _ then _ else _) = s.regs.posted side channel
      rw [if_neg]
      rintro ⟨hbits, henabled⟩
      rw [(hallowed.2 channel hbits).disabled] at henabled
      exact absurd henabled (by decide)
  | writeSlot channel message => exact howner _ hnext hallowed.1 rfl rfl rfl
  | enter | leave | store => exact hlocal _ hnext
  | accept channel word => exact hlocal _ hnext.2
  | deliver channel message value =>
      cases result with
      | true => exact hlocal _ hnext
      | false => exact hnothing hnext
  | timeout | choose => exact hnothing hnext
  | readLock | readEnable | readStatus | readSlot | load => exact hnothing hnext.2

end

end NanoKvm.Mailbox
