import Mathlib.Logic.Function.Basic
import NanoKvm.Exec.Indices
import NanoKvm.Exec.Parallel

/-!
# The mailbox controller

The registers that Linux and the C906L share: the hardware lock, and for each of the
eight channels a payload slot, an enable bit and an interrupt status bit for each
processor. A side is a program over the operations on these registers and on its own
memory; both sides run in parallel.

Every message a client hands over gets an identity that no code looks at. It travels with
the payload word, so that the logs of posted, taken and delivered messages can tell two
messages with the same word apart.
-/

namespace NanoKvm.Mailbox

open Exec

/-- The two cores. -/
inductive Side where
  | linux | rtos
  deriving DecidableEq, Repr

/-- The other core. -/
def Side.other : Side → Side
  | .linux => .rtos
  | .rtos => .linux

@[simp] theorem Side.other_other (side : Side) : side.other.other = side := by
  cases side <;> rfl

theorem Side.other_ne (side : Side) : side.other ≠ side := by
  cases side <;> decide

abbrev Channel := Fin 8

/-- The channels that the C906L serves. -/
def controlChannel : Channel := 0
def vqKickChannel : Channel := 1

abbrev Cpu := Fin 4

/-- `RECV_CPU` of the Linux driver and the processor ids of the contract. -/
def Side.cpu : Side → Cpu
  | .linux => 1
  | .rtos => 2

theorem Side.cpu_inj {side other : Side} (h : side.cpu = other.cpu) : side = other := by
  cases side <;> cases other <;> first | rfl | exact absurd h (by decide)

/-- An 8-bit register: the channels whose bit is set. -/
abbrev Bits := Channel → Bool

/-- `BIT(channel)` -/
def bit (channel : Channel) : Bits := fun other => decide (other = channel)

/-- A message and the client call it comes from. -/
structure Message where
  sender : Side
  channel : Channel
  id : Nat
  word : UInt64
  deriving DecidableEq

/-- A payload handed to the client of the receiving side. -/
structure Delivery where
  message : Message
  value : UInt64

/-! ## The hardware -/

/-- The registers, and the messages posted to each side and taken by it. -/
structure Registers where
  lock : UInt16
  enable : Cpu → Bits
  raw : Cpu → Bits
  slots : Channel → Message
  posted : Side → Channel → List Message
  taken : Side → Channel → List Message

/-- The lock field: a token acquires it when it is idle, the owner's token releases it, and any
other write has no effect. -/
def hwspinWrite (field token : UInt16) : UInt16 :=
  if field = 0 then token else if field = token then 0 else field

/-- The token belongs to the side: Linux has the low byte, the C906L the high byte. -/
def Side.Owns (side : Side) (field : UInt16) : Prop :=
  field ≠ 0 ∧
    match side with
    | .linux => field.toNat < 256
    | .rtos => field.toNat % 256 = 0

/-- The pending interrupts of a processor are those it has enabled. -/
def Registers.pending (g : Registers) (cpu : Cpu) : Bits :=
  fun channel => g.raw cpu channel && g.enable cpu channel

/-- A write to the enable register of a processor. -/
def Registers.writeEnable (g : Registers) (cpu : Cpu) (bits : Bits) : Registers :=
  { g with enable := Function.update g.enable cpu bits }

/-- A write to a payload slot. -/
def Registers.writeSlot (g : Registers) (channel : Channel) (message : Message) : Registers :=
  { g with slots := Function.update g.slots channel message }

/-- A write to the clear register of a processor acknowledges its pending interrupts. -/
def Registers.clearStatus (g : Registers) (cpu : Cpu) (bits : Bits) : Registers :=
  { g with
    raw := Function.update g.raw cpu fun channel => g.raw cpu channel && !bits channel
    taken := fun side channel =>
      if side.cpu = cpu ∧ bits channel = true ∧ g.pending cpu channel = true then
        g.posted side channel
      else g.taken side channel }

/-- A write to the set register raises the status of every processor; it is an interrupt for those
that have the channel enabled. -/
def Registers.set (g : Registers) (bits : Bits) : Registers :=
  { g with
    raw := fun cpu channel => g.raw cpu channel || bits channel
    posted := fun side channel =>
      if bits channel = true ∧ g.enable side.cpu channel = true then
        g.posted side channel ++ [g.slots channel]
      else g.posted side channel }

/-! ## Both sides -/

/-- What one side has to itself: its memory, and the logs of its clients. -/
structure Local (Private : Type) where
  inside : Bool
  accepted : List Message
  delivered : Channel → List Delivery
  priv : Private

/-- The shared registers and what each side has to itself. -/
structure World (Private : Side → Type) where
  regs : Registers
  own : ∀ side, Local (Private side)

/-- The operations of a side. `enter` and `leave` mark its critical section and `timeout` an
acquisition that failed; `accept` takes a message from a client and `deliver` hands one to a
client, which may drop it. -/
inductive Op (Private Event : Type) where
  | writeLock (token : UInt16)
  | readLock
  | readEnable (cpu : Cpu)
  | writeEnable (cpu : Cpu) (bits : Bits)
  | readStatus (cpu : Cpu)
  | clearStatus (cpu : Cpu) (bits : Bits)
  | set (bits : Bits)
  | readSlot (channel : Channel)
  | writeSlot (channel : Channel) (message : Message)
  | enter
  | leave
  | timeout
  | accept (channel : Channel) (word : UInt64)
  | deliver (channel : Channel) (message : Message) (value : UInt64)
  | choose
  | load
  | store (priv : Private)

/-- What an operation returns. -/
abbrev Op.Ret {Private Event : Type} : Op Private Event → Type
  | .readLock => UInt16
  | .readEnable _ | .readStatus _ => Bits
  | .readSlot _ => Message
  | .accept _ _ => Message
  | .deliver _ _ _ => Bool
  | .choose => Event
  | .load => Private
  | _ => Unit

/-- A part of a side's program. -/
abbrev Code (Private Event : Type) := Prog (Op Private Event) Op.Ret

/-- Perform one operation. -/
abbrev perform {Private Event : Type} (operation : Op Private Event) :
    Code Private Event operation.Ret :=
  Prog.perform operation

variable {Private Event : Side → Type}

/-- The same world with another local part of one side. -/
def World.update (s : World Private) (side : Side) (own : Local (Private side)) :
    World Private :=
  { s with own := Function.update s.own side own }

/-- The message that a client call on a side becomes. -/
def Local.message {P : Type} (own : Local P) (side : Side) (channel : Channel) (word : UInt64) :
    Message :=
  { sender := side, channel := channel, id := own.accepted.length, word := word }

/-- The client keeps a payload. -/
def Local.keep {P : Type} (own : Local P) (channel : Channel) (delivery : Delivery) : Local P :=
  let log := own.delivered channel ++ [delivery]
  { own with delivered := Function.update own.delivered channel log }

/-- What an operation of a side does. -/
def World.Performs (side : Side) (s : World Private) :
    (operation : Op (Private side) (Event side)) → operation.Ret → World Private → Prop
  | .writeLock token, _, next =>
      next = { s with regs := { s.regs with lock := hwspinWrite s.regs.lock token } }
  | .readLock, value, next => value = s.regs.lock ∧ next = s
  | .readEnable cpu, value, next => value = s.regs.enable cpu ∧ next = s
  | .writeEnable cpu bits, _, next => next = { s with regs := s.regs.writeEnable cpu bits }
  | .readStatus cpu, value, next => value = s.regs.pending cpu ∧ next = s
  | .clearStatus cpu bits, _, next => next = { s with regs := s.regs.clearStatus cpu bits }
  | .set bits, _, next => next = { s with regs := s.regs.set bits }
  | .readSlot channel, value, next => value = s.regs.slots channel ∧ next = s
  | .writeSlot channel message, _, next =>
      next = { s with regs := s.regs.writeSlot channel message }
  | .enter, _, next => next = s.update side { s.own side with inside := true }
  | .leave, _, next => next = s.update side { s.own side with inside := false }
  | .timeout, _, next => next = s
  | .accept channel word, message, next =>
      message = (s.own side).message side channel word ∧
        next = s.update side
          { s.own side with accepted := (s.own side).accepted ++ [message] }
  | .deliver channel message value, kept, next =>
      next = if kept then s.update side ((s.own side).keep channel ⟨message, value⟩) else s
  | .choose, _, next => next = s
  | .load, priv, next => priv = (s.own side).priv ∧ next = s
  | .store priv, _, next => next = s.update side { s.own side with priv := priv }

/-- One answer to every operation of a side: the next transaction is this one, and clients keep what
they are given. -/
def World.answer (side : Side) (event : Event side) (s : World Private) :
    (operation : Op (Private side) (Event side)) → Option (operation.Ret × World Private)
  | .writeLock token =>
      some ((), { s with regs := { s.regs with lock := hwspinWrite s.regs.lock token } })
  | .readLock => some (s.regs.lock, s)
  | .readEnable cpu => some (s.regs.enable cpu, s)
  | .writeEnable cpu bits => some ((), { s with regs := s.regs.writeEnable cpu bits })
  | .readStatus cpu => some (s.regs.pending cpu, s)
  | .clearStatus cpu bits => some ((), { s with regs := s.regs.clearStatus cpu bits })
  | .set bits => some ((), { s with regs := s.regs.set bits })
  | .readSlot channel => some (s.regs.slots channel, s)
  | .writeSlot channel message => some ((), { s with regs := s.regs.writeSlot channel message })
  | .enter => some ((), s.update side { s.own side with inside := true })
  | .leave => some ((), s.update side { s.own side with inside := false })
  | .timeout => some ((), s)
  | .accept channel word =>
      let message := (s.own side).message side channel word
      some (message, s.update side
        { s.own side with accepted := (s.own side).accepted ++ [message] })
  | .deliver channel message value =>
      some (true, s.update side ((s.own side).keep channel ⟨message, value⟩))
  | .choose => some (event, s)
  | .load => some ((s.own side).priv, s)
  | .store priv => some ((), s.update side { s.own side with priv := priv })

theorem performs_answer {side : Side} {event : Event side} (s : World Private)
    (operation : Op (Private side) (Event side)) (result : operation.Ret) (next : World Private)
    (h : s.answer side event operation = some (result, next)) :
    s.Performs side operation result next := by
  cases operation with
  | readLock | readEnable | readStatus | readSlot | accept | load =>
      obtain ⟨rfl, rfl⟩ := Prod.mk.inj (Option.some.inj h)
      exact ⟨rfl, rfl⟩
  | writeLock | writeEnable | clearStatus | set | writeSlot | enter | leave | timeout | deliver
  | choose | store =>
      obtain ⟨rfl, rfl⟩ := Prod.mk.inj (Option.some.inj h)
      rfl

/-! ## The hardware lock

`cv1800_hwlock_acquire` and `mailbox_lock_acquire` share this loop, and the two release
functions the test behind it. -/

variable {P E : Type}

/-- Write the token and look whether it is there, a bounded number of times. -/
def acquireLoop (token : UInt16) : Nat → Code P E Bool
  | 0 => do
      perform .timeout
      pure false
  | attempts + 1 => do
      perform (.writeLock token)
      let value ← perform .readLock
      if value = token then do
        perform .enter
        pure true
      else acquireLoop token attempts

/-- Release the lock by writing the owner's token again, if it is still there. -/
def releaseLock (token : UInt16) : Code P E Bool := do
  let value ← perform .readLock
  if value = token then do
    perform .leave
    perform (.writeLock token)
    pure true
  else pure false

/-- The next token of a byte counter, which skips zero. -/
def nextCounter (counter : UInt8) : UInt8 := if counter + 1 = 0 then 1 else counter + 1

/-! ## Register transactions

The two drivers perform the same accesses under the lock. -/

/-- The processors in the order in which they are tested. -/
def cpus : List Cpu := [0, 1, 2, 3]

/-- The channels in the order in which they are served. -/
def channels : List Channel := [0, 1, 2, 3, 4, 5, 6, 7]

/-- Some processor of the list has the channel enabled. -/
def anyEnabled (channel : Channel) : List Cpu → Code P E Bool
  | [] => pure false
  | cpu :: rest => do
      let enabled ← perform (.readEnable cpu)
      if enabled channel then pure true else anyEnabled channel rest

/-- `cv1800_slot_busy_locked`, and the loop of `mailbox_send` over the processors. -/
def slotBusyLocked (channel : Channel) : Code P E Bool := anyEnabled channel cpus

/-- `cv1800_transmit_locked`, and the transaction of `mailbox_send`. -/
def transmitLocked (channel : Channel) (cpu : Cpu) (message : Message) : Code P E Bool := do
  let busy ← slotBusyLocked channel
  if busy then pure false
  else do
    perform (.writeSlot channel message)
    perform (.clearStatus cpu (bit channel))
    let enabled ← perform (.readEnable cpu)
    perform (.writeEnable cpu fun other => enabled other || bit channel other)
    perform (.set (bit channel))
    pure true

/-- Acknowledge interrupts and give their slots back to the senders. -/
def acknowledge (cpu : Cpu) (bits : Bits) : Code P E Unit := do
  perform (.clearStatus cpu bits)
  let enabled ← perform (.readEnable cpu)
  perform (.writeEnable cpu fun other => enabled other && !bits other)

end NanoKvm.Mailbox
