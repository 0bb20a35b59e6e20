import NanoKvm.Mailbox.Linux

/-!
# The mailbox of the C906L

The mailbox part of `rtos-shim.c`. The lock is acquired with local interrupts masked, so
the transactions of the tasks and of the interrupt handler follow one another. Calls of
`mailbox_send` are kept with the retries they have left; each retry is a transaction.
-/

namespace NanoKvm.Mailbox

open Exec

/-- `SG2002_C906L_MAILBOX_HWSPIN_IRQ_CONSECUTIVE_DEFERRAL_LIMIT` -/
def deferralLimit : UInt32 := 16

/-- The counters of the shim and the calls of `mailbox_send` in progress. -/
structure RtosState where
  lockCounter : UInt8
  lockFailures : UInt32
  irqDeferrals : UInt32
  irqStreak : UInt32
  irqEnabled : Bool
  requestDrops : UInt32
  vqKickDrops : UInt32
  unexpectedEvents : UInt32
  sending : List (Message × Nat)

/-- The transactions of the shim. -/
inductive RtosEvent where
  | isr
  | send (channel : Channel) (word : UInt64) (retries : Nat)
  | attempt (index : Nat)

abbrev RtosCode := Code RtosState RtosEvent

/-- Change the shim's own memory. -/
def modifyRtos (change : RtosState → RtosState) : RtosCode Unit := do
  let shim ← perform .load
  perform (.store (change shim))

/-- `mailbox_lock_failures++` -/
def countLockFailure : RtosCode Unit :=
  modifyRtos fun shim => { shim with lockFailures := shim.lockFailures + 1 }

/-- The end of `mailbox_lock_acquire`: the guard's token, or a counted failure. -/
def lockOutcome (token : UInt16) (terminalFailure locked : Bool) : RtosCode (Option UInt16) :=
  if locked then pure (some token)
  else if terminalFailure then do
    countLockFailure
    pure none
  else pure none

/-- `mailbox_lock_acquire` -/
def mailboxLockAcquire (attempts : Nat) (terminalFailure : Bool) :
    RtosCode (Option UInt16) := do
  let shim ← perform .load
  let counter := nextCounter shim.lockCounter
  let token : UInt16 := counter.toUInt16 <<< 8
  perform (.store { shim with lockCounter := counter })
  let locked ← acquireLoop token attempts
  lockOutcome token terminalFailure locked

/-- `mailbox_lock_release` -/
def mailboxLockRelease (token : UInt16) : RtosCode Bool := do
  let released ← releaseLock token
  if released then pure true
  else do
    countLockFailure
    pure false

/-! ## The interrupt handler -/

/-- The shim's memory after the handler missed the lock; at the limit the source is masked. -/
def RtosState.missLock (shim : RtosState) : RtosState :=
  let shim := { shim with irqDeferrals := shim.irqDeferrals + 1 }
  if shim.irqStreak < deferralLimit then
    if shim.irqStreak + 1 = deferralLimit then
      { shim with
        irqStreak := shim.irqStreak + 1
        lockFailures := shim.lockFailures + 1
        irqEnabled := false }
    else { shim with irqStreak := shim.irqStreak + 1 }
  else shim

/-- Copy the slot of an assigned channel and acknowledge it. -/
def takeChannel (pending : Bits) (channel : Channel) : RtosCode (Option Message) :=
  if pending channel then do
    let message ← perform (.readSlot channel)
    acknowledge Side.rtos.cpu (bit channel)
    pure (some message)
  else pure none

/-- The pending channels that the contract does not assign. -/
def unexpectedBits (pending : Bits) : Bits :=
  fun channel => pending channel && !(bit controlChannel channel || bit vqKickChannel channel)

/-- Drain the channels that the contract does not assign without looking at their slots. -/
def drainUnexpected (pending : Bits) : RtosCode Unit :=
  if channels.any (unexpectedBits pending) then do
    acknowledge Side.rtos.cpu (unexpectedBits pending)
    modifyRtos fun shim =>
      { shim with unexpectedEvents :=
          shim.unexpectedEvents + .ofNat (channels.countP (unexpectedBits pending)) }
  else pure ()

/-- `xQueueSendFromISR`, with the counter of the queue for a payload that is dropped -/
def queueFromIsr (channel : Channel) (drop : RtosState → RtosState) (message : Message)
    (value : UInt64) : RtosCode Unit := do
  let kept ← perform (.deliver channel message value)
  if kept then pure () else modifyRtos drop

/-- `request_drops++` -/
def RtosState.dropRequest (shim : RtosState) : RtosState :=
  { shim with requestDrops := shim.requestDrops + 1 }

/-- `vq_kick_drops++` -/
def RtosState.dropKick (shim : RtosState) : RtosState :=
  { shim with vqKickDrops := shim.vqKickDrops + 1 }

/-- Hand the control word on. -/
def queueRequest : Option Message → RtosCode Unit
  | none => pure ()
  | some message => queueFromIsr controlChannel RtosState.dropRequest message message.word

/-- Hand the queue number on, which has 32 bits. -/
def queueKick : Option Message → RtosCode Unit
  | none => pure ()
  | some message =>
      queueFromIsr vqKickChannel RtosState.dropKick message message.word.toUInt32.toUInt64

/-- `mailbox_isr` behind the lock -/
def mailboxIsrLocked (token : UInt16) : RtosCode Unit := do
  modifyRtos fun shim => { shim with irqStreak := 0 }
  let pending ← perform (.readStatus Side.rtos.cpu)
  let request ← takeChannel pending controlChannel
  let kick ← takeChannel pending vqKickChannel
  drainUnexpected pending
  let _ ← mailboxLockRelease token
  queueRequest request
  queueKick kick

/-- `mailbox_isr`, as long as its interrupt is enabled -/
def mailboxIsr : RtosCode Unit := do
  let shim ← perform .load
  if shim.irqEnabled then do
    let guard ← mailboxLockAcquire irqAttempts false
    match guard with
    | none => modifyRtos RtosState.missLock
    | some token => mailboxIsrLocked token
  else pure ()

/-! ## Sending -/

/-- A call of `mailbox_send` begins. -/
def mailboxSend (channel : Channel) (word : UInt64) (retries : Nat) : RtosCode Unit := do
  let message ← perform (.accept channel word)
  modifyRtos fun shim => { shim with sending := shim.sending ++ [(message, retries)] }

/-- A call of `mailbox_send` returns. -/
def endSend (index : Nat) : RtosCode Unit :=
  modifyRtos fun shim => { shim with sending := shim.sending.eraseIdx index }

/-- The transaction of one turn of the loop of `mailbox_send`, which decides how it goes on. -/
def sendLocked (index : Nat) (message : Message) (retries : Nat) (token : UInt16) :
    RtosCode Unit := do
  let sent ← transmitLocked message.channel Side.linux.cpu message
  let released ← mailboxLockRelease token
  if released && !sent && 0 < retries then
    modifyRtos fun shim =>
      { shim with sending := shim.sending.set index (message, retries) }
  else endSend index

/-- One turn of the loop of `mailbox_send`: without retries left the call returns. -/
def attemptSend (index : Nat) : RtosCode Unit := do
  let shim ← perform .load
  match shim.sending[index]? with
  | none => pure ()
  | some (_, 0) => endSend index
  | some (message, retries + 1) => do
      let guard ← mailboxLockAcquire taskAttempts true
      match guard with
      | none => endSend index
      | some token => sendLocked index message retries token

/-! ## The whole side -/

/-- One transaction of the shim. -/
def rtosEvent : RtosEvent → RtosCode Unit
  | .isr => mailboxIsr
  | .send channel word retries => mailboxSend channel word retries
  | .attempt index => attemptSend index

/-- The next transaction, whichever it is. -/
def rtosStep : RtosCode Unit := do
  let event ← perform .choose
  rtosEvent event

/-- The mailbox part of `c906l_platform_start` -/
def platformStart : RtosCode Bool := do
  let guard ← mailboxLockAcquire taskAttempts true
  match guard with
  | none => pure false
  | some token => do
      acknowledge Side.rtos.cpu fun _ => true
      mailboxLockRelease token

/-- The shim: it starts the platform and then serves the given number of transactions. -/
def rtosMain (count : Nat) : RtosCode Unit := do
  let started ← platformStart
  if started then rtosStep.iterate count else pure ()

end NanoKvm.Mailbox
