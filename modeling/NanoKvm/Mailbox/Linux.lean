import NanoKvm.Mailbox.Registers

/-!
# The mailbox driver of Linux

`cv1800-mailbox.c` as the patch of this repository leaves it. Every register transaction
holds `register_lock` with interrupts off, so the transactions of the driver's threads
follow one another; the program picks the next one. A call of `send_data` whose first
transaction could not transmit waits in `waiting` for its second one, and `pending` are
the channels that the threaded handler has copied and not handed to their clients yet.
-/

namespace NanoKvm.Mailbox

open Exec

/-- `MBOX_HWLOCK_TASK_ATTEMPTS` -/
def taskAttempts : Nat := 1024

/-- `MBOX_HWLOCK_IRQ_ATTEMPTS` -/
def irqAttempts : Nat := 64

/-- `struct cv1800_mbox` -/
structure LinuxState where
  nextToken : UInt8
  ownerToken : UInt16
  deferred : Bits
  deferredData : Channel → Message
  subscribed : Bits
  content : Channel → Message
  pending : Bits
  waiting : List Message

/-- The transactions of the driver. -/
inductive LinuxEvent where
  | sendData (channel : Channel) (word : UInt64)
  | sendDeferred (index : Nat)
  | retryDeferred
  | lastTxDone (channel : Channel)
  | isr
  | received (channel : Channel)
  | startup (channel : Channel)
  | shutdown (channel : Channel)

abbrev LinuxCode := Code LinuxState LinuxEvent

/-- Change the driver's own memory. -/
def modifyLinux (change : LinuxState → LinuxState) : LinuxCode Unit := do
  let mbox ← perform .load
  perform (.store (change mbox))

/-- `cv1800_hwlock_acquire`, which `cv1800_registers_lock` calls under `register_lock` -/
def registersLock (attempts : Nat) : LinuxCode Bool := do
  let mbox ← perform .load
  let token := (nextCounter mbox.nextToken).toUInt16
  perform (.store { mbox with nextToken := nextCounter mbox.nextToken, ownerToken := token })
  acquireLoop token attempts

/-- `cv1800_hwlock_release`, which `cv1800_registers_unlock` calls -/
def registersUnlock : LinuxCode Bool := do
  let mbox ← perform .load
  releaseLock mbox.ownerToken

/-- A call of `send_data` goes on to its second transaction later. -/
def waitDeferred (message : Message) : LinuxCode Unit :=
  modifyLinux fun mbox => { mbox with waiting := mbox.waiting ++ [message] }

/-- The first transaction of `cv1800_mbox_send_data`. All clients of the C906L use its processor. -/
def sendData (channel : Channel) (word : UInt64) : LinuxCode Unit := do
  let message ← perform (.accept channel word)
  let locked ← registersLock irqAttempts
  if locked then do
    let transmitted ← transmitLocked channel Side.rtos.cpu message
    let _ ← registersUnlock
    if transmitted then pure () else waitDeferred message
  else waitDeferred message

/-- The driver's memory after the second transaction of `cv1800_mbox_send_data` for a message. -/
def LinuxState.storeDeferred (mbox : LinuxState) (message : Message) : LinuxState :=
  if mbox.subscribed message.channel then
    { mbox with
      deferred := fun other => mbox.deferred other || bit message.channel other
      deferredData := Function.update mbox.deferredData message.channel message }
  else mbox

/-- The second transaction of `cv1800_mbox_send_data` -/
def sendDeferred (index : Nat) : LinuxCode Unit := do
  let mbox ← perform .load
  match mbox.waiting[index]? with
  | none => pure ()
  | some message =>
      perform (.store
        { mbox.storeDeferred message with waiting := mbox.waiting.eraseIdx index })

/-- The loop of `cv1800_retry_deferred` -/
def retryChannels (deferred : Bits) : List Channel → LinuxCode Unit
  | [] => pure ()
  | channel :: rest =>
      if deferred channel then do
        let mbox ← perform .load
        let transmitted ← transmitLocked channel Side.rtos.cpu (mbox.deferredData channel)
        if transmitted then do
          modifyLinux fun mbox =>
            { mbox with deferred := fun other => mbox.deferred other && !bit channel other }
          retryChannels deferred rest
        else retryChannels deferred rest
      else retryChannels deferred rest

/-- `cv1800_retry_deferred` -/
def retryDeferred : LinuxCode Unit := do
  let locked ← registersLock taskAttempts
  if locked then do
    let mbox ← perform .load
    let deferred : Bits := fun channel => mbox.deferred channel && mbox.subscribed channel
    perform (.store { mbox with deferred := deferred })
    retryChannels deferred channels
    let _ ← registersUnlock
    pure ()
  else pure ()

/-- `cv1800_last_tx_done` -/
def lastTxDone (channel : Channel) : LinuxCode Bool := do
  let mbox ← perform .load
  if mbox.subscribed channel then do
    let locked ← registersLock irqAttempts
    if locked then do
      let mbox ← perform .load
      if mbox.deferred channel then do
        let _ ← registersUnlock
        pure false
      else do
        let busy ← slotBusyLocked channel
        let _ ← registersUnlock
        pure (!busy)
    else pure false
  else pure false

/-- The loop of `cv1800_mbox_isr` over the channels: copy before the acknowledgement. -/
def copyChannels (set : Bits) : List Channel → LinuxCode Unit
  | [] => pure ()
  | channel :: rest =>
      if set channel then do
        let message ← perform (.readSlot channel)
        modifyLinux fun mbox =>
          { mbox with
            content := Function.update mbox.content channel message
            pending := fun other => mbox.pending other || bit channel other }
        acknowledge Side.linux.cpu (bit channel)
        copyChannels set rest
      else copyChannels set rest

/-- The locked part of `cv1800_mbox_isr`. A handler runs only when the one before has returned. -/
def mboxIsr : LinuxCode Unit := do
  let mbox ← perform .load
  if channels.any mbox.pending then pure ()
  else do
    let locked ← registersLock taskAttempts
    if locked then do
      let set ← perform (.readStatus Side.linux.cpu)
      copyChannels set channels
      let _ ← registersUnlock
      pure ()
    else pure ()

/-- The end of `cv1800_mbox_isr` for one channel -/
def receivedData (channel : Channel) : LinuxCode Unit := do
  let mbox ← perform .load
  if mbox.pending channel then do
    perform (.store
      { mbox with pending := fun other => mbox.pending other && !bit channel other })
    if mbox.subscribed channel then do
      let _ ← perform (.deliver channel (mbox.content channel) (mbox.content channel).word)
      pure ()
    else pure ()
  else pure ()

/-- `cv1800_mbox_startup` -/
def startup (channel : Channel) : LinuxCode Unit :=
  modifyLinux fun mbox =>
    { mbox with
      deferred := fun other => mbox.deferred other && !bit channel other
      subscribed := fun other => mbox.subscribed other || bit channel other }

/-- `cv1800_mbox_shutdown` -/
def shutdown (channel : Channel) : LinuxCode Unit :=
  modifyLinux fun mbox =>
    { mbox with
      subscribed := fun other => mbox.subscribed other && !bit channel other
      deferred := fun other => mbox.deferred other && !bit channel other }

/-- One transaction of the driver. -/
def linuxEvent : LinuxEvent → LinuxCode Unit
  | .sendData channel word => sendData channel word
  | .sendDeferred index => sendDeferred index
  | .retryDeferred => retryDeferred
  | .lastTxDone channel => do
      let _ ← lastTxDone channel
      pure ()
  | .isr => mboxIsr
  | .received channel => receivedData channel
  | .startup channel => startup channel
  | .shutdown channel => shutdown channel

/-- The next transaction, whichever it is. -/
def linuxStep : LinuxCode Unit := do
  let event ← perform .choose
  linuxEvent event

end NanoKvm.Mailbox
