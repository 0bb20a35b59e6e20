import NanoKvm.Contract.Words
import NanoKvm.Exec.Snapshot
import NanoKvm.Firmware.ControlTask
import NanoKvm.Linux.Control

/-!
# The publications of a boot

`c906l_rust_main` and the control task as far as they write the status line and the manifest,
and `sg2002_read_contract_snapshot` of Linux, as programs over single words of the memory that
Linux sees. A word that the firmware has stored reaches this memory at some moment up to the
next clean of its line, so the words of a record arrive in any order between two cleans; the
operation `arrange` picks it. Linux loads its four copies word by word.

Each word of the status line carries a mark, which no program can see: whether this boot has
written it.
-/

namespace NanoKvm.Boot

open Contract Exec Firmware

/-- A word of the status line, and whether this boot has written it. -/
structure Word where
  value : UInt32
  fresh : Bool
  deriving DecidableEq

/-- The two records in the memory that Linux sees. -/
structure Memory where
  status : Fin 16 → Word
  manifest : ManifestWords

/-- The records that an earlier boot has left. -/
def leftBehind (status : StatusWords) (manifest : ManifestWords) : Memory where
  status index := ⟨status index, false⟩
  manifest := manifest

/-- A word of the status line arrives. -/
def Memory.storeStatus (m : Memory) (index : Fin 16) (word : UInt32) : Memory :=
  { m with status := Function.update m.status index ⟨word, true⟩ }

/-- A word of the manifest arrives. -/
def Memory.storeManifest (m : Memory) (index : Fin 32) (word : UInt32) : Memory :=
  { m with manifest := Function.update m.manifest index word }

/-! ## The firmware -/

/-- The operations of the firmware. `platformStart` is `c906l_platform_start`, which returns only
if it fails, with the mailbox lock failures that are counted then. What a later turn of the control
task publishes, or the panic handler, comes from outside. -/
inductive FirmwareOp where
  | loadStatus (index : Fin 16)
  | loadManifest (index : Fin 32)
  | arrangeStatus (words : List (Fin 16))
  | arrangeManifest (words : List (Fin 32))
  | storeStatus (index : Fin 16) (word : UInt32)
  | storeManifest (index : Fin 32) (word : UInt32)
  | platformStart
  | nextStatus

/-- What an operation of the firmware returns. -/
abbrev FirmwareOp.Ret : FirmwareOp → Type
  | .loadStatus _ | .loadManifest _ => UInt32
  | .arrangeStatus _ => List (Fin 16)
  | .arrangeManifest _ => List (Fin 32)
  | .platformStart => Option UInt32
  | .nextStatus => Status
  | _ => Unit

abbrev FirmwareCode := Prog FirmwareOp FirmwareOp.Ret

/-- Perform an operation of the firmware. -/
abbrev firmwareDo (operation : FirmwareOp) : FirmwareCode operation.Ret :=
  Prog.perform operation

/-- What an operation of the firmware does. -/
def Memory.FirmwarePerforms (m : Memory) :
    (operation : FirmwareOp) → operation.Ret → Memory → Prop
  | .loadStatus index, word, next => word = (m.status index).value ∧ next = m
  | .loadManifest index, word, next => word = m.manifest index ∧ next = m
  | .arrangeStatus words, order, next => order.Perm words ∧ next = m
  | .arrangeManifest words, order, next => order.Perm words ∧ next = m
  | .storeStatus index word, _, next => next = m.storeStatus index word
  | .storeManifest index word, _, next => next = m.storeManifest index word
  | .platformStart, _, next => next = m
  | .nextStatus, _, next => next = m

/-- `read_volatile` of the status line -/
def loadStatus : FirmwareCode Status := do
  let words ← Prog.collect (fun index => firmwareDo (.loadStatus index)) (List.finRange 16)
    fun _ => 0
  pure (Status.ofWords words)

/-- `read_volatile` of the manifest -/
def loadManifest : FirmwareCode Manifest := do
  let words ← Prog.collect (fun index => firmwareDo (.loadManifest index)) (List.finRange 32)
    fun _ => 0
  pure (Manifest.ofWords words)

/-- Words of the status line arrive in the given order. -/
def storeStatus (words : StatusWords) : List (Fin 16) → FirmwareCode Unit
  | [] => pure ()
  | index :: rest => do
      firmwareDo (.storeStatus index (words index))
      storeStatus words rest

/-- Words of the manifest arrive in the given order. -/
def storeManifest (words : ManifestWords) : List (Fin 32) → FirmwareCode Unit
  | [] => pure ()
  | index :: rest => do
      firmwareDo (.storeManifest index (words index))
      storeManifest words rest

/-- `publish` -/
def publish (status : Status) : FirmwareCode Unit := do
  let order ← firmwareDo (.arrangeStatus (List.finRange 16))
  storeStatus status.toWords order

/-- `publish_manifest_with` -/
def publishManifest (contract : ResolvedContract) (generation : UInt32) : FirmwareCode Bool := do
  firmwareDo (.storeManifest commitIndex 0)
  let order ← firmwareDo (.arrangeManifest (List.finRange 32))
  storeManifest (expectedManifest contract generation 0).toWords order
  firmwareDo (.storeManifest commitIndex manifestCommit)
  let manifest ← loadManifest
  pure (manifest = expectedManifest contract generation manifestCommit)

/-- The turns of the control task after its first publication -/
def controlLoop : Nat → FirmwareCode Unit
  | 0 => pure ()
  | turns + 1 => do
      let status ← firmwareDo .nextStatus
      publish status
      controlLoop turns

/-- `control_task` -/
def controlTask (contract : ResolvedContract) (turns : Nat) : FirmwareCode Unit := do
  let status ← loadStatus
  publish (controlStart contract status)
  controlLoop turns

/-- The status of a boot that has failed. -/
def bootFault (status : Status) (flags : UInt32) : Status :=
  { status with
    flags := status.flags ||| flags
    state := stateFault
    activationError := activationResultInternalFailure.toUInt8 }

/-- `c906l_rust_main` from the first status on -/
def rustMain (contract : ResolvedContract) (turns : Nat) : FirmwareCode Unit := do
  let previous ← loadStatus
  let status := initialStatus contract previous
  publish status
  let published ← publishManifest contract status.generation
  if published then do
      let failures ← firmwareDo .platformStart
      match failures with
      | none => controlTask contract turns
      | some failures => publish (bootFault status (mailboxDiagnosticFlags 0 failures 0))
  else publish (bootFault status flagManifestFault)

/-! ## The reader -/

/-- The operations of the reader. -/
inductive LinuxOp where
  | loadStatus (index : Fin 16)
  | loadManifest (index : Fin 32)

/-- What an operation of the reader returns. -/
abbrev LinuxOp.Ret : LinuxOp → Type
  | .loadStatus _ => Word
  | .loadManifest _ => UInt32

abbrev LinuxCode := Prog LinuxOp LinuxOp.Ret

/-- Perform an operation of the reader. -/
abbrev linuxDo (operation : LinuxOp) : LinuxCode operation.Ret := Prog.perform operation

/-- What an operation of the reader does. -/
def Memory.LinuxPerforms (m : Memory) :
    (operation : LinuxOp) → operation.Ret → Memory → Prop
  | .loadStatus index, word, next => word = m.status index ∧ next = m
  | .loadManifest index, word, next => word = m.manifest index ∧ next = m

/-- `memcpy_fromio` of the status line -/
def copyStatus : LinuxCode (Fin 16 → Word) :=
  Prog.collect (fun index => linuxDo (.loadStatus index)) (List.finRange 16) fun _ => ⟨0, false⟩

/-- `memcpy_fromio` of the manifest -/
def copyManifest : LinuxCode ManifestWords :=
  Prog.collect (fun index => linuxDo (.loadManifest index)) (List.finRange 32) fun _ => 0

/-- The status that a reader makes of its copy. -/
def statusOf (words : Fin 16 → Word) : Status := Status.ofWords fun index => (words index).value

/-- `sg2002_read_contract_snapshot`, with the words of its second copy of the status line -/
def readSnapshot (contract : ResolvedContract) :
    LinuxCode ((Fin 16 → Word) × Except Linux.Errno Linux.ContractSnapshot) := do
  let before ← copyStatus
  let first ← copyManifest
  let second ← copyManifest
  let status ← copyStatus
  pure (status, Linux.readContractSnapshot contract (statusOf before) (Manifest.ofWords first)
    (Manifest.ofWords second) (statusOf status))

end NanoKvm.Boot
