/-!
# The try-boot script

`extlinux-try-boot.nix`: the commands that put a new generation on trial and take it back.
The boot medium holds two files that matter, `extlinux.conf` with its `DEFAULT` label and
the try-boot state. Each is replaced by a rename, so a command is a sequence of file
replacements and a crash leaves a prefix of it. Beside the files the model keeps a log of
which commands ran in which boot, from which the trials that are still open can be read.
-/

namespace NanoKvm.TryBoot

/-- One `LABEL` of `extlinux.conf` and the `init=` of its `APPEND` line. -/
structure Entry where
  label : String
  init : Option String
  deriving DecidableEq, Repr

/-- The phase that the state file records. -/
inductive Phase where
  | armed | rollbackArmed
  deriving DecidableEq, Repr

/-- The contents of the state file. -/
structure TryState where
  candidate : String
  candidateInit : String
  fallback : String
  fallbackInit : String
  phase : Phase
  deriving DecidableEq, Repr

/-- What a command that ran means for the trials. -/
inductive Event where
  | armed (candidate fallback : String)
  | rolledBack (candidate fallback : String)
  | blessed (candidate : String)
  deriving DecidableEq, Repr

/-- The labels of `extlinux.conf`, its `DEFAULT`, the state file, the entry that the running system
was started from, and the log, newest event first. -/
structure System where
  entries : List Entry
  default : String
  state : Option TryState
  booted : Option Entry
  log : List Event

/-! ## Reading the files -/

/-- The characters of a label. -/
def labelCharacter (c : Char) : Bool := c.isAlphanum || "_.:+-".toList.contains c

/-- `valid_label` -/
def validLabel (label : String) : Bool := label ≠ "" && label.toList.all labelCharacter

/-- `booted_init` -/
def bootedInit (s : System) : Option String := s.booted.bind Entry.init

/-- The first label with this `init=`. -/
def labelOfInit (entries : List Entry) (init : String) : Option String :=
  (entries.find? fun entry => entry.init = some init).map Entry.label

/-- `booted_label`: the first label with the `init=` of the running system. -/
def bootedLabel (s : System) : Option String := (bootedInit s).bind (labelOfInit s.entries)

/-- `read_state`: the state, unless one of its fields is unusable. -/
def readState (s : System) : Option TryState :=
  s.state.filter fun state => validLabel state.candidate && validLabel state.fallback
    && state.candidateInit ≠ "" && state.fallbackInit ≠ ""

/-- The running system is the candidate of the state, by label and by `init=`. -/
def IsCandidate (s : System) (state : TryState) : Prop :=
  bootedLabel s = some state.candidate ∧ bootedInit s = some state.candidateInit

instance (s : System) (state : TryState) : Decidable (IsCandidate s state) :=
  inferInstanceAs (Decidable (_ ∧ _))

/-! ## Replacing the files -/

/-- One replacement of a file. -/
inductive FileOp where
  | setDefault (label : String)
  | writeState (candidate fallback : String) (phase : Phase)
  | removeState
  deriving DecidableEq, Repr

section

-- The script asks awk whether two labels are equal. awk compares two texts that look like numbers
-- as numbers, so that `6.1` is `6.10`; how it does is not part of the script.
variable (awkEq : String → String → Bool)

/-- `label_exists` -/
def labelExists (entries : List Entry) (label : String) : Bool :=
  entries.any fun entry => awkEq entry.label label

/-- `label_init`: the first `init=` of the label. -/
def labelInit (entries : List Entry) (label : String) : Option String :=
  entries.findSome? fun entry => if awkEq entry.label label then entry.init else none

/-- `set_default`, `write_state` and the removal of the state, or nothing where the script dies. -/
def FileOp.apply (s : System) : FileOp → Option System
  | .setDefault label =>
      if validLabel label && labelExists awkEq s.entries label then some { s with default := label }
      else none
  | .writeState candidate fallback phase =>
      if validLabel candidate && validLabel fallback && labelExists awkEq s.entries candidate
          && labelExists awkEq s.entries fallback then
        match labelInit awkEq s.entries candidate, labelInit awkEq s.entries fallback with
        | some candidateInit, some fallbackInit =>
            some { s with state := some { candidate, candidateInit, fallback, fallbackInit, phase } }
        | _, _ => none
      else none
  | .removeState => some { s with state := none }

/-- Perform the replacements in order, up to the first that dies. -/
def performAll : List FileOp → System → System
  | [], s => s
  | op :: rest, s =>
      match op.apply awkEq s with
      | none => s
      | some s => performAll rest s

end

/-! ## The commands -/

/-- The file replacements of `cmd_arm` once its fallback is known. -/
def armActions (candidate fallback : String) : List FileOp :=
  if validLabel candidate && validLabel fallback && candidate ≠ fallback then
    [.writeState candidate fallback .armed, .setDefault candidate]
  else []

/-- `cmd_early_rollback` -/
def earlyRollbackActions (s : System) : List FileOp :=
  match readState s with
  | none => []
  | some state =>
      if IsCandidate s state then
        [.setDefault state.fallback, .writeState state.candidate state.fallback .rollbackArmed]
      else []

/-- `cmd_bless` -/
def blessActions (s : System) : List FileOp :=
  match readState s with
  | none => []
  | some state => if IsCandidate s state then [.setDefault state.candidate, .removeState] else []

/-- `cmd_rollback_now` -/
def rollbackNowActions (s : System) : List FileOp :=
  match readState s with
  | none => []
  | some state => [.setDefault state.fallback, .removeState]

/-- The arming that the activation script `extlinuxTryBootAutoArm` asks for: the label that is
`DEFAULT` with the running one as its fallback, when they differ. -/
def autoArm (s : System) : Option (String × String) :=
  match bootedLabel s with
  | none => none
  | some booted =>
      if booted ≠ "" ∧ s.default ≠ "" ∧ s.default ≠ booted then some (s.default, booted) else none

/-- The commands of the script and the activation script. -/
inductive Command where
  | arm (candidate : String) (fallback : Option String)
  | earlyRollback
  | bless
  | rollbackNow
  | activate
  deriving DecidableEq, Repr

/-- The fallback of `cmd_arm`: its second argument, or the current `DEFAULT`. -/
def armFallback (s : System) : Option String → String
  | none => s.default
  | some fallback => if fallback = "" then s.default else fallback

/-- The arming that a command asks for. -/
def Command.arming (s : System) : Command → Option (String × String)
  | .arm candidate fallback => some (candidate, armFallback s fallback)
  | .activate => autoArm s
  | _ => none

/-- The file replacements of a command. -/
def Command.actions (s : System) : Command → List FileOp
  | .earlyRollback => earlyRollbackActions s
  | .bless => blessActions s
  | .rollbackNow => rollbackNowActions s
  | command =>
      match command.arming s with
      | none => []
      | some (candidate, fallback) => armActions candidate fallback

/-! ## Trials -/

/-- The trial that the state file records, when the running system was started from the label of
its candidate. Whether the script finds that out is another matter. -/
def trialBoot (s : System) : Option TryState :=
  s.state.filter fun state =>
    s.booted.any fun entry => entry ∈ s.entries ∧ entry.label = state.candidate

section

variable (awkEq : String → String → Bool)

/-- What an arming means once its first replacement is done: the candidate is on trial. -/
def armed (s : System) (candidate fallback : String) : Option Event :=
  ((armActions candidate fallback).head?.bind (FileOp.apply awkEq s)).map fun _ =>
    .armed candidate fallback

/-- What `cmd_bless` means once its first replacement is done: its candidate is blessed. -/
def blessed (s : System) : Option Event :=
  ((readState s).filter fun state => IsCandidate s state).bind fun state =>
    (FileOp.apply awkEq s (.setDefault state.candidate)).map fun _ => .blessed state.candidate

/-- What a command means for the trials if a crash lets it get through so many replacements. A
command that is cut off before its first replacement means nothing. -/
def Command.event (s : System) (completed : Nat) (command : Command) : Option Event :=
  if completed = 0 ∧ command.actions s ≠ [] then none
  else
    match command with
    | .earlyRollback =>
        (trialBoot s).map fun state => .rolledBack state.candidate state.fallback
    | .bless => blessed awkEq s
    | .rollbackNow => none
    | command =>
        (command.arming s).bind fun (candidate, fallback) => armed awkEq s candidate fallback

/-- A command that gets through so many replacements. -/
def Command.run (s : System) (completed : Nat) (command : Command) : System :=
  { performAll awkEq ((command.actions s).take completed) s with
    log := (command.event awkEq s completed).toList ++ s.log }

/-- The steps of the machine. A command gets through some of its replacements and then ends or
crashes; a reboot starts an entry with the `DEFAULT` label. An arming has to be admitted. -/
inductive Step (admitted : System → String → String → Prop) : System → System → Prop where
  | command (s : System) (command : Command) (completed : Nat)
      (allowed : ∀ candidate fallback, command.arming s = some (candidate, fallback) →
        admitted s candidate fallback) :
      Step admitted s (command.run awkEq s completed)
  | reboot (s : System) (entry : Entry) (listed : entry ∈ s.entries)
      (starts : entry.label = s.default) :
      Step admitted s { s with booted := some entry }

end

end NanoKvm.TryBoot
