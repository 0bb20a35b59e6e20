import NanoKvm.Peripherals.I2c

/-!
# What a transfer does on the bus

Every trace of `transfer`: the commands are a prefix of `reference`, one read command at a time,
and the bytes that were received fill the read slice. `i2c_session` adds what an error means for
the calls after it.
-/

namespace NanoKvm.I2c

open Exec

/-! ## What is seen of a trace -/

/-- The word that an operation wrote to the data register. -/
def commandOf : IoEvent → Option UInt32
  | ⟨.command value, _⟩ => some value
  | _ => none

/-- The byte that an operation read from the data register. -/
def byteOf : IoEvent → Option UInt8
  | ⟨.read, byte⟩ => some byte
  | _ => none

/-- An enable sample or a status sample, which begins with the interrupts. -/
def isSample : IoEvent → Bool
  | ⟨.enabled, _⟩ | ⟨.interrupt, _⟩ => true
  | _ => false

def commands (events : List IoEvent) : List UInt32 := events.filterMap commandOf

def received (events : List IoEvent) : List UInt8 := events.filterMap byteOf

def samples (events : List IoEvent) : Nat := events.countP isSample

/-- A read command is issued when none is outstanding, and a byte is read when one is. -/
def OneAtATime : Bool → List IoEvent → Prop
  | _, [] => True
  | outstanding, event :: rest =>
      match commandOf event, byteOf event with
      | some value, _ =>
          if value &&& 0x100 = 0 then OneAtATime outstanding rest
          else outstanding = false ∧ OneAtATime true rest
      | none, some _ => outstanding = true ∧ OneAtATime false rest
      | none, none => OneAtATime outstanding rest

/-- The last word of a sequence with the stop bit. -/
def stopLast : List UInt32 → List UInt32
  | [] => []
  | [word] => [word ||| 0x200]
  | word :: rest => word :: stopLast rest

/-- The read commands, the first of them after a restart. -/
def readReference (restart : Bool) : Nat → List UInt32
  | 0 => []
  | count + 1 => (if restart then 0x500 else 0x100) :: List.replicate count 0x100

/-- The reference sequence: the bytes to write, then the read commands, a stop on the last. -/
def reference (write : List UInt8) (count : Nat) : List UInt32 :=
  stopLast (write.map UInt8.toUInt32 ++ readReference (!write.isEmpty) count)

/-! ## Polling -/

/-- The operations leave the data register alone. -/
def Quiet (events : List IoEvent) : Prop :=
  ∀ event ∈ events, commandOf event = none ∧ byteOf event = none

section

variable {events first second : List IoEvent}

theorem quiet_nil : Quiet [] := fun _ h => (by cases h)

theorem Quiet.append (hfirst : Quiet first) (hsecond : Quiet second) : Quiet (first ++ second) :=
  fun event h => (List.mem_append.mp h).elim (hfirst event) (hsecond event)

theorem Quiet.commands_eq (h : Quiet events) : commands events = [] :=
  List.filterMap_eq_nil_iff.mpr fun event hevent => (h event hevent).1

theorem Quiet.received_eq (h : Quiet events) : received events = [] :=
  List.filterMap_eq_nil_iff.mpr fun event hevent => (h event hevent).2

theorem Quiet.one_at_a_time (h : Quiet first) {outstanding : Bool} :
    OneAtATime outstanding (first ++ second) ↔ OneAtATime outstanding second := by
  induction first with
  | nil => rfl
  | cons event rest ih =>
      obtain ⟨⟨hcommand, hbyte⟩, hrest⟩ := List.forall_mem_cons.mp h
      rw [List.cons_append, OneAtATime, hcommand, hbyte]
      exact ih hrest

theorem Quiet.one_at_a_time_alone (h : Quiet first) {outstanding : Bool} :
    OneAtATime outstanding first := by
  have hnil : OneAtATime outstanding (first ++ []) := h.one_at_a_time.mpr trivial
  rwa [List.append_nil] at hnil

theorem one_at_a_time_command {value : UInt32} (h : value &&& 0x100 ≠ 0)
    {result : (Op.command value).Ret} :
    OneAtATime false (⟨.command value, result⟩ :: events) ↔ false = false ∧ OneAtATime true events := by
  show (if value &&& 0x100 = 0 then _ else _) ↔ _
  rw [if_neg h]

theorem commands_command (value : UInt32) (result : (Op.command value).Ret) :
    commands (⟨.command value, result⟩ :: events) = value :: commands events := rfl

theorem received_command (value : UInt32) (result : (Op.command value).Ret) :
    received (⟨.command value, result⟩ :: events) = received events := rfl

theorem samples_command (value : UInt32) (result : (Op.command value).Ret) :
    samples (⟨.command value, result⟩ :: events) = samples events :=
  List.countP_cons_of_neg (by simp [isSample])

theorem commands_read (byte : Op.read.Ret) : commands (⟨.read, byte⟩ :: events) = commands events := rfl

theorem received_read (byte : Op.read.Ret) :
    received (⟨.read, byte⟩ :: events) = byte :: received events := rfl

theorem samples_read (byte : Op.read.Ret) : samples (⟨.read, byte⟩ :: events) = samples events :=
  List.countP_cons_of_neg (by simp [isSample])

@[simp] theorem commands_append :
    commands (first ++ second) = commands first ++ commands second :=
  List.filterMap_append

@[simp] theorem received_append :
    received (first ++ second) = received first ++ received second :=
  List.filterMap_append

@[simp] theorem samples_append : samples (first ++ second) = samples first + samples second :=
  List.countP_append

end

/-- The budget that is left; none after an error. -/
def left : Except Error Nat → Nat
  | .ok budget => budget
  | .error _ => 0

section

variable {events : List IoEvent}

theorem sample_trace {result : Except Error (UInt32 × UInt32)}
    (h : sample.Trace events result) : Quiet events ∧ samples events = 1 := by
  obtain ⟨interrupt, later, rfl, hlater⟩ := Prog.trace_perform.mp h
  split at hlater
  · obtain ⟨source, last, rfl, hlast⟩ := Prog.trace_perform.mp hlater
    obtain ⟨rfl, -⟩ := Prog.trace_pure.mp hlast
    exact ⟨by simp [Quiet, commandOf, byteOf], rfl⟩
  · split at hlater
    · obtain ⟨rfl, -⟩ := Prog.trace_pure.mp hlater
      exact ⟨by simp [Quiet, commandOf, byteOf], rfl⟩
    · obtain ⟨status, last, rfl, hlast⟩ := Prog.trace_perform.mp hlater
      obtain ⟨rfl, -⟩ := Prog.trace_pure.mp hlast
      exact ⟨by simp [Quiet, commandOf, byteOf], rfl⟩

/-- A wait uses up its budget one sample at a time. -/
theorem wait_status_trace {mask : UInt32} {budget : Nat} {result : Except Error Nat}
    (h : (waitStatus mask budget).Trace events result) :
    Quiet events ∧ samples events + left result ≤ budget := by
  induction budget generalizing events with
  | zero =>
      obtain ⟨rfl, rfl⟩ := Prog.trace_pure.mp h
      exact ⟨quiet_nil, Nat.le_refl _⟩
  | succ budget ih =>
      obtain ⟨sampled, rest, value, rfl, hsample, h⟩ := Prog.trace_bind.mp h
      obtain ⟨hquiet, hone⟩ := sample_trace hsample
      rw [samples_append, hone]
      cases value with
      | error error =>
          obtain ⟨rfl, rfl⟩ := Prog.trace_pure.mp h
          refine ⟨hquiet.append quiet_nil, ?_⟩
          show 1 + 0 + 0 ≤ budget + 1
          omega
      | ok value =>
          dsimp only at h
          split at h
          · obtain ⟨rfl, rfl⟩ := Prog.trace_pure.mp h
            refine ⟨hquiet.append quiet_nil, ?_⟩
            show 1 + 0 + budget ≤ budget + 1
            omega
          · obtain ⟨hrest, hbudget⟩ := ih h
            exact ⟨hquiet.append hrest, by omega⟩

theorem wait_enabled_trace {budget : Nat} {result : Except Error Nat}
    (h : (waitEnabled budget).Trace events result) :
    Quiet events ∧ samples events + left result ≤ budget := by
  induction budget generalizing events with
  | zero =>
      obtain ⟨rfl, rfl⟩ := Prog.trace_pure.mp h
      exact ⟨quiet_nil, Nat.le_refl _⟩
  | succ budget ih =>
      obtain ⟨enabled, later, rfl, hlater⟩ := Prog.trace_perform.mp h
      have hone : samples (⟨.enabled, enabled⟩ :: later) = samples later + 1 :=
        List.countP_cons_of_pos rfl
      rw [hone]
      split at hlater
      · obtain ⟨rfl, rfl⟩ := Prog.trace_pure.mp hlater
        refine ⟨by simp [Quiet, commandOf, byteOf], ?_⟩
        show 0 + 1 + budget ≤ budget + 1
        omega
      · obtain ⟨hquiet, hbudget⟩ := ih hlater
        exact ⟨List.forall_mem_cons.mpr ⟨⟨rfl, rfl⟩, hquiet⟩, by omega⟩

theorem wait_stop_trace {budget : Nat} {result : Except Error Unit}
    (h : (waitStop budget).Trace events result) : Quiet events ∧ samples events ≤ budget := by
  induction budget generalizing events with
  | zero =>
      obtain ⟨rfl, rfl⟩ := Prog.trace_pure.mp h
      exact ⟨quiet_nil, Nat.le_refl _⟩
  | succ budget ih =>
      obtain ⟨sampled, rest, value, rfl, hsample, h⟩ := Prog.trace_bind.mp h
      obtain ⟨hquiet, hone⟩ := sample_trace hsample
      rw [samples_append, hone]
      cases value with
      | error error =>
          obtain ⟨rfl, rfl⟩ := Prog.trace_pure.mp h
          refine ⟨hquiet.append quiet_nil, ?_⟩
          show 1 + 0 ≤ budget + 1
          omega
      | ok value =>
          dsimp only at h
          split at h
          · obtain ⟨rfl, rfl⟩ := Prog.trace_pure.mp h
            refine ⟨hquiet.append quiet_nil, ?_⟩
            show 1 + 0 ≤ budget + 1
            omega
          · obtain ⟨hrest, hbudget⟩ := ih h
            exact ⟨hquiet.append hrest, by omega⟩

end

/-! ## The commands -/

/-- The commands of the loop over the bytes to write. -/
def writeCommands (readEmpty : Bool) : List UInt8 → List UInt32
  | [] => []
  | byte :: rest =>
      writeCommand byte (rest.isEmpty && readEmpty) :: writeCommands readEmpty rest

/-- The commands of the loop over the bytes to read. -/
def readCommands (writeEmpty : Bool) : Nat → List UInt8 → List UInt32
  | _, [] => []
  | index, _ :: rest =>
      readCommand (index == 0 && !writeEmpty) rest.isEmpty ::
        readCommands writeEmpty (index + 1) rest

theorem stop_last_cons (word : UInt32) {rest : List UInt32} (h : rest ≠ []) :
    stopLast (word :: rest) = word :: stopLast rest := by
  obtain ⟨next, later, rfl⟩ := List.exists_cons_of_ne_nil h
  rfl

theorem write_commands_more (write : List UInt8) :
    writeCommands false write = write.map UInt8.toUInt32 := by
  induction write with
  | nil => rfl
  | cons byte rest ih =>
      have hplain : writeCommand byte (rest.isEmpty && false) = byte.toUInt32 := by
        rw [Bool.and_false]
        exact UInt32.or_zero
      rw [writeCommands, hplain, ih]
      rfl

theorem write_commands_last (write : List UInt8) :
    writeCommands true write = stopLast (write.map UInt8.toUInt32) := by
  induction write with
  | nil => rfl
  | cons byte rest ih =>
      cases rest with
      | nil => rfl
      | cons next rest =>
          have hplain : writeCommand byte ((next :: rest).isEmpty && true) = byte.toUInt32 :=
            UInt32.or_zero
          rw [writeCommands, hplain, ih]
          rfl

theorem read_command_more (restart : Bool) :
    readCommand restart false = if restart then 0x500 else 0x100 := by
  cases restart <;> decide

theorem read_command_last (restart : Bool) :
    readCommand restart true = (if restart then 0x500 else 0x100) ||| 0x200 := by
  cases restart <;> decide

theorem read_commands_later (writeEmpty : Bool) (index : Nat) (read : List UInt8) :
    readCommands writeEmpty (index + 1) read =
      stopLast (List.replicate read.length 0x100) := by
  induction read generalizing index with
  | nil => rfl
  | cons byte rest ih =>
      have hlater : (index + 1 == 0 && !writeEmpty) = false := by simp
      rw [readCommands, ih, hlater]
      cases rest with
      | nil => exact congrArg (fun word => [word]) (read_command_last false)
      | cons next rest =>
          rw [show (byte :: next :: rest).length = (next :: rest).length + 1 from rfl,
            List.replicate_succ, stop_last_cons]
          · exact congrArg (fun word => word :: _) (read_command_more false)
          · simp

theorem read_commands_first (writeEmpty : Bool) (read : List UInt8) :
    readCommands writeEmpty 0 read = stopLast (readReference (!writeEmpty) read.length) := by
  cases read with
  | nil => rfl
  | cons byte rest =>
      rw [readCommands, read_commands_later, List.length_cons, readReference]
      cases rest with
      | nil => exact congrArg (fun word => [word]) (read_command_last (!writeEmpty))
      | cons next rest =>
          rw [stop_last_cons]
          · exact congrArg (fun word => word :: _) (read_command_more (!writeEmpty))
          · simp

theorem stop_last_append (first : List UInt32) {second : List UInt32} (h : second ≠ []) :
    stopLast (first ++ second) = first ++ stopLast second := by
  induction first with
  | nil => rfl
  | cons word rest ih =>
      obtain ⟨next, later, hnext⟩ := List.exists_cons_of_ne_nil
        (List.append_ne_nil_of_right_ne_nil rest h)
      rw [List.cons_append, stop_last_cons word (by rw [hnext]; exact List.cons_ne_nil _ _), ih]
      rfl

/-- The two loops issue the reference sequence. -/
theorem loop_commands (write read : List UInt8) :
    writeCommands read.isEmpty write ++ readCommands write.isEmpty 0 read =
      reference write read.length := by
  unfold reference
  rw [read_commands_first]
  cases read with
  | nil =>
      show writeCommands true write ++ [] = stopLast (write.map UInt8.toUInt32 ++ [])
      rw [List.append_nil, List.append_nil, write_commands_last]
  | cons byte rest =>
      have hread : readReference (!write.isEmpty) (byte :: rest).length ≠ [] := by
        rw [List.length_cons, readReference]
        exact List.cons_ne_nil _ _
      rw [stop_last_append _ hread, ← write_commands_more]
      rfl

theorem write_command_no_read (byte : UInt8) (last : Bool) :
    writeCommand byte last &&& 0x100 = 0 := by
  have hbit : ∀ n : Fin 256, ∀ last, writeCommand (.ofFin n) last &&& 0x100 = 0 := by
    decide +kernel
  exact hbit byte.toFin last

theorem read_command_read (restart last : Bool) : readCommand restart last &&& 0x100 ≠ 0 := by
  cases restart <;> cases last <;> decide

/-! ## The loops -/

section

variable {events rest : List IoEvent}

/-- What is sent is a prefix, and all of it without an error. -/
def Sends (events : List IoEvent) (all : List UInt32) (result : Except Error Nat) : Prop :=
  commands events <+: all ∧ ((∃ budget, result = .ok budget) → commands events = all)

theorem write_bytes_trace {readEmpty : Bool} {write : List UInt8} {budget : Nat}
    {result : Except Error Nat} (h : (writeBytes readEmpty write budget).Trace events result) :
    Sends events (writeCommands readEmpty write) result ∧ received events = [] ∧
      samples events + left result ≤ budget ∧
      ∀ rest, OneAtATime false (events ++ rest) ↔ OneAtATime false rest := by
  induction write generalizing events budget with
  | nil =>
      obtain ⟨rfl, rfl⟩ := Prog.trace_pure.mp h
      exact ⟨⟨List.prefix_rfl, fun _ => rfl⟩, rfl, Nat.le_of_eq (Nat.zero_add _), fun _ => Iff.rfl⟩
  | cons byte bytes ih =>
      obtain ⟨waited, later, value, rfl, hwait, hlater⟩ := Prog.trace_bind.mp h
      obtain ⟨hquiet, hspent⟩ := wait_status_trace hwait
      cases value with
      | error error =>
          obtain ⟨rfl, rfl⟩ := Prog.trace_pure.mp hlater
          rw [List.append_nil]
          refine ⟨⟨?_, ?_⟩, hquiet.received_eq, hspent, fun _ => hquiet.one_at_a_time⟩
          · rw [hquiet.commands_eq]
            exact List.nil_prefix
          · rintro ⟨budget, hok⟩
            cases hok
      | ok budget' =>
          obtain ⟨_, sent, rfl, hsent⟩ := Prog.trace_perform.mp hlater
          obtain ⟨⟨hpart, hwhole⟩, hreceived, hbudget, hone⟩ := ih hsent
          have hword := write_command_no_read byte (bytes.isEmpty && readEmpty)
          rw [left] at hspent
          unfold Sends
          rw [commands_append, received_append, samples_append, hquiet.commands_eq,
            hquiet.received_eq, List.nil_append, List.nil_append, writeCommands]
          refine ⟨⟨(List.prefix_cons_inj _).mpr hpart, fun hok => congrArg _ (hwhole hok)⟩,
            hreceived, ?_, fun rest => ?_⟩
          · show samples waited + samples sent + left result ≤ budget
            omega
          · rw [List.append_assoc, hquiet.one_at_a_time, List.cons_append, OneAtATime]
            show (if _ &&& 0x100 = 0 then OneAtATime false (sent ++ rest) else _) ↔ _
            rw [if_pos hword]
            exact hone rest

theorem read_bytes_trace {writeEmpty : Bool} {index : Nat} {read filled : List UInt8} {budget : Nat}
    {result : Except Error Nat}
    (h : (readBytes writeEmpty index read budget).Trace events (result, filled)) :
    Sends events (readCommands writeEmpty index read) result ∧
      filled = received events ++ read.drop (received events).length ∧
      ((∃ budget, result = .ok budget) → filled = received events) ∧
      samples events + left result ≤ budget ∧
      ∀ rest, Quiet rest → OneAtATime false (events ++ rest) := by
  induction read generalizing events budget index result filled with
  | nil =>
      obtain ⟨rfl, heq⟩ := Prog.trace_pure.mp h
      obtain ⟨rfl, rfl⟩ := Prod.mk.inj heq
      refine ⟨⟨List.prefix_rfl, fun _ => rfl⟩, rfl, fun _ => rfl, Nat.le_of_eq (Nat.zero_add _), ?_⟩
      exact fun rest hrest => hrest.one_at_a_time_alone
  | cons byte bytes ih =>
      obtain ⟨waited, later, value, rfl, hwait, hlater⟩ := Prog.trace_bind.mp h
      obtain ⟨hquiet, hspent⟩ := wait_status_trace hwait
      cases value with
      | error error =>
          obtain ⟨rfl, heq⟩ := Prog.trace_pure.mp hlater
          obtain ⟨rfl, rfl⟩ := Prod.mk.inj heq
          unfold Sends
          rw [List.append_nil, hquiet.commands_eq, hquiet.received_eq]
          refine ⟨⟨List.nil_prefix, ?_⟩, rfl, ?_, hspent, ?_⟩
          · rintro ⟨budget, hok⟩
            cases hok
          · rintro ⟨budget, hok⟩
            cases hok
          · exact fun rest hrest => (hquiet.append hrest).one_at_a_time_alone
      | ok budget' =>
          obtain ⟨_, answered, rfl, hanswered⟩ := Prog.trace_perform.mp hlater
          obtain ⟨waited', last, value, rfl, hwait', hlast⟩ := Prog.trace_bind.mp hanswered
          obtain ⟨hquiet', hspent'⟩ := wait_status_trace hwait'
          have hword := read_command_read (index == 0 && !writeEmpty) bytes.isEmpty
          rw [left] at hspent
          cases value with
          | error error =>
              obtain ⟨rfl, heq⟩ := Prog.trace_pure.mp hlast
              obtain ⟨rfl, rfl⟩ := Prod.mk.inj heq
              unfold Sends
              rw [commands_append, received_append, samples_append, hquiet.commands_eq,
                hquiet.received_eq, List.append_nil, List.nil_append, List.nil_append,
                commands_command, received_command, samples_command, hquiet'.commands_eq,
                hquiet'.received_eq, readCommands]
              refine ⟨⟨(List.prefix_cons_inj _).mpr List.nil_prefix, ?_⟩, rfl, ?_, ?_, ?_⟩
              · rintro ⟨budget, hok⟩
                cases hok
              · rintro ⟨budget, hok⟩
                cases hok
              · omega
              · intro rest hrest
                rw [List.append_assoc, hquiet.one_at_a_time, List.cons_append,
                  one_at_a_time_command hword]
                exact ⟨rfl, (hquiet'.append hrest).one_at_a_time_alone⟩
          | ok budget'' =>
              obtain ⟨received', filling, rfl, hfilling⟩ := Prog.trace_perform.mp hlast
              obtain ⟨final, nothing, pair, rfl, hfinal, hpure⟩ := Prog.trace_bind.mp hfilling
              obtain ⟨rfl, heq⟩ := Prog.trace_pure.mp hpure
              obtain ⟨rfl, rfl⟩ := Prod.mk.inj heq
              obtain ⟨⟨hpart, hwhole⟩, hfilled, hall, hbudget, hone⟩ := ih hfinal
              rw [left] at hspent'
              unfold Sends
              rw [commands_append, received_append, samples_append, hquiet.commands_eq,
                hquiet.received_eq, List.append_nil, List.nil_append, List.nil_append,
                commands_command, received_command, samples_command, commands_append,
                received_append, samples_append, hquiet'.commands_eq, hquiet'.received_eq,
                List.nil_append, List.nil_append, commands_read, received_read, samples_read,
                readCommands]
              refine ⟨⟨(List.prefix_cons_inj _).mpr hpart, fun hok => congrArg _ (hwhole hok)⟩,
                congrArg _ hfilled, fun hok => congrArg _ (hall hok), by omega, ?_⟩
              intro rest hrest
              rw [List.append_assoc, hquiet.one_at_a_time, List.cons_append,
                one_at_a_time_command hword, List.append_assoc, hquiet'.one_at_a_time,
                List.cons_append]
              exact ⟨rfl, rfl, hone rest hrest⟩

end

/-! ## Transfers -/

/-- What the bytes of a transfer come to: the commands, the bytes received, one at a time. -/
structure Exchanged (write read : List UInt8) (events : List IoEvent) (result : Except Error Unit)
    (filled : List UInt8) : Prop where
  part : commands events <+: reference write read.length
  whole : result = .ok () → commands events = reference write read.length
  slice : filled = received events ++ read.drop (received events).length
  full : result = .ok () → filled = received events
  oneAtATime : OneAtATime false events

section

variable {events first last : List IoEvent} {write read filled : List UInt8}
  {result : Except Error Unit}

/-- Polling before and after changes nothing. -/
theorem Exchanged.around (h : Exchanged write read events result filled)
    (hone : ∀ rest, Quiet rest → OneAtATime false (events ++ rest))
    (hfirst : Quiet first) (hlast : Quiet last) :
    Exchanged write read (first ++ (events ++ last)) result filled := by
  have hcommands : commands (first ++ (events ++ last)) = commands events := by
    rw [commands_append, commands_append, hfirst.commands_eq, hlast.commands_eq, List.nil_append,
      List.append_nil]
  have hreceived : received (first ++ (events ++ last)) = received events := by
    rw [received_append, received_append, hfirst.received_eq, hlast.received_eq, List.nil_append,
      List.append_nil]
  constructor
  · rw [hcommands]
    exact h.part
  · rw [hcommands]
    exact h.whole
  · rw [hreceived]
    exact h.slice
  · rw [hreceived]
    exact h.full
  · exact hfirst.one_at_a_time.mpr (hone last hlast)

/-- Nothing was exchanged. -/
theorem Quiet.exchanged (h : Quiet events) {error : Error} :
    Exchanged write read events (.error error) read where
  part := by
    rw [h.commands_eq]
    exact List.nil_prefix
  whole hok := by cases hok
  slice := by
    rw [h.received_eq]
    rfl
  full hok := by cases hok
  oneAtATime := h.one_at_a_time_alone

theorem exchange_trace {budget : UInt32}
    (h : (exchange write read budget).Trace events (result, filled)) :
    Exchanged write read events result filled ∧ samples events ≤ budget.toNat ∧
      ∀ rest, Quiet rest → OneAtATime false (events ++ rest) := by
  obtain ⟨enabling, later, value, rfl, henabled, hlater⟩ := Prog.trace_bind.mp h
  obtain ⟨hquiet, hspent⟩ := wait_enabled_trace henabled
  cases value with
  | error error =>
      obtain ⟨rfl, heq⟩ := Prog.trace_pure.mp hlater
      obtain ⟨rfl, rfl⟩ := Prod.mk.inj heq
      rw [List.append_nil]
      exact ⟨hquiet.exchanged, hspent, fun rest hrest => (hquiet.append hrest).one_at_a_time_alone⟩
  | ok budget' =>
      rw [left] at hspent
      obtain ⟨writing, later', value, rfl, hwrite, hlater'⟩ := Prog.trace_bind.mp hlater
      obtain ⟨⟨hpart, hwhole⟩, hnone, hspent', hone⟩ := write_bytes_trace hwrite
      cases value with
      | error error =>
          obtain ⟨rfl, heq⟩ := Prog.trace_pure.mp hlater'
          obtain ⟨rfl, rfl⟩ := Prod.mk.inj heq
          have hall : ∀ rest, Quiet rest → OneAtATime false (enabling ++ (writing ++ []) ++ rest) := by
            intro rest hrest
            rw [List.append_assoc, hquiet.one_at_a_time, List.append_nil, hone]
            exact hrest.one_at_a_time_alone
          refine ⟨⟨?_, fun hok => (by cases hok), ?_, fun hok => (by cases hok), ?_⟩, ?_, hall⟩
          · rw [commands_append, commands_append, hquiet.commands_eq, List.nil_append]
            show commands writing ++ [] <+: _
            rw [List.append_nil, ← loop_commands]
            exact hpart.trans (List.prefix_append _ _)
          · rw [received_append, received_append, hquiet.received_eq, hnone]
            rfl
          · exact List.append_nil (enabling ++ (writing ++ [])) ▸ hall [] quiet_nil
          · rw [left] at hspent'
            rw [samples_append, samples_append]
            show samples enabling + (samples writing + 0) ≤ budget.toNat
            omega
      | ok budget'' =>
          rw [left] at hspent'
          have hwritten := hwhole ⟨budget'', rfl⟩
          obtain ⟨reading, later'', value, rfl, hread, hlater''⟩ := Prog.trace_bind.mp hlater'
          obtain ⟨result', filled'⟩ := value
          obtain ⟨⟨hpart', hwhole'⟩, hfilled, hfull, hspent'', hone'⟩ := read_bytes_trace hread
          -- what follows the bytes is polling, with or without an error before it
          have hends : ∃ ending, later'' = ending ∧ Quiet ending ∧
              samples ending ≤ left result' ∧ filled = filled' ∧
              (result = .ok () → ∃ budget, result' = .ok budget) := by
            cases result' with
            | error error =>
                obtain ⟨rfl, heq⟩ := Prog.trace_pure.mp hlater''
                obtain ⟨rfl, rfl⟩ := Prod.mk.inj heq
                exact ⟨[], rfl, quiet_nil, Nat.le_refl _, rfl, fun hok => (by cases hok)⟩
            | ok budget =>
                obtain ⟨stopping, nothing, stopped, rfl, hstop, hpure⟩ := Prog.trace_bind.mp hlater''
                obtain ⟨rfl, heq⟩ := Prog.trace_pure.mp hpure
                obtain ⟨rfl, rfl⟩ := Prod.mk.inj heq
                obtain ⟨hquiet', hstopped⟩ := wait_stop_trace hstop
                rw [List.append_nil]
                exact ⟨stopping, rfl, hquiet', hstopped, rfl, fun _ => ⟨budget, rfl⟩⟩
          obtain ⟨ending, rfl, hquiet', hstopped, rfl, hok⟩ := hends
          have hcommands : commands (enabling ++ (writing ++ (reading ++ later''))) =
              writeCommands read.isEmpty write ++ commands reading := by
            rw [commands_append, commands_append, commands_append, hquiet.commands_eq,
              hquiet'.commands_eq, hwritten, List.nil_append, List.append_nil]
          have hreceived : received (enabling ++ (writing ++ (reading ++ later''))) =
              received reading := by
            rw [received_append, received_append, received_append, hquiet.received_eq,
              hquiet'.received_eq, hnone, List.nil_append, List.nil_append, List.append_nil]
          have hall : ∀ rest, Quiet rest →
              OneAtATime false (enabling ++ (writing ++ (reading ++ later'')) ++ rest) := by
            intro rest hrest
            rw [List.append_assoc, hquiet.one_at_a_time, List.append_assoc, hone, List.append_assoc]
            exact hone' _ (hquiet'.append hrest)
          refine ⟨⟨?_, fun hresult => ?_, ?_, fun hresult => ?_, ?_⟩, ?_, hall⟩
          · rw [hcommands, ← loop_commands]
            exact (List.prefix_append_right_inj _).mpr hpart'
          · rw [hcommands, ← loop_commands, hwhole' (hok hresult)]
          · rw [hreceived]
            exact hfilled
          · rw [hreceived]
            exact hfull (hok hresult)
          · exact List.append_nil (enabling ++ (writing ++ (reading ++ later''))) ▸
              hall [] quiet_nil
          · rw [samples_append, samples_append, samples_append]
            omega

theorem wait_disabled_quiet {polls : Nat} (h : (waitDisabled polls).Trace events result) :
    Quiet events := by
  induction polls generalizing events with
  | zero =>
      obtain ⟨rfl, -⟩ := Prog.trace_pure.mp h
      exact quiet_nil
  | succ polls ih =>
      obtain ⟨enabled, later, rfl, hlater⟩ := Prog.trace_perform.mp h
      refine List.forall_mem_cons.mpr ⟨⟨rfl, rfl⟩, ?_⟩
      split at hlater
      · exact ih hlater
      · obtain ⟨rfl, -⟩ := Prog.trace_pure.mp hlater
        simp

theorem disable_quiet {polls : UInt32} (h : (disable polls).Trace events result) :
    Quiet events := by
  obtain ⟨_, later, rfl, hlater⟩ := Prog.trace_perform.mp h
  exact List.forall_mem_cons.mpr ⟨⟨rfl, rfl⟩, wait_disabled_quiet hlater⟩

theorem busy_quiet {found : Bool} (h : busy.Trace events found) : Quiet events := by
  obtain ⟨enabled, later, rfl, hlater⟩ := Prog.trace_perform.mp h
  refine List.forall_mem_cons.mpr ⟨⟨rfl, rfl⟩, ?_⟩
  split at hlater
  · obtain ⟨rfl, -⟩ := Prog.trace_pure.mp hlater
    simp
  · obtain ⟨status, last, rfl, hlast⟩ := Prog.trace_perform.mp hlater
    obtain ⟨rfl, -⟩ := Prog.trace_pure.mp hlast
    simp [commandOf, byteOf]

/-- A failed clean-up takes the result's place. -/
theorem Exchanged.fail (h : Exchanged write read events result filled) (error : Error) :
    Exchanged write read events (.error error) filled :=
  ⟨h.part, fun hok => (by cases hok), h.slice, fun hok => (by cases hok), h.oneAtATime⟩

/-- An early return. -/
theorem exchanged_nothing (error : Error) : Exchanged write read [] (.error error) read :=
  Quiet.exchanged quiet_nil

/-- A transfer exchanges its bytes, and an error after the first access unconfigures the driver. -/
theorem transfer_trace {configured : Bool} {address : Address} {polls : UInt32}
    {done : Transferred} (h : (transfer configured address write read polls).Trace events done) :
    Exchanged write read events done.result done.read ∧
      (∀ error, done.result = .error error → events ≠ [] → done.configured = false) := by
  unfold transfer at h
  split at h
  · obtain ⟨rfl, rfl⟩ := Prog.trace_pure.mp h
    exact ⟨exchanged_nothing _, fun _ _ hne => absurd rfl hne⟩
  split at h
  · obtain ⟨rfl, rfl⟩ := Prog.trace_pure.mp h
    exact ⟨exchanged_nothing _, fun _ _ hne => absurd rfl hne⟩
  split at h
  · rename_i hempty
    obtain ⟨rfl, rfl⟩ := Prog.trace_pure.mp h
    obtain ⟨hwrite, hread⟩ := Bool.and_eq_true_iff.mp hempty
    rw [List.isEmpty_iff] at hwrite hread
    subst hwrite hread
    exact ⟨⟨List.prefix_rfl, fun _ => rfl, rfl, fun _ => rfl, trivial⟩,
      fun _ _ hne => absurd rfl hne⟩
  split at h
  · obtain ⟨rfl, rfl⟩ := Prog.trace_pure.mp h
    exact ⟨exchanged_nothing _, fun _ _ hne => absurd rfl hne⟩
  obtain ⟨checking, later, found, rfl, hbusy, hlater⟩ := Prog.trace_bind.mp h
  have hquiet := busy_quiet hbusy
  split at hlater
  · obtain ⟨rfl, rfl⟩ := Prog.trace_pure.mp hlater
    rw [List.append_nil]
    exact ⟨hquiet.exchanged, fun _ _ _ => rfl⟩
  obtain ⟨_, cleared, rfl, hcleared⟩ := Prog.trace_perform.mp hlater
  obtain ⟨_, targeted, rfl, htargeted⟩ := Prog.trace_perform.mp hcleared
  obtain ⟨_, started, rfl, hstarted⟩ := Prog.trace_perform.mp htargeted
  obtain ⟨exchanging, ending, value, rfl, hexchange, hending⟩ := Prog.trace_bind.mp hstarted
  obtain ⟨result, filled⟩ := value
  obtain ⟨hexchanged, -, hone⟩ := exchange_trace hexchange
  obtain ⟨disabling, last, cleanup, rfl, hdisable, hlast⟩ := Prog.trace_bind.mp hending
  have hquiet' := disable_quiet hdisable
  have hsetup : Quiet [⟨.clear, ()⟩, ⟨.target address, ()⟩, ⟨.enable 1, ()⟩] := by
    simp [Quiet, commandOf, byteOf]
  have hbefore := hquiet.append hsetup
  cases cleanup with
  | error error =>
      obtain ⟨rfl, rfl⟩ := Prog.trace_pure.mp hlast
      have haround := hexchanged.around hone hbefore (hquiet'.append quiet_nil)
      rw [List.append_assoc] at haround
      exact ⟨haround.fail error, fun _ _ _ => rfl⟩
  | ok _ =>
      obtain ⟨_, nothing, rfl, hpure⟩ := Prog.trace_perform.mp hlast
      obtain ⟨rfl, rfl⟩ := Prog.trace_pure.mp hpure
      have hcleared : Quiet [(⟨.clear, ()⟩ : IoEvent)] := by simp [Quiet, commandOf, byteOf]
      have haround := hexchanged.around hone hbefore (hquiet'.append hcleared)
      rw [List.append_assoc] at haround
      refine ⟨haround, fun error herror _ => ?_⟩
      rw [show result = .error error from herror]
      rfl

end

/-! ## Sessions -/

/-- A call of the driver. -/
inductive Call where
  | configure (timing : Timing) (polls : UInt32)
  | transfer (address : Address) (write read : List UInt8) (polls : UInt32)

/-- The program of a call. -/
def Call.run (configured : Bool) : Call → Io Transferred
  | .configure timing polls => do
      let (result, configured) ← I2c.configure timing polls
      pure ⟨result, [], configured⟩
  | .transfer address write read polls => I2c.transfer configured address write read polls

/-- A call that was made, what it did and what it left. -/
structure CallRecord where
  call : Call
  events : List IoEvent
  done : Transferred

/-- One call after another, on a driver that is configured or not. -/
inductive Session : Bool → List CallRecord → Prop where
  | nil (configured : Bool) : Session configured []
  | cons {configured : Bool} {record : CallRecord} {rest : List CallRecord}
      (h : (record.call.run configured).Trace record.events record.done)
      (hrest : Session record.done.configured rest) : Session configured (record :: rest)

/-- The driver was configured by this call. -/
def CallRecord.configures (record : CallRecord) : Prop :=
  match record.call with
  | .configure _ _ => record.done.result = .ok ()
  | .transfer _ _ _ _ => False

/-- A transfer was refused without an access. -/
def CallRecord.Refused (record : CallRecord) : Prop :=
  match record.call with
  | .configure _ _ => True
  | .transfer _ _ _ _ => record.events = [] ∧ record.done.result = .error .unconfigured

/-- A transfer issued a prefix of its commands and filled the slice. -/
def CallRecord.Sound (record : CallRecord) : Prop :=
  match record.call with
  | .configure _ _ => True
  | .transfer _ write read _ =>
      Exchanged write read record.events record.done.result record.done.read

section

variable {configured : Bool} {record : CallRecord}

theorem configure_trace {timing : Timing} {polls : UInt32} {events : List IoEvent}
    {done : Except Error Unit × Bool} (h : (configure timing polls).Trace events done) :
    done.2 = done.1.isOk := by
  unfold configure at h
  split at h
  · obtain ⟨-, rfl⟩ := Prog.trace_pure.mp h
    rfl
  obtain ⟨disabling, later, result, -, -, hlater⟩ := Prog.trace_bind.mp h
  cases result with
  | error error =>
      obtain ⟨-, rfl⟩ := Prog.trace_pure.mp hlater
      rfl
  | ok _ =>
      obtain ⟨status, later', -, hlater⟩ := Prog.trace_perform.mp hlater
      split at hlater
      · obtain ⟨-, rfl⟩ := Prog.trace_pure.mp hlater
        rfl
      · obtain ⟨_, _, -, hlater⟩ := Prog.trace_perform.mp hlater
        obtain ⟨_, _, -, hlater⟩ := Prog.trace_perform.mp hlater
        obtain ⟨-, rfl⟩ := Prog.trace_pure.mp hlater
        rfl

/-- After an error of a call that made an access the driver is unconfigured. -/
theorem run_error (h : (record.call.run configured).Trace record.events record.done)
    {error : Error} (herror : record.done.result = .error error) (hne : record.events ≠ []) :
    record.done.configured = false := by
  obtain ⟨call, events, done⟩ := record
  cases call with
  | configure timing polls =>
      obtain ⟨first, second, value, rfl, hconfigure, hpure⟩ := Prog.trace_bind.mp h
      obtain ⟨-, rfl⟩ := Prog.trace_pure.mp hpure
      have hvalue := configure_trace hconfigure
      rw [show value.1 = .error error from herror] at hvalue
      exact hvalue
  | transfer address write read polls => exact (transfer_trace h).2 error herror hne

/-- An unconfigured driver refuses transfers, and stays so until it is configured. -/
theorem run_unconfigured (h : (record.call.run false).Trace record.events record.done) :
    record.Refused ∧ (¬ record.configures → record.done.configured = false) := by
  obtain ⟨call, events, done⟩ := record
  cases call with
  | configure timing polls =>
      obtain ⟨first, second, value, rfl, hconfigure, hpure⟩ := Prog.trace_bind.mp h
      obtain ⟨-, rfl⟩ := Prog.trace_pure.mp hpure
      refine ⟨trivial, fun hnot => ?_⟩
      show value.2 = false
      rw [configure_trace hconfigure]
      cases hresult : value.1 with
      | error error => rfl
      | ok _ => exact absurd hresult hnot
  | transfer address write read polls =>
      obtain ⟨rfl, rfl⟩ := Prog.trace_pure.mp h
      exact ⟨⟨rfl, rfl⟩, fun _ => rfl⟩

theorem session_after {before rest : List CallRecord} (h : Session configured (before ++ rest)) :
    ∃ configured', Session configured' rest := by
  induction before generalizing configured with
  | nil => exact ⟨configured, h⟩
  | cons record before ih =>
      cases h with
      | cons _ hrest => exact ih hrest

theorem session_unconfigured {between : List CallRecord} {refused : CallRecord}
    {after : List CallRecord} (h : Session false (between ++ refused :: after))
    (hbetween : ∀ record ∈ between, ¬ record.configures) : refused.Refused := by
  induction between with
  | nil =>
      cases h with
      | cons hrun _ => exact (run_unconfigured hrun).1
  | cons record between ih =>
      obtain ⟨hrecord, hlater⟩ := List.forall_mem_cons.mp hbetween
      cases h with
      | cons hrun hrest =>
          rw [(run_unconfigured hrun).2 hrecord] at hrest
          exact ih hrest hlater

/-- Every transfer of a session does as it should within its budget, and after an error with an
access transfers are refused until the driver is configured again. -/
theorem i2c_session {log : List CallRecord} (h : Session configured log) :
    (∀ record ∈ log, record.Sound) ∧
    (∀ before failed between refused after,
      log = before ++ failed :: (between ++ refused :: after) →
      (∃ error, failed.done.result = .error error) → failed.events ≠ [] →
      (∀ record ∈ between, ¬ record.configures) → refused.Refused) ∧
    (∀ write read budget events done, (exchange write read budget).Trace events done →
      samples events ≤ budget.toNat) := by
  refine ⟨?_, ?_, ?_⟩
  · induction h with
    | nil => exact fun record hrecord => by cases hrecord
    | @cons configured record rest hrun _ ih =>
        refine List.forall_mem_cons.mpr ⟨?_, ih⟩
        obtain ⟨call, events, done⟩ := record
        cases call with
        | configure timing polls => trivial
        | transfer address write read polls => exact (transfer_trace hrun).1
  · rintro before failed between refused after rfl ⟨error, herror⟩ hne hbetween
    obtain ⟨configured', hfailed⟩ := session_after h
    cases hfailed with
    | cons hrun hrest =>
        rw [run_error hrun herror hne] at hrest
        exact session_unconfigured hrest hbetween
  · exact fun write read budget events done hexchange => (exchange_trace hexchange).2.1

end

/-- The last value of the enable register. -/
def switched (history : List IoEvent) : UInt32 :=
  history.foldl (fun last event =>
    match event.operation with
    | .enable value => value
    | _ => last) 0

/-- A device that is written three bytes, and has one for every read command after them. -/
def obliging (history : List IoEvent) : (operation : Op) → operation.Ret
  | .enabled => decide (switched history = 1)
  | .interrupt => if (received history).length = 4 then (0x200 : UInt32) else (0 : UInt32)
  | .status =>
      if (received history).length = 4 then (4 : UInt32)
      else if 3 + (received history).length < (commands history).length then (8 : UInt32)
      else if switched history = 1 then (2 : UInt32)
      else (0 : UInt32)
  | .abortSource => (0 : UInt32)
  | .read => (.ofNat (0xa0 + (received history).length) : UInt8)
  | .enable _ | .configure _ | .target _ | .clear | .command _ => ()

/-- A device that does not answer to its address. -/
def absent (history : List IoEvent) : (operation : Op) → operation.Ret
  | .interrupt => (0x40 : UInt32)
  | .abortSource => (1 : UInt32)
  | operation => obliging history operation

/-- Three bytes are written and four are read. -/
def readBackCall : Call := .transfer ⟨0x50, by decide⟩ [1, 2, 3] [0, 0, 0, 0] 20

def readBack : CallRecord where
  call := readBackCall
  events := (Prog.runOver obliging [] (readBackCall.run true)).1
  done := (Prog.runOver obliging [] (readBackCall.run true)).2

def aborted : CallRecord where
  call := readBackCall
  events := (Prog.runOver absent [] (readBackCall.run true)).1
  done := (Prog.runOver absent [] (readBackCall.run true)).2

def afterAbort : CallRecord where
  call := readBackCall
  events := (Prog.runOver obliging [] (readBackCall.run false)).1
  done := (Prog.runOver obliging [] (readBackCall.run false)).2

/-- A transfer of several bytes, one that is aborted, and one that is refused after it. -/
theorem i2c_session_read_back :
    readBack.done.read = [0xa0, 0xa1, 0xa2, 0xa3] ∧ readBack.Sound ∧
    (∃ error, aborted.done.result = .error error) ∧ aborted.events ≠ [] ∧
    afterAbort.Refused := by
  have hsession : Session true [readBack, aborted, afterAbort] :=
    .cons (Prog.trace_run_over obliging [] _)
      (.cons (Prog.trace_run_over absent [] _)
        (.cons (Prog.trace_run_over obliging [] _) (.nil false)))
  have haborted : ∃ error, aborted.done.result = .error error := ⟨_, rfl⟩
  have hmade : aborted.events ≠ [] := fun hnone => by
    have hlength : aborted.events.length ≠ 0 := by decide +kernel
    exact hlength (by rw [hnone]; rfl)
  obtain ⟨hsound, hrefused, -⟩ := i2c_session hsession
  exact ⟨by decide +kernel, hsound readBack List.mem_cons_self, haborted, hmade,
    hrefused [readBack] aborted [] afterAbort [] rfl haborted hmade
      fun _ hnone => absurd hnone List.not_mem_nil⟩

end NanoKvm.I2c
