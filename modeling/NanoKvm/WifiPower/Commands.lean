import NanoKvm.Exec.Parallel
import NanoKvm.WifiPower.DriverSide
import NanoKvm.WifiPower.FirmwareSide

/-!
# The power commands

The driver and the power service side by side, from lines that an earlier generation has
left behind. The service applies exactly the requests that Linux has committed, one after
another; a call returns 0 only if its value was applied and read back; nothing is written
after a fault.

Linux copies a request over the old line without revoking its commit first, and the service
answers over the old completion in the same way. So this holds if the lines found at the
start cannot be mistaken: no part of the first request, copied over the leftover request,
makes a record that the service accepts (`Harmless`), and the leftover completion does not
have the commit 1 and the value 0 (`Unambiguous`).
-/

namespace NanoKvm.WifiPower

open Exec

/-- One operation of either side. -/
abbrev PowerStep :
    Pair LinuxOp FirmwareOp LinuxOp.Ret FirmwareOp.Ret Shared Unit Unit →
    Pair LinuxOp FirmwareOp LinuxOp.Ret FirmwareOp.Ret Shared Unit Unit → Prop :=
  ParallelStep Shared.LinuxPerforms Shared.FirmwarePerforms

/-- Nothing has happened in this generation. -/
structure Fresh (s : Shared) : Prop where
  begun : s.begun = []
  committed : s.committed = []
  applied : s.applied = []
  published : s.published = 0

/-- The operations that write to the request line. -/
def LinuxOp.Writes : LinuxOp → Prop
  | .compose _ | .store _ _ _ | .writeCommit _ => True
  | _ => False

theorem fresh_valid {generation : UInt32} {s : Shared} (h : Fresh s) :
    s.Valid generation s.request s.completion where
  applied := by
    rw [h.applied, h.committed]
    exact List.prefix_rfl
  committed := by
    rw [h.committed]
    exact List.nil_prefix
  outstanding := by
    rw [h.begun]
    exact Nat.zero_le _
  published := by
    rw [h.published]
    exact Nat.zero_le _
  unpublished := by
    rw [h.applied]
    exact Nat.zero_le _
  bounded := by
    rw [h.begun]
    exact Nat.two_pow_pos 32
  numbered index record hrecord := by
    rw [h.begun] at hrecord
    exact nomatch hrecord
  idle _ := by
    rw [h.committed]
    rfl
  copying enabled hbegun := by
    rw [h.begun, h.committed] at hbegun
    exact nomatch hbegun
  untouched _ := rfl
  fresh hsome := absurd h.applied hsome
  unfinished record hlast := by
    rw [h.committed] at hlast
    exact nomatch hlast

/-- The invariant holds in every state of a run, and so do the preconditions of what both sides
still have to do. -/
theorem power_run {generation : UInt32} {calls probes steps : Nat} {start s : Shared}
    {linux : LinuxCode Unit} {firmware : FirmwareCode Unit} (hfresh : Fresh start)
    (hleftover : Harmless generation start.request)
    (hanswer : Unambiguous start.completion)
    (hrun : Relation.ReflTransGen PowerStep
      (linuxMain generation calls probes, firmwareMain generation 0 steps, start)
      (linux, firmware, s)) :
    s.Valid generation start.request start.completion ∧
      LinuxRuns generation start.request start.completion linux
        (fun _ t => t.Valid generation start.request start.completion) s ∧
      FirmwareRuns generation start.request start.completion firmware
        (fun _ t => t.Valid generation start.request start.completion) s := by
  have hvalid := @fresh_valid generation start hfresh
  have hlinux := linux_main_runs hanswer calls probes
    (⟨hvalid, by rw [hfresh.begun, hfresh.committed]⟩ : Probing generation _ _ start)
  have hidle : FirmwareIdle generation start.request start.completion 0 start := by
    refine ⟨hvalid, ?_, ?_⟩
    · rw [hfresh.published, hfresh.applied]
      rfl
    · rw [hfresh.applied]
      rfl
  refine parallel_run (linuxMachine generation start.request start.completion)
    (firmwareMachine generation start.request start.completion) ?_ ?_ hvalid hlinux
    (firmware_main_runs hleftover steps hidle) hrun
  · intro state operation result next hallowed hperform
    exact ⟨linux_rely hanswer hallowed hperform,
      fun hvalid => valid_linux hanswer hvalid hallowed hperform⟩
  · intro state operation result next hallowed hperform
    exact ⟨firmware_rely hallowed hperform,
      fun hvalid => valid_firmware hvalid hallowed hperform⟩

/-- In every interleaving of the driver and the power service: the service applies the one request
that Linux has committed and that it has not applied before, as it was committed; the requests of
the generation are numbered from one on and applied in their order, each at most once; a call that
returns 0 has had its value applied and read back, for its own sequence and as the last one; and
the request line is written only while no fault is recorded, by one driver of the generation. -/
theorem power_commands {generation : UInt32} {calls probes steps : Nat} {start s : Shared}
    {linux : LinuxCode Unit} {firmware : FirmwareCode Unit} (hfresh : Fresh start)
    (hleftover : Harmless generation start.request)
    (hanswer : Unambiguous start.completion)
    (hrun : Relation.ReflTransGen PowerStep
      (linuxMain generation calls probes, firmwareMain generation 0 steps, start)
      (linux, firmware, s)) :
    (∀ record rest, firmware = .op (.apply record) rest →
      s.committed = s.applied.map Prod.fst ++ [record]) ∧
    (s.applied.map Prod.fst <+: s.committed ∧
      ∀ index record, s.committed[index]? = some record → index + 1 < 2 ^ 32 ∧
        ∃ enabled, record = command generation (index + 1) enabled) ∧
    (∀ sequence enabled rest, linux = .op (.returned sequence enabled none) rest →
      s.applied.map Prod.fst = s.committed ∧ ∃ record,
        s.applied.getLast? = some (record, true) ∧ record.sequence = sequence ∧
        record.enabled = enabledWord enabled) ∧
    (∀ operation rest, linux = .op operation rest → operation.Writes → s.fault = none) ∧
    (∀ rest, linux = .op .newDriver rest → s.begun = []) := by
  obtain ⟨hvalid, hlinux, hfirmware⟩ := power_run hfresh hleftover hanswer hrun
  refine ⟨?_, ⟨hvalid.applied, ?_⟩, ?_, ?_, ?_⟩
  · intro record rest hnext
    subst hnext
    exact (Machine.wp_guard hfirmware).2
  · intro index record hrecord
    obtain ⟨tail, htail⟩ := hvalid.committed
    obtain ⟨hindex, _⟩ := List.getElem?_eq_some_iff.1 hrecord
    have hbounded := hvalid.bounded
    have hle := hvalid.committed.length_le
    have hbegun : s.begun[index]? = some record := by
      rw [← htail, List.getElem?_append_left hindex]
      exact hrecord
    obtain ⟨enabled, hcommand, _⟩ := hvalid.numbered index record hbegun
    exact ⟨by omega, enabled, hcommand⟩
  · intro sequence enabled rest hnext
    subst hnext
    have hallowed := Machine.wp_guard hlinux
    exact hallowed
  · intro operation rest hnext hwrites
    subst hnext
    have hallowed := Machine.wp_guard hlinux
    cases operation with
    | compose | store | writeCommit => exact hallowed.1
    | _ => exact hwrites.elim
  · intro rest hnext
    subst hnext
    have hallowed := Machine.wp_guard hlinux
    exact hallowed

/-! ## Leftover lines -/

/-- A line without a commit is harmless. -/
theorem harmless_of_uncommitted (generation : UInt32) {leftover : Line}
    (h : leftover.word commitIndex = 0) : Harmless generation leftover := by
  intro copied
  by_contra haccepted
  obtain ⟨hsequence, hcommit⟩ := accepted_commit haccepted
  have hle := splice_commit_le leftover
    (show (requestRecord generation 1 false).commit = 0 from rfl) copied
  have hword : (leftover.splice (requestRecord generation 1 false).line copied).word
      commitIndex = (Record.ofWords
        (leftover.splice (requestRecord generation 1 false).line copied).word).commit := rfl
  rw [hword, hcommit, h] at hle
  exact absurd (Nat.lt_of_lt_of_le hsequence hle) (Nat.lt_irrefl _)

/-! ## Runs -/

/-- Lines that no generation has used. -/
def clearedLines : Shared where
  request _ := 0
  completion _ := 0
  begun := []
  copied := 0
  committed := []
  applied := []
  published := 0
  fault := none

theorem cleared_lines_fresh : Fresh clearedLines := ⟨rfl, rfl, rfl, rfl⟩

/-- The stores of a 64-bit machine. -/
theorem eight_byte_stores : AlignedStores 0 (List.replicate 8 8) := by
  simp only [AlignedStores, List.replicate]
  decide

/-- The service is about to apply the first command. -/
theorem power_commands_apply :
    ∃ linux rest s, Relation.ReflTransGen PowerStep
        (linuxMain 7 0 1, firmwareMain 7 0 1, clearedLines)
        (linux, .op (.apply (command 7 1 false)) rest, s) ∧
      s.committed = s.applied.map Prod.fst ++ [command 7 1 false] := by
  have hrun : ∃ linux rest s, Relation.ReflTransGen PowerStep
      (linuxMain 7 0 1, firmwareMain 7 0 1, clearedLines)
      (linux, .op (.apply (command 7 1 false)) rest, s) := by
    refine ⟨?linux, ?rest, ?state, ?run⟩
    case run =>
      refine run_left (none : Option Errno) rfl ?_
      iterate 16 refine run_left (0 : UInt32) ⟨by decide, rfl⟩ ?_
      refine run_left () rfl ?_
      refine run_left (0 : Nat) rfl ?_
      refine run_left (none : Option Errno) rfl ?_
      refine run_left () rfl ?_
      refine run_left (List.replicate 8 8) ⟨eight_byte_stores, rfl⟩ ?_
      iterate 9 refine run_left () rfl ?_
      iterate 2
        refine run_right (827347799 : UInt32) ⟨by decide, rfl⟩ ?_
        refine run_right (7 : UInt32) ⟨by decide, rfl⟩ ?_
        refine run_right (1 : UInt32) ⟨by decide, rfl⟩ ?_
        iterate 12 refine run_right (0 : UInt32) ⟨by decide, rfl⟩ ?_
        refine run_right (1 : UInt32) ⟨by decide, rfl⟩ ?_
      exact .refl
  obtain ⟨linux, rest, s, hrun⟩ := hrun
  have hanswer : Unambiguous clearedLines.completion :=
    fun hleftover => absurd (show (0 : UInt32) = 1 from hleftover.1) (by decide)
  obtain ⟨happly, _⟩ := power_commands cleared_lines_fresh
    (harmless_of_uncommitted 7 (by decide)) hanswer hrun
  exact ⟨linux, rest, s, hrun, happly _ rest rfl⟩

/-- The lines after the first command of an earlier generation, which has switched the power on. -/
def earlierCommand : Shared :=
  { clearedLines with
    request := (command 6 1 true).line
    completion := { completionRecord 6 1 1 with commit := 1 }.toWords }

/-- Linux asks for power off as its first command of the generation 7. It has stored the first eight
bytes, the magic and the generation, over a request for power on of the generation 6, and the
service is about to switch the power on, although nothing has been committed. -/
theorem leftover_command_applied :
    Fresh earlierCommand ∧ ∃ linux rest s, Relation.ReflTransGen PowerStep
        (linuxMain 7 0 1, firmwareMain 7 0 1, earlierCommand)
        (linux, .op (.apply (command 7 1 true)) rest, s) ∧
      s.begun = [command 7 1 false] ∧ s.committed = [] := by
  refine ⟨⟨rfl, rfl, rfl, rfl⟩, ?linux, ?rest, ?state, ?run, ?begun, ?committed⟩
  case run =>
    -- The probe finds a request of another generation.
    refine run_left (none : Option Errno) rfl ?_
    refine run_left (827347799 : UInt32) ⟨by decide, rfl⟩ ?_
    refine run_left (6 : UInt32) ⟨by decide, rfl⟩ ?_
    refine run_left (1 : UInt32) ⟨by decide, rfl⟩ ?_
    refine run_left (1 : UInt32) ⟨by decide, rfl⟩ ?_
    iterate 11 refine run_left (0 : UInt32) ⟨by decide, rfl⟩ ?_
    refine run_left (1 : UInt32) ⟨by decide, rfl⟩ ?_
    refine run_left () rfl ?_
    refine run_left (0 : Nat) rfl ?_
    refine run_left (none : Option Errno) rfl ?_
    -- The copy of the request stalls after its first store.
    refine run_left () rfl ?_
    refine run_left (List.replicate 8 8) ⟨eight_byte_stores, rfl⟩ ?_
    refine run_left () rfl ?_
    -- The service copies the line twice.
    refine run_right (827347799 : UInt32) ⟨by decide, rfl⟩ ?_
    refine run_right (7 : UInt32) ⟨by decide, rfl⟩ ?_
    refine run_right (1 : UInt32) ⟨by decide, rfl⟩ ?_
    refine run_right (1 : UInt32) ⟨by decide, rfl⟩ ?_
    iterate 11 refine run_right (0 : UInt32) ⟨by decide, rfl⟩ ?_
    refine run_right (1 : UInt32) ⟨by decide, rfl⟩ ?_
    refine run_right (827347799 : UInt32) ⟨by decide, rfl⟩ ?_
    refine run_right (7 : UInt32) ⟨by decide, rfl⟩ ?_
    refine run_right (1 : UInt32) ⟨by decide, rfl⟩ ?_
    refine run_right (1 : UInt32) ⟨by decide, rfl⟩ ?_
    iterate 11 refine run_right (0 : UInt32) ⟨by decide, rfl⟩ ?_
    refine run_right (1 : UInt32) ⟨by decide, rfl⟩ ?_
    exact .refl
  case begun => rfl
  case committed => rfl

end NanoKvm.WifiPower
