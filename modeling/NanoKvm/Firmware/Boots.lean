import Mathlib.Data.List.Chain
import NanoKvm.Firmware.ControlTask
import NanoKvm.Lcd.Record

/-!
# Sequences of boots

Each boot derives its generation from the status line that the boot before it left, and
that line survives a reset. `BootEnd` lists the ways a boot can end and `lineAfter` the
line each of them leaves. All but one leave the generation in the line; the panic
handler publishes a record with generation zero, so the next boot starts over at one.
-/

namespace NanoKvm.Firmware

open Contract

/-- How a boot ends: by a reset after its first publication or after some publication of its
control task, in one of the two terminal faults, or in the panic handler. -/
inductive BootEnd where
  | booting
  | manifestFault
  | platformStartFault (lockFailures : UInt32)
  | running (iterations : List Iteration) (publication : Nat)
  | panic

/-- The status line that a boot over `previous` leaves behind. -/
def lineAfter (contract : ResolvedContract) (previous : Status) : BootEnd → Status
  | .booting => initialStatus contract previous
  | .manifestFault =>
      let status := initialStatus contract previous
      { status with
        flags := status.flags ||| flagManifestFault
        state := stateFault
        activationError := activationResultInternalFailure.toUInt8 }
  | .platformStartFault lockFailures =>
      let status := initialStatus contract previous
      { status with
        flags := status.flags ||| mailboxDiagnosticFlags 0 lockFailures 0
        state := stateFault
        activationError := activationResultInternalFailure.toUInt8 }
  | .running iterations publication =>
      let handler := controlRun contract iterations
        (controlBegin contract (initialStatus contract previous))
      handler.published[publication]?.getD handler.status
  | .panic => panicStatus

/-- The generations chosen by the boots of a sequence: one for the line it starts on and one for
the line after each end. -/
def bootGenerations (contract : ResolvedContract) (line : Status) : List BootEnd → List UInt32
  | [] => [(initialStatus contract line).generation]
  | ended :: rest =>
      (initialStatus contract line).generation ::
        bootGenerations contract (lineAfter contract line ended) rest

/-- The line holds a record of this ABI whose generation is neither zero nor the last one. -/
def HoldsGeneration (line : Status) : Prop :=
  line.magic = shmemMagic ∧ line.abiMajor = abiMajor ∧ line.structSize = statusSize ∧
    line.generation ≠ 0 ∧ line.generation ≠ 0xffffffff

instance (line : Status) : Decidable (HoldsGeneration line) :=
  inferInstanceAs (Decidable (_ ∧ _))

/-- Every boot that ends in the panic handler started on a line that holds a generation. -/
def PanicsHoldGeneration (contract : ResolvedContract) (line : Status) : List BootEnd → Prop
  | [] => True
  | ended :: rest =>
      (ended = .panic → HoldsGeneration line) ∧
        PanicsHoldGeneration contract (lineAfter contract line ended) rest

/-- The next boot is fresh: another generation, and no request stamped for the boot before it
is valid in it. -/
def FreshAfter (before after : UInt32) : Prop :=
  before ≠ after ∧ ∀ record completed, record.generation = before →
    Lcd.validRequest record after completed = false

/-! ## Choosing a generation -/

/-- A chosen generation is never zero. -/
theorem next_generation_ne_zero (generation : UInt32) : nextGeneration generation ≠ 0 := by
  unfold nextGeneration
  split
  · decide
  · assumption

/-- The successor of a non-zero generation differs from it, across the wrap as well. -/
theorem next_generation_ne {generation : UInt32} (h : generation ≠ 0) :
    nextGeneration generation ≠ generation := by
  unfold nextGeneration
  split
  · rename_i hwrap
    rintro rfl
    exact absurd hwrap (by decide)
  · grind

/-- Generation one follows exactly zero and the last generation. -/
theorem next_generation_eq_one_iff (generation : UInt32) :
    nextGeneration generation = 1 ↔ generation = 0 ∨ generation = 0xffffffff := by
  unfold nextGeneration
  constructor
  · intro h
    split at h
    · right
      grind
    · left
      grind
  · rintro (rfl | rfl) <;> decide

/-- A boot chooses generation one exactly on a line that holds no generation. -/
theorem boot_generation_eq_one_iff (line : Status) :
    nextGeneration (previousGeneration line) = 1 ↔ ¬ HoldsGeneration line := by
  rw [next_generation_eq_one_iff]
  unfold previousGeneration HoldsGeneration
  split <;> tauto

/-- Distinct generations are fresh: a valid request carries the generation of its boot. -/
theorem fresh_after_iff (before after : UInt32) : FreshAfter before after ↔ before ≠ after := by
  constructor
  · exact fun h => h.1
  · intro hne
    refine ⟨hne, fun record completed hrecord => ?_⟩
    rw [Bool.eq_false_iff]
    intro hvalid
    exact hne (hrecord.symm.trans (Lcd.valid_request_generation hvalid))

/-! ## One boot after another -/

/-- Every end but the panic leaves the generation of its boot in the line. -/
theorem previous_generation_line_after (contract : ResolvedContract) (line : Status)
    {ended : BootEnd}
    (h : ended ≠ .panic) :
    previousGeneration (lineAfter contract line ended) =
      (initialStatus contract line).generation := by
  cases ended with
  | booting => rfl
  | manifestFault => rfl
  | platformStartFault lockFailures => rfl
  | running iterations publication =>
      have hkeeps := (control_begin_header contract line).run contract iterations
      have hheader : header (lineAfter contract line (.running iterations publication)) =
          runningHeader (nextGeneration (previousGeneration line)) := by
        unfold lineAfter
        dsimp only
        cases hget : (controlRun contract iterations (controlBegin contract
            (initialStatus contract line))).published[publication]? with
        | none => exact hkeeps.current
        | some status => exact hkeeps.published status (List.mem_of_getElem? hget)
      simp only [header, runningHeader, Header.mk.injEq] at hheader
      obtain ⟨hmagic, hmajor, -, hsize, -, hgeneration⟩ := hheader
      unfold previousGeneration
      rw [if_pos ⟨hmagic, hmajor, hsize⟩, hgeneration]
      rfl
  | panic => exact absurd rfl h

/-- One boot after another is fresh unless the first panicked on a line without a generation. -/
theorem boot_fresh_iff (contract : ResolvedContract) (line : Status) (ended : BootEnd) :
    (initialStatus contract line).generation ≠
        (initialStatus contract (lineAfter contract line ended)).generation ↔
      (ended = .panic → HoldsGeneration line) := by
  have hgeneration : ∀ status, (initialStatus contract status).generation =
      nextGeneration (previousGeneration status) := fun _ => rfl
  by_cases hpanic : ended = .panic
  · subst hpanic
    have hone : (initialStatus contract (lineAfter contract line .panic)).generation = 1 := rfl
    rw [hone, hgeneration, ne_eq, boot_generation_eq_one_iff]
    tauto
  · have hprevious := previous_generation_line_after contract line hpanic
    have hne := next_generation_ne (next_generation_ne_zero (previousGeneration line))
    rw [hgeneration (lineAfter contract line ended), hprevious, hgeneration]
    exact ⟨fun _ h => absurd h hpanic, fun _ => hne.symm⟩

/-- The generations of a sequence of boots start with the one chosen on its first line. -/
theorem boot_generations_head (contract : ResolvedContract) (line : Status) (ends : List BootEnd) :
    ∃ rest, bootGenerations contract line ends =
      (initialStatus contract line).generation :: rest := by
  cases ends with
  | nil => exact ⟨[], rfl⟩
  | cons ended rest => exact ⟨_, rfl⟩

/-- Boot generations over every sequence of boots: they are never zero, and each boot is fresh
after the one before it exactly when no boot panicked on a line without a generation. -/
theorem boot_generation_freshness (contract : ResolvedContract) (line : Status)
    (ends : List BootEnd) :
    ((∀ generation ∈ bootGenerations contract line ends, generation ≠ 0) ∧
        (bootGenerations contract line ends).IsChain FreshAfter) ↔
      PanicsHoldGeneration contract line ends := by
  have hnonzero : ∀ generation ∈ bootGenerations contract line ends, generation ≠ 0 := by
    induction ends generalizing line with
    | nil =>
        intro generation hmem
        simp only [bootGenerations, List.mem_singleton] at hmem
        rw [hmem]
        exact next_generation_ne_zero _
    | cons ended rest ih =>
        intro generation hmem
        simp only [bootGenerations, List.mem_cons] at hmem
        rcases hmem with rfl | hmem
        · exact next_generation_ne_zero _
        · exact ih _ generation hmem
  have hchain : (bootGenerations contract line ends).IsChain FreshAfter ↔
      PanicsHoldGeneration contract line ends := by
    clear hnonzero
    induction ends generalizing line with
    | nil => simp [bootGenerations, PanicsHoldGeneration]
    | cons ended rest ih =>
        obtain ⟨tail, htail⟩ :=
          boot_generations_head contract (lineAfter contract line ended) rest
        unfold bootGenerations PanicsHoldGeneration
        rw [← ih, htail, List.isChain_cons_cons, fresh_after_iff, boot_fresh_iff]
  exact ⟨fun h => hchain.mp h.2, fun h => ⟨hnonzero, hchain.mpr h⟩⟩

/-- Two boots over an erased line, the first of which panics: both choose generation one. -/
theorem panic_repeats_generation :
    bootGenerations picoclawContract zeroStatus [.panic] = [1, 1] ∧
      ¬ ((∀ generation ∈ bootGenerations picoclawContract zeroStatus [.panic],
          generation ≠ 0) ∧
        (bootGenerations picoclawContract zeroStatus [.panic]).IsChain FreshAfter) := by
  have hgenerations : bootGenerations picoclawContract zeroStatus [.panic] = [1, 1] := by decide
  refine ⟨hgenerations, ?_⟩
  rintro ⟨-, hchain⟩
  rw [hgenerations, List.isChain_cons_cons] at hchain
  exact hchain.1.1 rfl

end NanoKvm.Firmware
