import NanoKvm.Exec.Program

/-!
# Traces of programs

A trace of a program is the operations that it performed, in order, with what each of them
returned. The rules take a trace apart along the program: `trace_pure`, `trace_perform` and
`trace_bind`. Nothing is said about where the results come from, so what holds of every trace
holds whatever the surroundings do.
-/

namespace NanoKvm.Exec

/-- An operation that was performed, with what it returned. -/
structure Event (Op : Type) (Ret : Op → Type) where
  operation : Op
  result : Ret operation

namespace Prog

variable {Op : Type} {Ret : Op → Type} {α β : Type}

/-- The program performs these operations and ends with this value. -/
inductive Trace : Prog Op Ret α → List (Event Op Ret) → α → Prop where
  | pure (value : α) : Trace (.pure value) [] value
  | op {operation : Op} {rest : Ret operation → Prog Op Ret α} {result : Ret operation}
      {events : List (Event Op Ret)} {value : α} (h : Trace (rest result) events value) :
      Trace (.op operation rest) (⟨operation, result⟩ :: events) value

variable {events : List (Event Op Ret)}

theorem trace_pure {value last : α} :
    (Pure.pure value : Prog Op Ret α).Trace events last ↔ events = [] ∧ last = value := by
  constructor
  · intro h
    cases h
    exact ⟨rfl, rfl⟩
  · rintro ⟨rfl, rfl⟩
    exact .pure _

theorem trace_bind {program : Prog Op Ret α} {next : α → Prog Op Ret β} {last : β} :
    (program >>= next).Trace events last ↔ ∃ first second value, events = first ++ second ∧
      program.Trace first value ∧ (next value).Trace second last := by
  constructor
  · intro h
    induction program generalizing events with
    | pure value => exact ⟨[], events, value, rfl, .pure value, h⟩
    | op operation rest ih =>
        cases h with
        | op h =>
            obtain ⟨first, second, value, rfl, hfirst, hsecond⟩ := ih _ h
            exact ⟨_ :: first, second, value, rfl, .op hfirst, hsecond⟩
  · rintro ⟨first, second, value, rfl, hfirst, hsecond⟩
    induction hfirst with
    | pure value => exact hsecond
    | op h ih => exact .op (ih hsecond)

theorem trace_perform {operation : Op} {next : Ret operation → Prog Op Ret β} {last : β} :
    (Prog.perform operation >>= next).Trace events last ↔ ∃ result rest,
      events = ⟨operation, result⟩ :: rest ∧ (next result).Trace rest last := by
  constructor
  · intro h
    cases h with
    | op h => exact ⟨_, _, rfl, h⟩
  · rintro ⟨result, rest, rfl, h⟩
    exact .op h

/-- A last operation. -/
theorem trace_perform_last {operation : Op} {result : Ret operation} :
    (Prog.perform operation : Prog Op Ret (Ret operation)).Trace events result ↔
      events = [⟨operation, result⟩] := by
  constructor
  · intro h
    cases h with
    | op h =>
        cases h
        rfl
  · rintro rfl
    exact .op (.pure result)

/-- The events and the value when every operation has one answer. -/
def runWith (answer : ∀ operation, Ret operation) : Prog Op Ret α → List (Event Op Ret) × α
  | .pure value => ([], value)
  | .op operation rest =>
      let (events, value) := (rest (answer operation)).runWith answer
      (⟨operation, answer operation⟩ :: events, value)

/-- Whatever the operations return, the program ends. -/
theorem trace_run_with (answer : ∀ operation, Ret operation) (program : Prog Op Ret α) :
    program.Trace (program.runWith answer).1 (program.runWith answer).2 := by
  induction program with
  | pure value => exact .pure value
  | op operation rest ih => exact .op (ih (answer operation))

/-- The events and the value when the answers depend on what has happened. -/
def runOver (answer : List (Event Op Ret) → ∀ operation, Ret operation) :
    List (Event Op Ret) → Prog Op Ret α → List (Event Op Ret) × α
  | _, .pure value => ([], value)
  | history, .op operation rest =>
      let event : Event Op Ret := ⟨operation, answer history operation⟩
      let (events, value) := runOver answer (history ++ [event]) (rest event.result)
      (event :: events, value)

theorem trace_run_over (answer : List (Event Op Ret) → ∀ operation, Ret operation)
    (history : List (Event Op Ret)) (program : Prog Op Ret α) :
    program.Trace (runOver answer history program).1 (runOver answer history program).2 := by
  induction program generalizing history with
  | pure value => exact .pure value
  | op operation rest ih => exact .op (ih _ _)

/-- The events of a run with one answer to every operation hold its answers. -/
theorem run_with_answers (answer : ∀ operation, Ret operation) (program : Prog Op Ret α) :
    ∀ event ∈ (program.runWith answer).1, event.result = answer event.operation := by
  induction program with
  | pure value => exact fun _ hmem => absurd hmem List.not_mem_nil
  | op operation rest ih =>
      intro event hmem
      rcases List.mem_cons.mp hmem with rfl | hmem
      · rfl
      · exact ih _ event hmem

end Prog

end NanoKvm.Exec
