import NanoKvm.Exec.Reachability

/-!
# Programs, machines and weakest preconditions

A program performs operations and continues with what each of them returns. A machine
says what an operation can return and do to the state, and how the surroundings of the
program can change the state on their own between two operations.

`Machine.wp` is the weakest precondition of a program for a postcondition on its result,
with a guard that must hold before every operation. It quantifies over the interference
before each operation, so an assertion about the state has to survive it. The rules
compose (`wp_bind`, `wp_perform`, `wp_iterate`), and `wp_run` brings their conclusions
back to runs of the machine: in every configuration a run reaches, the guard of the next
operation holds, and a returned value satisfies the postcondition.
-/

namespace NanoKvm.Exec

/-- A program that performs operations of `Op` and ends with a value. -/
inductive Prog (Op : Type) (Ret : Op → Type) (α : Type) where
  | pure (value : α)
  | op (operation : Op) (next : Ret operation → Prog Op Ret α)

namespace Prog

variable {Op : Type} {Ret : Op → Type} {α β : Type}

/-- Sequential composition. -/
def bind : Prog Op Ret α → (α → Prog Op Ret β) → Prog Op Ret β
  | .pure value, next => next value
  | .op operation rest, next => .op operation fun result => (rest result).bind next

instance : Monad (Prog Op Ret) where
  pure := Prog.pure
  bind := Prog.bind

/-- The program that performs one operation and returns its result. -/
def perform (operation : Op) : Prog Op Ret (Ret operation) := .op operation .pure

/-- The program run a number of times. -/
def iterate (program : Prog Op Ret Unit) : Nat → Prog Op Ret Unit
  | 0 => .pure ()
  | count + 1 => do
      program
      iterate program count

/-- The program after so many operations, each answered in the state before it; it stops before an
operation without an answer. -/
def drive {State : Type} (answer : State → (operation : Op) → Option (Ret operation × State)) :
    Nat → Prog Op Ret α → State → Prog Op Ret α × State
  | 0, program, state => (program, state)
  | _ + 1, .pure value, state => (.pure value, state)
  | count + 1, .op operation rest, state =>
      match answer state operation with
      | none => (.op operation rest, state)
      | some (result, next) => drive answer count (rest result) next

/-- The operation that is next, if the program has one left. -/
def operation : Prog Op Ret α → Option Op
  | .pure _ => none
  | .op operation _ => some operation

theorem operation_eq_none {program : Prog Op Ret α} :
    program.operation = none ↔ ∃ value, program = .pure value := by
  cases program with
  | pure value => exact ⟨fun _ => ⟨value, rfl⟩, fun _ => rfl⟩
  | op operation rest => exact ⟨fun h => (by cases h), fun ⟨_, h⟩ => (by cases h)⟩

theorem operation_eq_some {program : Prog Op Ret α} {operation : Op} :
    program.operation = some operation ↔ ∃ rest, program = .op operation rest := by
  cases program with
  | pure value => exact ⟨fun h => (by cases h), fun ⟨_, h⟩ => (by cases h)⟩
  | op next rest =>
      constructor
      · intro h
        cases h
        exact ⟨rest, rfl⟩
      · rintro ⟨_, h⟩
        cases h
        rfl

/-- Returning the result changes nothing. -/
theorem bind_pure (program : Prog Op Ret α) : (program >>= Prog.pure) = program := by
  induction program with
  | pure value => rfl
  | op operation rest ih => exact congrArg (Prog.op operation) (funext ih)

/-- Sequential composition is associative. -/
theorem bind_assoc {γ : Type} (program : Prog Op Ret α) (next : α → Prog Op Ret β)
    (last : β → Prog Op Ret γ) :
    ((program >>= next) >>= last) = (program >>= fun value => next value >>= last) := by
  induction program with
  | pure value => rfl
  | op operation rest ih => exact congrArg (Prog.op operation) (funext ih)

/-- Every operation of the program is allowed, whatever the earlier ones returned. -/
def Only (allowed : Op → Prop) : Prog Op Ret α → Prop
  | .pure _ => True
  | .op operation rest => allowed operation ∧ ∀ result, (rest result).Only allowed

/-- Every program performs some operations. -/
theorem Only.any (program : Prog Op Ret α) : program.Only fun _ => True := by
  induction program with
  | pure value => trivial
  | op operation rest ih => exact ⟨trivial, ih⟩

/-- A sequence of such programs is one. -/
theorem Only.bind {allowed : Op → Prop} {program : Prog Op Ret α}
    {next : α → Prog Op Ret β} (hprogram : program.Only allowed)
    (hnext : ∀ value, (next value).Only allowed) : (program >>= next).Only allowed := by
  induction program with
  | pure value => exact hnext value
  | op operation rest ih => exact ⟨hprogram.1, fun result => ih result (hprogram.2 result)⟩

/-- An allowed operation may come first. -/
theorem Only.perform {allowed : Op → Prop} {operation : Op}
    {next : Ret operation → Prog Op Ret β} (hoperation : allowed operation)
    (hnext : ∀ result, (next result).Only allowed) :
    (Prog.perform operation >>= next).Only allowed :=
  ⟨hoperation, hnext⟩

end Prog

/-- What operations can do to the state, and what can happen to it in between. -/
structure Machine (Op : Type) (Ret : Op → Type) (State : Type) where
  perform : State → (operation : Op) → Ret operation → State → Prop
  interfere : State → State → Prop

namespace Machine

variable {Op : Type} {Ret : Op → Type} {State α β : Type}

/-- One step of a running program: its next operation, or interference. -/
inductive Step (machine : Machine Op Ret State) :
    Prog Op Ret α × State → Prog Op Ret α × State → Prop where
  | perform {state next : State} {operation : Op} {rest : Ret operation → Prog Op Ret α}
      {result : Ret operation} (h : machine.perform state operation result next) :
      Step machine (.op operation rest, state) (rest result, next)
  | interfere {state next : State} {program : Prog Op Ret α}
      (h : machine.interfere state next) : Step machine (program, state) (program, next)

/-- A run that starts with the next operation returning the given result. -/
theorem run_perform {machine : Machine Op Ret State} {operation : Op}
    {rest : Ret operation → Prog Op Ret α} {state next : State} {last : Prog Op Ret α × State}
    (result : Ret operation) (h : machine.perform state operation result next)
    (hrest : Relation.ReflTransGen machine.Step (rest result, next) last) :
    Relation.ReflTransGen machine.Step (.op operation rest, state) last :=
  .head (.perform h) hrest

/-- A run that starts with interference. -/
theorem run_interfere {machine : Machine Op Ret State} {program : Prog Op Ret α}
    {state next : State} {last : Prog Op Ret α × State} (h : machine.interfere state next)
    (hrest : Relation.ReflTransGen machine.Step (program, next) last) :
    Relation.ReflTransGen machine.Step (program, state) last :=
  .head (.interfere h) hrest

/-- A run without interference in which the operations are answered one way. -/
theorem run_drive {machine : Machine Op Ret State}
    {answer : State → (operation : Op) → Option (Ret operation × State)}
    (hanswer : ∀ state operation result next, answer state operation = some (result, next) →
      machine.perform state operation result next)
    (count : Nat) (program : Prog Op Ret α) (state : State) :
    Relation.ReflTransGen machine.Step (program, state) (program.drive answer count state) := by
  induction count generalizing program state with
  | zero => exact .refl
  | succ count ih =>
      cases program with
      | pure value => exact .refl
      | op operation rest =>
          cases hsome : answer state operation with
          | none =>
              rw [Prog.drive, hsome]
          | some reply =>
              rw [Prog.drive, hsome]
              exact run_perform _ (hanswer _ _ _ _ hsome) (ih _ _)

/-- Any amount of interference. -/
abbrev Interferes (machine : Machine Op Ret State) : State → State → Prop :=
  Relation.ReflTransGen machine.interfere

/-- The assertion survives interference. -/
def Stable (machine : Machine Op Ret State) (assertion : State → Prop) : Prop :=
  Preserved machine.interfere assertion

/-- The weakest precondition for a postcondition, with a guard before every operation. -/
def wp (machine : Machine Op Ret State) (guard : State → Op → Prop) :
    Prog Op Ret α → (α → State → Prop) → State → Prop
  | .pure value, post, state => ∀ after, machine.Interferes state after → post value after
  | .op operation rest, post, state =>
      ∀ before, machine.Interferes state before → guard before operation ∧
        ∀ result next, machine.perform before operation result next →
          wp machine guard (rest result) post next

variable {machine : Machine Op Ret State} {guard : State → Op → Prop}

/-- A precondition survives interference. -/
theorem wp_interferes {program : Prog Op Ret α} {post : α → State → Prop} {state after : State}
    (h : machine.wp guard program post state) (hafter : machine.Interferes state after) :
    machine.wp guard program post after := by
  cases program with
  | pure value => exact fun last hlast => h last (hafter.trans hlast)
  | op operation rest => exact fun last hlast => h last (hafter.trans hlast)

/-- A weaker postcondition has a weaker precondition. -/
theorem wp_mono {program : Prog Op Ret α} {post post' : α → State → Prop} {state : State}
    (h : machine.wp guard program post state)
    (hpost : ∀ value after, post value after → post' value after) :
    machine.wp guard program post' state := by
  induction program generalizing state with
  | pure value => exact fun after hafter => hpost value after (h after hafter)
  | op operation rest ih =>
      intro before hbefore
      obtain ⟨hguard, hrest⟩ := h before hbefore
      exact ⟨hguard, fun result next hnext => ih result (hrest result next hnext)⟩

/-- Two postconditions hold together. -/
theorem wp_and {guard' : State → Op → Prop} {program : Prog Op Ret α}
    {post post' : α → State → Prop} {state : State} (h : machine.wp guard program post state)
    (h' : machine.wp guard' program post' state) :
    machine.wp guard program (fun value after => post value after ∧ post' value after) state := by
  induction program generalizing state with
  | pure value => exact fun after hafter => ⟨h after hafter, h' after hafter⟩
  | op operation rest ih =>
      intro before hbefore
      obtain ⟨hguard, hrest⟩ := h before hbefore
      obtain ⟨_, hrest'⟩ := h' before hbefore
      exact ⟨hguard, fun result next hnext => ih result (hrest result next hnext) (hrest' result next hnext)⟩

/-- The rule of sequential composition. -/
theorem wp_bind {program : Prog Op Ret α} {next : α → Prog Op Ret β}
    {post : β → State → Prop} {state : State}
    (h : machine.wp guard program (fun value => machine.wp guard (next value) post) state) :
    machine.wp guard (program >>= next) post state := by
  induction program generalizing state with
  | pure value => exact h state .refl
  | op operation rest ih =>
      intro before hbefore
      obtain ⟨hguard, hrest⟩ := h before hbefore
      exact ⟨hguard, fun result after hafter => ih result (hrest result after hafter)⟩

/-- A program at the end of another one is followed by nothing. -/
theorem wp_tail {program : Prog Op Ret α} {post : α → State → Prop} {state : State}
    (h : machine.wp guard (program >>= Prog.pure) post state) :
    machine.wp guard program post state := by
  rwa [Prog.bind_pure] at h

/-- A sequence that is followed by more. -/
theorem wp_assoc {γ : Type} {program : Prog Op Ret α} {next : α → Prog Op Ret β}
    {last : β → Prog Op Ret γ} {post : γ → State → Prop} {state : State}
    (h : machine.wp guard (program >>= fun value => next value >>= last) post state) :
    machine.wp guard ((program >>= next) >>= last) post state := by
  rwa [Prog.bind_assoc]

/-- A returned value needs its postcondition to survive interference. -/
theorem wp_pure {value : α} {post : α → State → Prop} {state : State}
    (hstable : machine.Stable (post value)) (h : post value state) :
    machine.wp guard (pure value) post state :=
  fun _ hafter => hstable.reachable h hafter

/-- The rule of one operation, under an assertion that survives interference. -/
theorem wp_perform {operation : Op} {rest : Ret operation → Prog Op Ret α}
    {post : α → State → Prop} {assertion : State → Prop} {state : State}
    (hstable : machine.Stable assertion) (h : assertion state)
    (hguard : ∀ before, assertion before → guard before operation)
    (hrest : ∀ before result next, assertion before →
      machine.perform before operation result next →
      machine.wp guard (rest result) post next) :
    machine.wp guard (Prog.perform operation >>= rest) post state := by
  intro before hbefore
  have hassertion := hstable.reachable h hbefore
  exact ⟨hguard before hassertion, fun result next hnext =>
    hrest before result next hassertion hnext⟩

/-- The rule of an operation that leaves the state alone. -/
theorem wp_look {operation : Op} {rest : Ret operation → Prog Op Ret α}
    {post : α → State → Prop} {assertion : State → Prop} {state : State}
    (hstable : machine.Stable assertion) (h : assertion state)
    (hsame : ∀ before result next, machine.perform before operation result next → next = before)
    (hguard : ∀ before, assertion before → guard before operation)
    (hrest : ∀ before result, assertion before →
      machine.perform before operation result before →
      machine.wp guard (rest result) post before) :
    machine.wp guard (Prog.perform operation >>= rest) post state := by
  refine wp_perform hstable h hguard ?_
  intro before result next hbefore hnext
  have heq := hsame before result next hnext
  subst heq
  exact hrest next result hbefore hnext

/-- A program keeps an assertion that all its operations keep and that survives interference. -/
theorem wp_only {allowed : Op → Prop} {assertion : State → Prop}
    (hstable : machine.Stable assertion)
    (hguard : ∀ state operation, assertion state → allowed operation → guard state operation)
    (hkeep : ∀ state operation result next, assertion state → allowed operation →
      machine.perform state operation result next → assertion next)
    {program : Prog Op Ret α} (honly : program.Only allowed) {state : State}
    (h : assertion state) : machine.wp guard program (fun _ => assertion) state := by
  induction program generalizing state with
  | pure value => exact wp_pure hstable h
  | op operation rest ih =>
      intro before hbefore
      have hassertion := hstable.reachable h hbefore
      refine ⟨hguard before operation hassertion honly.1, ?_⟩
      intro result next hnext
      exact ih result (honly.2 result)
        (hkeep before operation result next hassertion honly.1 hnext)

/-- A loop keeps an assertion that its body keeps and that survives interference. -/
theorem wp_iterate {program : Prog Op Ret Unit} {assertion : State → Prop}
    (hstable : machine.Stable assertion)
    (hbody : ∀ state, assertion state →
      machine.wp guard program (fun _ => assertion) state)
    {state : State} (h : assertion state) (count : Nat) :
    machine.wp guard (program.iterate count) (fun _ => assertion) state := by
  induction count generalizing state with
  | zero => exact wp_pure hstable h
  | succ count ih => exact wp_bind (wp_mono (hbody state h) fun _ _ hafter => ih hafter)

section

variable (hquiet : ∀ state after, ¬ machine.interfere state after)
include hquiet

/-- Without interference every assertion is stable. -/
theorem stable_of_quiet (assertion : State → Prop) : machine.Stable assertion :=
  fun state after _ hinterfere => absurd hinterfere (hquiet state after)

/-- The rule of a returned value without interference. -/
theorem wp_pure_quiet {value : α} {post : α → State → Prop} {state : State}
    (h : post value state) : machine.wp guard (pure value) post state :=
  wp_pure (stable_of_quiet hquiet _) h

/-- The rule of one operation without interference. -/
theorem wp_perform_quiet {operation : Op} {rest : Ret operation → Prog Op Ret α}
    {post : α → State → Prop} {state : State} (hguard : guard state operation)
    (hrest : ∀ result next, machine.perform state operation result next →
      machine.wp guard (rest result) post next) :
    machine.wp guard (Prog.perform operation >>= rest) post state := by
  refine wp_perform (stable_of_quiet hquiet (· = state)) rfl ?_ ?_
  · rintro before rfl
    exact hguard
  · rintro before result next rfl hnext
    exact hrest result next hnext

/-- The rule of one last operation without interference. -/
theorem wp_perform_last_quiet {operation : Op} {post : Ret operation → State → Prop}
    {state : State} (hguard : guard state operation)
    (hpost : ∀ result next, machine.perform state operation result next → post result next) :
    machine.wp guard (Prog.perform operation) post state :=
  wp_perform_quiet hquiet hguard fun result next hnext =>
    wp_pure_quiet hquiet (hpost result next hnext)

end

/-- Preconditions hold along runs. -/
theorem wp_run {program rest : Prog Op Ret α} {post : α → State → Prop} {state after : State}
    (h : machine.wp guard program post state)
    (hrun : Relation.ReflTransGen machine.Step (program, state) (rest, after)) :
    machine.wp guard rest post after := by
  have hpreserved : Preserved machine.Step
      (fun config : Prog Op Ret α × State => machine.wp guard config.1 post config.2) := by
    intro config next hconfig hstep
    cases hstep with
    | perform hperform => exact (hconfig _ .refl).2 _ _ hperform
    | interfere hinterfere => exact wp_interferes hconfig (.single hinterfere)
  exact hpreserved.reachable h hrun

/-- The guard holds before the next operation. -/
theorem wp_guard {operation : Op} {rest : Ret operation → Prog Op Ret α}
    {post : α → State → Prop} {state : State}
    (h : machine.wp guard (.op operation rest) post state) : guard state operation :=
  (h state .refl).1

/-- A returned value satisfies the postcondition. -/
theorem wp_result {value : α} {post : α → State → Prop} {state : State}
    (h : machine.wp guard (.pure value) post state) : post value state :=
  h state .refl

end Machine

end NanoKvm.Exec
