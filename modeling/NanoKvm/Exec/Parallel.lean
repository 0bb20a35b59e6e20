import NanoKvm.Exec.Program

/-!
# Two programs over one state

Two programs run side by side: at each step one of them performs its next operation.
Each has a machine of its own, whose interference is what it expects of the other (its
rely). If every guarded operation of one side is interference the other side expects,
the preconditions of both hold along every run, and so does an invariant that the guarded
operations of both sides keep.
-/

namespace NanoKvm.Exec

variable {OpL OpR : Type} {RetL : OpL → Type} {RetR : OpR → Type} {State α β : Type}

/-- Both programs and the state they share. -/
abbrev Pair (OpL OpR : Type) (RetL : OpL → Type) (RetR : OpR → Type) (State α β : Type) : Type :=
  Prog OpL RetL α × Prog OpR RetR β × State

/-- One side performs its next operation. -/
inductive ParallelStep (left : State → (operation : OpL) → RetL operation → State → Prop)
    (right : State → (operation : OpR) → RetR operation → State → Prop) :
    Pair OpL OpR RetL RetR State α β → Pair OpL OpR RetL RetR State α β → Prop where
  | left {operation : OpL} {rest : RetL operation → Prog OpL RetL α} {other : Prog OpR RetR β}
      {state next : State} {result : RetL operation} (h : left state operation result next) :
      ParallelStep left right (.op operation rest, other, state) (rest result, other, next)
  | right {operation : OpR} {rest : RetR operation → Prog OpR RetR β} {other : Prog OpL RetL α}
      {state next : State} {result : RetR operation} (h : right state operation result next) :
      ParallelStep left right (other, .op operation rest, state) (other, rest result, next)

variable {guardL : State → OpL → Prop} {guardR : State → OpR → Prop}

/-- The preconditions of both sides and an invariant of the state hold along every run when each
side's guarded operations keep the invariant and are interference that the other side expects. -/
theorem parallel_run (left : Machine OpL RetL State) (right : Machine OpR RetR State)
    {inv : State → Prop}
    (hleft : ∀ state operation result next, guardL state operation →
      left.perform state operation result next →
      right.interfere state next ∧ (inv state → inv next))
    (hright : ∀ state operation result next, guardR state operation →
      right.perform state operation result next →
      left.interfere state next ∧ (inv state → inv next))
    {postL : α → State → Prop} {postR : β → State → Prop}
    {start last : Pair OpL OpR RetL RetR State α β} (hinv : inv start.2.2)
    (hstartL : left.wp guardL start.1 postL start.2.2)
    (hstartR : right.wp guardR start.2.1 postR start.2.2)
    (hrun : Relation.ReflTransGen (ParallelStep left.perform right.perform) start last) :
    inv last.2.2 ∧ left.wp guardL last.1 postL last.2.2 ∧
      right.wp guardR last.2.1 postR last.2.2 := by
  have hpreserved : Preserved (ParallelStep left.perform right.perform)
      (fun config : Pair OpL OpR RetL RetR State α β =>
        inv config.2.2 ∧ left.wp guardL config.1 postL config.2.2 ∧
          right.wp guardR config.2.1 postR config.2.2) := by
    intro config next hconfig hstep
    obtain ⟨hstate, hwpL, hwpR⟩ := hconfig
    cases hstep with
    | left hperform =>
        obtain ⟨hguard, hrest⟩ := hwpL _ .refl
        obtain ⟨hrely, hkeep⟩ := hleft _ _ _ _ hguard hperform
        exact ⟨hkeep hstate, hrest _ _ hperform, Machine.wp_interferes hwpR (.single hrely)⟩
    | right hperform =>
        obtain ⟨hguard, hrest⟩ := hwpR _ .refl
        obtain ⟨hrely, hkeep⟩ := hright _ _ _ _ hguard hperform
        exact ⟨hkeep hstate, Machine.wp_interferes hwpL (.single hrely), hrest _ _ hperform⟩
  exact hpreserved.reachable ⟨hinv, hstartL, hstartR⟩ hrun

/-- A run that goes on with an operation of the left side. -/
theorem run_left {left : State → (operation : OpL) → RetL operation → State → Prop}
    {right : State → (operation : OpR) → RetR operation → State → Prop} {operation : OpL}
    {rest : RetL operation → Prog OpL RetL α} {other : Prog OpR RetR β} {state next : State}
    {last : Pair OpL OpR RetL RetR State α β} (result : RetL operation)
    (h : left state operation result next)
    (hrest : Relation.ReflTransGen (ParallelStep left right) (rest result, other, next) last) :
    Relation.ReflTransGen (ParallelStep left right) (.op operation rest, other, state) last :=
  .head (.left h) hrest

/-- A run that goes on with an operation of the right side. -/
theorem run_right {left : State → (operation : OpL) → RetL operation → State → Prop}
    {right : State → (operation : OpR) → RetR operation → State → Prop} {operation : OpR}
    {rest : RetR operation → Prog OpR RetR β} {other : Prog OpL RetL α} {state next : State}
    {last : Pair OpL OpR RetL RetR State α β} (result : RetR operation)
    (h : right state operation result next)
    (hrest : Relation.ReflTransGen (ParallelStep left right) (other, rest result, next) last) :
    Relation.ReflTransGen (ParallelStep left right) (other, .op operation rest, state) last :=
  .head (.right h) hrest

section

variable {left : State → (operation : OpL) → RetL operation → State → Prop}
variable {right : State → (operation : OpR) → RetR operation → State → Prop}

/-- A run in which the left side performs operations that are answered one way. -/
theorem drive_left {answer : State → (operation : OpL) → Option (RetL operation × State)}
    (hanswer : ∀ state operation result next, answer state operation = some (result, next) →
      left state operation result next)
    (count : Nat) (program : Prog OpL RetL α) (other : Prog OpR RetR β) (state : State) :
    Relation.ReflTransGen (ParallelStep left right) (program, other, state)
      ((program.drive answer count state).1, other, (program.drive answer count state).2) := by
  induction count generalizing program state with
  | zero => exact .refl
  | succ count ih =>
      cases program with
      | pure value => exact .refl
      | op operation rest =>
          cases hsome : answer state operation with
          | none =>
              rw [Prog.drive, hsome]
          | some reply =>
              rw [Prog.drive, hsome]
              exact run_left _ (hanswer _ _ _ _ hsome) (ih _ _)

/-- A run in which the right side performs operations that are answered one way. -/
theorem drive_right {answer : State → (operation : OpR) → Option (RetR operation × State)}
    (hanswer : ∀ state operation result next, answer state operation = some (result, next) →
      right state operation result next)
    (count : Nat) (program : Prog OpR RetR β) (other : Prog OpL RetL α) (state : State) :
    Relation.ReflTransGen (ParallelStep left right) (other, program, state)
      (other, (program.drive answer count state).1, (program.drive answer count state).2) := by
  induction count generalizing program state with
  | zero => exact .refl
  | succ count ih =>
      cases program with
      | pure value => exact .refl
      | op operation rest =>
          cases hsome : answer state operation with
          | none =>
              rw [Prog.drive, hsome]
          | some reply =>
              rw [Prog.drive, hsome]
              exact run_right _ (hanswer _ _ _ _ hsome) (ih _ _)

end

end NanoKvm.Exec
