import Mathlib.Logic.Relation

/-!
# Reachable states of a step relation

A transition system is a step relation on a type of states; its reachable states are
those related to a start by `Relation.ReflTransGen`. An invariant is a predicate that
every step preserves. The rules here are the induction over a run, said once.
-/

namespace NanoKvm.Exec

variable {State : Type*}

/-- Every step keeps the predicate. -/
def Preserved (step : State → State → Prop) (inv : State → Prop) : Prop :=
  ∀ state next, inv state → step state next → inv next

/-- What every step keeps holds in every reachable state. -/
theorem Preserved.reachable {step : State → State → Prop} {inv : State → Prop}
    (h : Preserved step inv) {start state : State} (hstart : inv start)
    (hreach : Relation.ReflTransGen step start state) : inv state := by
  induction hreach with
  | refl => exact hstart
  | tail _ hstep ih => exact h _ _ ih hstep

end NanoKvm.Exec
