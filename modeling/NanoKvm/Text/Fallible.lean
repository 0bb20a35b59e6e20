/-!
# Results of fallible programs

When a bind or a map of `Except` succeeds.
-/

namespace NanoKvm.Text

section

variable {ε α β : Type} {x : Except ε α} {value : β}

theorem bind_ok_iff {f : α → Except ε β} :
    x >>= f = .ok value ↔ ∃ found, x = .ok found ∧ f found = .ok value := by
  cases x with
  | error error => simp [bind, Except.bind]
  | ok found => simp [bind, Except.bind]

theorem map_ok_iff {f : α → β} : x.map f = .ok value ↔ ∃ found, x = .ok found ∧ f found = value := by
  cases x with
  | error error => simp [Except.map]
  | ok found => simp [Except.map]

end

end NanoKvm.Text
