import NanoKvm.Exec.Traces

/-!
# Programs that can give up

An attempt is a program over a state that may give up at any point, as C code does that jumps to
the end of its function: what it did to the state by then stays. `Attempt.wp` is its weakest
precondition on the state and on the events so far, with one postcondition for the returned value
and one for giving up. A `Flow` is a program with loops, cut at their heads: the program from
every head to the next one.
-/

namespace NanoKvm.Exec

/-- A program over a state that returns a value or gives up. -/
def Attempt (State Op : Type) (Ret : Op → Type) (α : Type) : Type :=
  State → Prog Op Ret (Option α × State)

namespace Attempt

variable {State Op : Type} {Ret : Op → Type} {α β : Type}

instance : Monad (Attempt State Op Ret) where
  pure value := fun state => pure (some value, state)
  bind program next := fun state => program state >>= fun outcome =>
    match outcome.1 with
    | none => pure (none, outcome.2)
    | some value => next value outcome.2

/-- One operation. -/
def perform (operation : Op) : Attempt State Op Ret (Ret operation) := fun state =>
  Prog.perform operation >>= fun result => pure (some result, state)

/-- Giving up. -/
def fail : Attempt State Op Ret α := fun state => pure (none, state)

/-- The state. -/
def get : Attempt State Op Ret State := fun state => pure (some state, state)

/-- A change of the state. -/
def modify (change : State → State) : Attempt State Op Ret Unit := fun state =>
  pure (some (), change state)

/-- The program for every number below the count, in order. -/
def forEach (body : Nat → Attempt State Op Ret Unit) : Nat → Attempt State Op Ret Unit
  | 0 => pure ()
  | count + 1 => do
      forEach body count
      body count

/-- What holds of the state and the events at the end of every trace. -/
def wp (program : Attempt State Op Ret α) (post : α → State → List (Event Op Ret) → Prop)
    (exit : State → List (Event Op Ret) → Prop) (state : State)
    (history : List (Event Op Ret)) : Prop :=
  ∀ events result last, (program state).Trace events (result, last) →
    match result with
    | some value => post value last (history ++ events)
    | none => exit last (history ++ events)

section

variable {post : α → State → List (Event Op Ret) → Prop}
  {exit : State → List (Event Op Ret) → Prop} {state : State} {history : List (Event Op Ret)}

theorem wp_pure {value : α} :
    (pure value : Attempt State Op Ret α).wp post exit state history ↔
      post value state history := by
  constructor
  · intro h
    simpa using h [] (some value) state (.pure _)
  · intro h events result last htrace
    obtain ⟨rfl, hlast⟩ := Prog.trace_pure.mp htrace
    cases hlast
    simpa using h

theorem wp_fail :
    (fail : Attempt State Op Ret α).wp post exit state history ↔ exit state history := by
  constructor
  · intro h
    simpa using h [] none state (.pure _)
  · intro h events result last htrace
    obtain ⟨rfl, hlast⟩ := Prog.trace_pure.mp htrace
    cases hlast
    simpa using h

theorem wp_get {post : State → State → List (Event Op Ret) → Prop} :
    (get : Attempt State Op Ret State).wp post exit state history ↔ post state state history :=
  wp_pure

theorem wp_modify {change : State → State} {post : Unit → State → List (Event Op Ret) → Prop} :
    (modify change : Attempt State Op Ret Unit).wp post exit state history ↔
      post () (change state) history := by
  constructor
  · intro h
    simpa using h [] (some ()) (change state) (.pure _)
  · intro h events result last htrace
    obtain ⟨rfl, hlast⟩ := Prog.trace_pure.mp htrace
    cases hlast
    simpa using h

theorem wp_bind {program : Attempt State Op Ret α} {next : α → Attempt State Op Ret β}
    {post : β → State → List (Event Op Ret) → Prop} :
    (program >>= next).wp post exit state history ↔
      program.wp (fun value => (next value).wp post exit) exit state history := by
  constructor
  · intro h first result middle hfirst
    cases result with
    | none => exact h _ none middle (Prog.trace_bind.mpr ⟨first, [], _, by simp, hfirst, .pure _⟩)
    | some value =>
        intro second result last hsecond
        have := h (first ++ second) result last
          (Prog.trace_bind.mpr ⟨first, second, _, rfl, hfirst, hsecond⟩)
        rwa [List.append_assoc]
  · intro h events result last htrace
    obtain ⟨first, second, ⟨outcome, middle⟩, rfl, hfirst, hsecond⟩ := Prog.trace_bind.mp htrace
    cases outcome with
    | none =>
        obtain ⟨rfl, hlast⟩ := Prog.trace_pure.mp hsecond
        cases hlast
        simpa using h first none middle hfirst
    | some value =>
        have := h first (some value) middle hfirst second result last hsecond
        rwa [List.append_assoc] at this

theorem wp_perform {operation : Op} {post : Ret operation → State → List (Event Op Ret) → Prop} :
    (perform operation : Attempt State Op Ret (Ret operation)).wp post exit state history ↔
      ∀ result, post result state (history ++ [⟨operation, result⟩]) := by
  constructor
  · intro h result
    exact h [⟨operation, result⟩] (some result) state (.op (.pure _))
  · intro h events result last htrace
    obtain ⟨answer, rest, rfl, hrest⟩ := Prog.trace_perform.mp htrace
    obtain ⟨rfl, hlast⟩ := Prog.trace_pure.mp hrest
    cases hlast
    exact h answer

theorem wp_mono {post' : α → State → List (Event Op Ret) → Prop}
    {exit' : State → List (Event Op Ret) → Prop} {program : Attempt State Op Ret α}
    (h : program.wp post exit state history)
    (hpost : ∀ value last history, post value last history → post' value last history)
    (hexit : ∀ last history, exit last history → exit' last history) :
    program.wp post' exit' state history := by
  intro events result last htrace
  have := h events result last htrace
  cases result with
  | none => exact hexit _ _ this
  | some value => exact hpost _ _ _ this

end

/-- The rule of a loop over the numbers below a count. -/
theorem wp_for_each {body : Nat → Attempt State Op Ret Unit}
    (assertion : Nat → State → List (Event Op Ret) → Prop)
    {exit : State → List (Event Op Ret) → Prop} {count : Nat}
    (hbody : ∀ index < count, ∀ state history, assertion index state history →
      (body index).wp (fun _ => assertion (index + 1)) exit state history)
    {state : State} {history : List (Event Op Ret)} (h : assertion 0 state history) :
    (forEach body count).wp (fun _ => assertion count) exit state history := by
  induction count with
  | zero => exact wp_pure.mpr h
  | succ count ih =>
      refine wp_bind.mpr (wp_mono (ih fun index hindex => hbody index (by omega)) ?_ ?_)
      · exact fun _ last events hlast => hbody count (by omega) last events hlast
      · exact fun _ _ hexit => hexit

/-- The program performs only allowed operations and does not change this view of the state. -/
def Steady {V : Type} (view : State → V) (allowed : Op → Prop)
    (program : Attempt State Op Ret α) : Prop :=
  ∀ state events result last, (program state).Trace events (result, last) →
    view last = view state ∧ ∀ event ∈ events, allowed event.operation

/-- The program performs only allowed operations and leaves the state alone. -/
abbrev Still (allowed : Op → Prop) (program : Attempt State Op Ret α) : Prop :=
  Steady (fun state => state) allowed program

section

variable {V : Type} {view : State → V} {allowed : Op → Prop}

theorem steady_pure {value : α} : (pure value : Attempt State Op Ret α).Steady view allowed := by
  intro state events result last htrace
  obtain ⟨rfl, hlast⟩ := Prog.trace_pure.mp htrace
  cases hlast
  exact ⟨rfl, by simp⟩

theorem steady_fail : (fail : Attempt State Op Ret α).Steady view allowed := by
  intro state events result last htrace
  obtain ⟨rfl, hlast⟩ := Prog.trace_pure.mp htrace
  cases hlast
  exact ⟨rfl, by simp⟩

theorem steady_get : (get : Attempt State Op Ret State).Steady view allowed := by
  intro state events result last htrace
  obtain ⟨rfl, hlast⟩ := Prog.trace_pure.mp htrace
  cases hlast
  exact ⟨rfl, by simp⟩

theorem steady_modify {change : State → State} (h : ∀ state, view (change state) = view state) :
    (modify change : Attempt State Op Ret Unit).Steady view allowed := by
  intro state events result last htrace
  obtain ⟨rfl, hlast⟩ := Prog.trace_pure.mp htrace
  cases hlast
  exact ⟨h state, by simp⟩

theorem steady_perform {operation : Op} (h : allowed operation) :
    (perform operation : Attempt State Op Ret (Ret operation)).Steady view allowed := by
  intro state events result last htrace
  obtain ⟨answer, rest, rfl, hrest⟩ := Prog.trace_perform.mp htrace
  obtain ⟨rfl, hlast⟩ := Prog.trace_pure.mp hrest
  cases hlast
  exact ⟨rfl, by simpa using h⟩

theorem steady_bind {program : Attempt State Op Ret α} {next : α → Attempt State Op Ret β}
    (h : program.Steady view allowed) (hnext : ∀ value, (next value).Steady view allowed) :
    (program >>= next).Steady view allowed := by
  intro state events result last htrace
  obtain ⟨first, second, ⟨outcome, middle⟩, rfl, hfirst, hsecond⟩ := Prog.trace_bind.mp htrace
  obtain ⟨hview, hallowed⟩ := h _ _ _ _ hfirst
  cases outcome with
  | none =>
      obtain ⟨rfl, hlast⟩ := Prog.trace_pure.mp hsecond
      cases hlast
      exact ⟨hview, by simpa using hallowed⟩
  | some value =>
      obtain ⟨hafter, hrest⟩ := hnext value _ _ _ _ hsecond
      refine ⟨hafter.trans hview, fun event hevent => ?_⟩
      rcases List.mem_append.mp hevent with hmem | hmem
      · exact hallowed event hmem
      · exact hrest event hmem

theorem steady_for_each {body : Nat → Attempt State Op Ret Unit}
    (hbody : ∀ index, (body index).Steady view allowed) (count : Nat) :
    (forEach body count).Steady view allowed := by
  induction count with
  | zero => exact steady_pure
  | succ count ih => exact steady_bind ih fun _ => hbody count

/-- A coarser view and more operations. -/
theorem steady_mono {W : Type} {view' : State → W} {allowed' : Op → Prop}
    {program : Attempt State Op Ret α} (h : program.Steady view allowed)
    (hview : ∀ state last, view last = view state → view' last = view' state)
    (hallowed : ∀ operation, allowed operation → allowed' operation) :
    program.Steady view' allowed' := by
  intro state events result last htrace
  obtain ⟨hsame, hevents⟩ := h _ _ _ _ htrace
  exact ⟨hview _ _ hsame, fun event hevent => hallowed _ (hevents event hevent)⟩

/-- What the allowed operations keep, such a program keeps. -/
theorem wp_steady {assertion : List (Event Op Ret) → Prop}
    (hkeep : ∀ history event, allowed event.operation → assertion history →
      assertion (history ++ [event]))
    {program : Attempt State Op Ret α} (h : program.Steady view allowed) {state : State}
    {history : List (Event Op Ret)} (hhistory : assertion history) :
    program.wp (fun _ last events => view last = view state ∧ assertion events)
      (fun last events => view last = view state ∧ assertion events) state history := by
  intro events result last htrace
  obtain ⟨hview, hallowed⟩ := h _ _ _ _ htrace
  have hafter : assertion (history ++ events) := by
    clear htrace
    induction events generalizing history with
    | nil => simpa using hhistory
    | cons event rest ih =>
        rw [List.append_cons]
        refine ih (hkeep history event (hallowed event (List.mem_cons_self ..)) hhistory) ?_
        exact fun event hevent => hallowed event (List.mem_cons_of_mem _ hevent)
  cases result with
  | none => exact ⟨hview, hafter⟩
  | some value => exact ⟨hview, hafter⟩

end

end Attempt

/-- A program with loops: what it does from the head of a loop to the next head. -/
abbrev Flow (Point State Op : Type) (Ret : Op → Type) : Type :=
  Point → Attempt State Op Ret Point

namespace Flow

variable {Point State Op : Type} {Ret : Op → Type}

/-- The flow gets from one head to another one. -/
inductive Reaches (flow : Flow Point State Op Ret) (point : Point) (state : State) :
    List (Event Op Ret) → Point → State → Prop where
  | start : Reaches flow point state [] point state
  | next {before events : List (Event Op Ret)} {middle last : Point} {here there : State}
      (hreach : Reaches flow point state before middle here)
      (hstep : (flow middle here).Trace events (some last, there)) :
      Reaches flow point state (before ++ events) last there

/-- The events, the head and the state after one stretch for each way to answer, unless the flow is
left. -/
def stretches (flow : Flow Point State Op Ret) : List (∀ operation, Ret operation) →
    List (Event Op Ret) × Point × State → Option (List (Event Op Ret) × Point × State)
  | [], reached => some reached
  | answer :: rest, (before, point, state) =>
      let (events, next, there) := (flow point state).runWith answer
      next.bind fun last => stretches flow rest (before ++ events, last, there)

theorem reaches_stretches {flow : Flow Point State Op Ret}
    {answers : List (∀ operation, Ret operation)} {point middle last : Point}
    {state here there : State} {before events : List (Event Op Ret)}
    (hreach : Reaches flow point state before middle here)
    (h : flow.stretches answers (before, middle, here) = some (events, last, there)) :
    Reaches flow point state events last there := by
  induction answers generalizing before middle here with
  | nil =>
      cases h
      exact hreach
  | cons answer rest ih =>
      obtain ⟨next, hnext, hrest⟩ := Option.bind_eq_some_iff.mp h
      refine ih (hreach.next ?_) hrest
      rw [← hnext]
      exact Prog.trace_run_with answer _

/-- What every stretch keeps, a run keeps. -/
theorem reaches_keeps {flow : Flow Point State Op Ret}
    (assertion : Point → State → List (Event Op Ret) → Prop)
    (exit : State → List (Event Op Ret) → Prop)
    (hkeep : ∀ point state history, assertion point state history →
      (flow point).wp assertion exit state history)
    {point last : Point} {state here : State} {history events : List (Event Op Ret)}
    (h : assertion point state history) (hreach : Reaches flow point state events last here) :
    assertion last here (history ++ events) := by
  induction hreach with
  | start => simpa using h
  | next hreach hstep ih =>
      have := hkeep _ _ _ ih _ _ _ hstep
      rwa [List.append_assoc] at this

end Flow

end NanoKvm.Exec
