import Mathlib.Logic.Function.Basic
import NanoKvm.Exec.Program

/-!
# Records that are read word by word

A copy of a record is not atomic: each of its words is loaded at a moment of its own, and
the surroundings of the program go on in between. `Prog.collect` fills a buffer one word
after another. What is known afterwards is that every word of the buffer was there at some
moment of the copy, and these moments come in the order of the loads.
-/

namespace NanoKvm.Exec

variable {Op : Type} {Ret : Op → Type} {State Index Word : Type} [DecidableEq Index]

/-- Load the words with the given indices into a buffer, one after another. -/
def Prog.collect (load : Index → Prog Op Ret Word) :
    List Index → (Index → Word) → Prog Op Ret (Index → Word)
  | [], buffer => pure buffer
  | index :: rest, buffer => do
      let word ← load index
      Prog.collect load rest (Function.update buffer index word)

namespace Machine

variable {machine : Machine Op Ret State} {guard : State → Op → Prop}
variable {view : State → Index → Word} {load : Index → Prog Op Ret Word}

/-- The value was seen at some moment between the two states. -/
def Seen (machine : Machine Op Ret State) {Value : Type} (view : State → Value)
    (state : State) (value : Value) (after : State) : Prop :=
  ∃ moment, machine.Interferes state moment ∧ machine.Interferes moment after ∧
    value = view moment

theorem Seen.before {Value : Type} {view : State → Value} {state moment after : State}
    {value : Value} (hbefore : machine.Interferes state moment)
    (h : machine.Seen view moment value after) : machine.Seen view state value after := by
  obtain ⟨seen, hseen, hafter, hvalue⟩ := h
  exact ⟨seen, hbefore.trans hseen, hafter, hvalue⟩

theorem Seen.after {Value : Type} {view : State → Value} {state moment after : State}
    {value : Value} (h : machine.Seen view state value moment)
    (hafter : machine.Interferes moment after) : machine.Seen view state value after := by
  obtain ⟨seen, hseen, hmoment, hvalue⟩ := h
  exact ⟨seen, hseen, hmoment.trans hafter, hvalue⟩

/-- The rule of an operation that returns what it sees and leaves the state alone. -/
theorem wp_load {operation : Op} {view : State → Ret operation} {state : State}
    (hguard : ∀ before, guard before operation)
    (hload : ∀ before result next, machine.perform before operation result next →
      result = view before ∧ next = before) :
    machine.wp guard (Prog.perform operation) (machine.Seen view state) state := by
  intro before hbefore
  refine ⟨hguard before, ?_⟩
  intro result next hnext after hafter
  obtain ⟨hresult, heq⟩ := hload before result next hnext
  rw [heq] at hafter
  exact ⟨before, hbefore, hafter, hresult⟩

/-- Every word of a filled buffer was seen during the copy. -/
theorem wp_collect
    (hload : ∀ index state,
      machine.wp guard (load index) (machine.Seen (view · index) state) state)
    (indices : List Index) (buffer : Index → Word) {state : State} :
    machine.wp guard (Prog.collect load indices buffer)
      (fun words after => machine.Interferes state after ∧
        (∀ index ∈ indices, machine.Seen (view · index) state (words index) after) ∧
        ∀ index, index ∉ indices → words index = buffer index) state := by
  induction indices generalizing state buffer with
  | nil => exact fun after hafter => ⟨hafter, fun _ hnone => absurd hnone List.not_mem_nil,
      fun _ _ => rfl⟩
  | cons head rest ih =>
      refine wp_bind (wp_mono (hload head state) ?_)
      intro word middle hword
      have hmiddle : machine.Interferes state middle := by
        obtain ⟨moment, hfirst, hsecond, _⟩ := hword
        exact hfirst.trans hsecond
      refine wp_mono (ih (Function.update buffer head word)) ?_
      rintro words after ⟨hafter, hseen, hkept⟩
      refine ⟨hmiddle.trans hafter, ?_, ?_⟩
      · intro index hindex
        by_cases hrest : index ∈ rest
        · exact (hseen index hrest).before hmiddle
        · have hhead : index = head := (List.mem_cons.1 hindex).resolve_right hrest
          have hvalue : words index = word := by
            rw [hkept index hrest, hhead, Function.update_self]
          rw [hvalue, hhead]
          exact hword.after hafter
      · intro index hindex
        rw [List.mem_cons, not_or] at hindex
        rw [hkept index hindex.2, Function.update_of_ne hindex.1]

/-- A copy of indices one after another is a copy of the first and then of the others. -/
theorem collect_append (load : Index → Prog Op Ret Word) (first second : List Index)
    (buffer : Index → Word) :
    Prog.collect load (first ++ second) buffer =
      (Prog.collect load first buffer >>= Prog.collect load second) := by
  induction first generalizing buffer with
  | nil => rfl
  | cons head rest ih =>
      show (load head >>= fun word =>
          Prog.collect load (rest ++ second) (Function.update buffer head word)) =
        ((load head >>= fun word => Prog.collect load rest (Function.update buffer head word))
          >>= Prog.collect load second)
      rw [Prog.bind_assoc]
      exact congrArg _ (funext fun word => ih _)

/-- A copy during which the words stay the same ends with them. -/
theorem run_collect {Config β : Type} {step : Config → Config → Prop}
    (embed : Prog Op Ret β → Config) {words : Index → Word}
    (hload : ∀ index rest, Relation.ReflTransGen step (embed (load index >>= rest))
      (embed (rest (words index))))
    (indices : List Index) (rest : (Index → Word) → Prog Op Ret β) {buffer : Index → Word}
    (hbuffer : ∀ index, index ∉ indices → buffer index = words index) :
    Relation.ReflTransGen step (embed (Prog.collect load indices buffer >>= rest))
      (embed (rest words)) := by
  induction indices generalizing buffer with
  | nil =>
      have heq : buffer = words := funext fun index => hbuffer index List.not_mem_nil
      rw [heq]
      exact .refl
  | cons head tail ih =>
      show Relation.ReflTransGen step (embed ((load head >>= fun word =>
        Prog.collect load tail (Function.update buffer head word)) >>= rest)) _
      rw [Prog.bind_assoc]
      refine (hload head _).trans (ih ?_)
      intro index hindex
      by_cases heq : index = head
      · rw [heq, Function.update_self]
      · rw [Function.update_of_ne heq]
        apply hbuffer
        rw [List.mem_cons, not_or]
        exact ⟨heq, hindex⟩

/-- The moment at which the last word of a copy is loaded. All the others were seen before. -/
def Captured (machine : Machine Op Ret State) (view : State → Index → Word)
    (indices : List Index) (last : Index) (state : State) (words : Index → Word) (after : State) :
    Prop :=
  ∃ moment, machine.Interferes state moment ∧ machine.Interferes moment after ∧
    words last = view moment last ∧
    ∀ index ∈ indices, machine.Seen (view · index) state (words index) moment

/-- A copy with its last word. -/
theorem wp_captured
    (hload : ∀ index state,
      machine.wp guard (load index) (machine.Seen (view · index) state) state)
    {indices : List Index} {last : Index} (hlast : last ∉ indices) (buffer : Index → Word)
    {state : State} :
    machine.wp guard (Prog.collect load (indices ++ [last]) buffer)
      (machine.Captured view indices last state) state := by
  rw [collect_append]
  refine wp_bind (wp_mono (wp_collect hload indices buffer) ?_)
  rintro filled middle ⟨hmiddle, hseen, _⟩
  refine wp_mono (wp_collect hload [last] filled) ?_
  rintro words after ⟨_, hword, hkept⟩
  obtain ⟨moment, hmoment, hafter, hvalue⟩ := hword last (List.mem_singleton_self last)
  refine ⟨moment, hmiddle.trans hmoment, hafter, hvalue, ?_⟩
  intro index hindex
  have hne : index ≠ last := fun heq => hlast (heq ▸ hindex)
  have hsame : words index = filled index :=
    hkept index fun hmem => hne (List.mem_singleton.1 hmem)
  rw [hsame]
  exact (hseen index hindex).after hmoment

end Machine

end NanoKvm.Exec
