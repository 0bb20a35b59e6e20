import Mathlib.Algebra.Order.Group.Multiset

/-!
# Ledgers

A ledger says what the entries of a record take and what they give back. Going through the record,
something can only be given back while it is held: `settle` fails on a record that gives back more
than it holds.
-/

namespace NanoKvm.Exec

/-- What an entry takes and what it gives back. -/
structure Ledger (Entry : Type) (α : Type) where
  gains : Entry → Option α
  returns : Entry → Option α

namespace Ledger

variable {Entry α : Type}

/-- What the entries take. -/
def gained (ledger : Ledger Entry α) (entries : List Entry) : Multiset α :=
  ↑(entries.filterMap ledger.gains)

/-- What the entries give back. -/
def returned (ledger : Ledger Entry α) (entries : List Entry) : Multiset α :=
  ↑(entries.filterMap ledger.returns)

/-- Entry by entry. -/
theorem coe_filter_map_cons (part : Entry → Option α) (entry : Entry) (rest : List Entry) :
    (↑((entry :: rest).filterMap part) : Multiset α) =
      ↑(part entry).toList + ↑(rest.filterMap part) := by
  cases hpart : part entry with
  | none => simp [hpart]
  | some item => simp [hpart]

variable [DecidableEq α] {ledger : Ledger Entry α}

/-- What is held after an entry. -/
def enter (ledger : Ledger Entry α) (entry : Entry) (held : Multiset α) : Option (Multiset α) :=
  let holds := held + ((ledger.gains entry).toList : Multiset α)
  match ledger.returns entry with
  | none => some holds
  | some item => if item ∈ holds then some (holds.erase item) else none

/-- What is held after the entries. -/
def settle (ledger : Ledger Entry α) : List Entry → Multiset α → Option (Multiset α)
  | [], held => some held
  | entry :: rest, held => (ledger.enter entry held).bind (settle ledger rest)

theorem settle_append {first second : List Entry} {held : Multiset α} :
    ledger.settle (first ++ second) held =
      (ledger.settle first held).bind (ledger.settle second) := by
  induction first generalizing held with
  | nil => rfl
  | cons entry rest ih =>
      simp only [List.cons_append, settle]
      cases ledger.enter entry held with
      | none => rfl
      | some now => exact ih

theorem settle_single {entry : Entry} {held : Multiset α} :
    ledger.settle [entry] held = ledger.enter entry held := by
  simp only [settle]
  cases ledger.enter entry held <;> rfl

theorem settle_concat {entries : List Entry} {entry : Entry} {held : Multiset α} :
    ledger.settle (entries ++ [entry]) held =
      (ledger.settle entries held).bind (ledger.enter entry) := by
  rw [settle_append]
  cases ledger.settle entries held with
  | none => rfl
  | some now => exact settle_single

theorem enter_quiet {entry : Entry} (hgains : ledger.gains entry = none)
    (hreturns : ledger.returns entry = none) (held : Multiset α) :
    ledger.enter entry held = some held := by
  simp [enter, hgains, hreturns]

theorem enter_gains {entry : Entry} {item : α} (hgains : ledger.gains entry = some item)
    (hreturns : ledger.returns entry = none) (held : Multiset α) :
    ledger.enter entry held = some (held + {item}) := by
  simp [enter, hgains, hreturns]

theorem enter_returns {entry : Entry} {item : α} (hgains : ledger.gains entry = none)
    (hreturns : ledger.returns entry = some item) (held : Multiset α) :
    ledger.enter entry held = if item ∈ held then some (held.erase item) else none := by
  simp [enter, hgains, hreturns]

theorem enter_total {entry : Entry} {held now : Multiset α}
    (h : ledger.enter entry held = some now) :
    now + ↑(ledger.returns entry).toList = held + ↑(ledger.gains entry).toList := by
  unfold enter at h
  cases hreturns : ledger.returns entry with
  | none =>
      rw [hreturns] at h
      cases h
      simp
  | some item =>
      rw [hreturns] at h
      dsimp only at h
      split at h
      · rename_i hmem
        cases h
        rw [Option.toList_some, Multiset.coe_singleton, add_comm, Multiset.singleton_add,
          Multiset.cons_erase hmem]
      · cases h

/-- Nothing is lost: what is held in the end and what was given back are what was held at first
and what was taken. -/
theorem settle_total {entries : List Entry} {held left : Multiset α}
    (h : ledger.settle entries held = some left) :
    left + ledger.returned entries = held + ledger.gained entries := by
  induction entries generalizing held with
  | nil =>
      cases h
      rfl
  | cons entry rest ih =>
      obtain ⟨now, henter, hrest⟩ := Option.bind_eq_some_iff.mp h
      have hentry := enter_total henter
      have htotal := ih hrest
      rw [gained, returned, coe_filter_map_cons, coe_filter_map_cons, ← gained, ← returned]
      calc left + (↑(ledger.returns entry).toList + ledger.returned rest)
          = left + ledger.returned rest + ↑(ledger.returns entry).toList := by
            rw [add_left_comm, add_comm]
        _ = now + ↑(ledger.returns entry).toList + ledger.gained rest := by
            rw [htotal, add_right_comm]
        _ = held + (↑(ledger.gains entry).toList + ledger.gained rest) := by
            rw [hentry, add_assoc]

/-- Entries that only give back what is held leave the rest. -/
theorem settle_returns {entries : List Entry} {held left : Multiset α}
    (hgains : ∀ entry ∈ entries, ledger.gains entry = none)
    (h : held = left + ledger.returned entries) : ledger.settle entries held = some left := by
  induction entries generalizing held with
  | nil => simpa [settle, returned] using h
  | cons entry rest ih =>
      have hrest := fun entry hentry => hgains entry (List.mem_cons_of_mem _ hentry)
      have hnone := hgains entry (List.mem_cons_self ..)
      rw [returned, coe_filter_map_cons, ← returned] at h
      cases hreturns : ledger.returns entry with
      | none =>
          rw [settle, enter_quiet hnone hreturns, Option.bind_some]
          exact ih hrest (by simpa [hreturns] using h)
      | some item =>
          have hheld : held = item ::ₘ (left + ledger.returned rest) := by
            rw [h, hreturns, ← Multiset.singleton_add, add_left_comm]
            rfl
          rw [settle, enter_returns hnone hreturns, if_pos (by simp [hheld]), Option.bind_some]
          exact ih hrest (by simp [hheld])

end Ledger

end NanoKvm.Exec
