import Mathlib.Data.List.Basic
import Mathlib.Data.List.Perm.Basic
import Mathlib.Data.List.Nodup
import Mathlib.Data.List.TakeWhile

/-!
# Fields

Texts that consist of `name=value` fields with one separator between them: splitting a text,
finding a field by its name, and the order of the fields, which does not matter when the
names are distinct (`perm_pairs`).
-/

namespace NanoKvm.Text

/-- `str::split_once`: the parts before and after the first separator. -/
def splitOnce (separator : Char) (text : List Char) : Option (List Char × List Char) :=
  match text.dropWhile (· ≠ separator) with
  | [] => none
  | _ :: rest => some (text.takeWhile (· ≠ separator), rest)

theorem split_once_some_iff {separator : Char} {text first rest : List Char} :
    splitOnce separator text = some (first, rest) ↔
      text = first ++ separator :: rest ∧ separator ∉ first := by
  unfold splitOnce
  constructor
  · intro h
    have hjoin := @List.takeWhile_append_dropWhile _ (fun char => decide (char ≠ separator)) text
    have hhead := List.head?_dropWhile_not (fun char => decide (char ≠ separator)) text
    split at h
    · cases h
    · rename_i char tail hdrop
      cases h
      rw [hdrop] at hhead hjoin
      have hchar : char = separator := by simpa using hhead
      subst hchar
      refine ⟨hjoin.symm, fun hmem => ?_⟩
      have hpass := List.mem_takeWhile_imp hmem
      simp at hpass
  · rintro ⟨rfl, hnone⟩
    have hall : ∀ char ∈ first, decide (char ≠ separator) = true := by
      intro char hchar
      simp only [decide_eq_true_eq]
      rintro rfl
      exact hnone hchar
    rw [List.dropWhile_append_of_pos hall, List.takeWhile_append_of_pos hall]
    simp

/-- The parts of a split text do not contain the separator. -/
theorem not_mem_of_mem_split {separator : Char} {text part : List Char}
    (h : part ∈ text.splitOn separator) : separator ∉ part := by
  induction text generalizing part with
  | nil =>
      rw [List.splitOn_nil, List.mem_singleton] at h
      simp [h]
  | cons char text ih =>
      rw [List.splitOn_cons_eq_if_modifyHead] at h
      split at h
      · rw [List.mem_cons] at h
        obtain rfl | hrest := h
        · simp
        · exact ih hrest
      · rename_i hchar
        cases hsplit : text.splitOn separator with
        | nil => exact absurd hsplit (List.splitOn_ne_nil _ _)
        | cons first rest =>
            rw [hsplit, List.modifyHead_cons, List.mem_cons] at h
            obtain rfl | hrest := h
            · have hfirst : separator ∉ first := ih (by rw [hsplit]; exact List.mem_cons_self)
              simp only [List.mem_cons, not_or]
              refine ⟨fun hsame => ?_, hfirst⟩
              simp [hsame] at hchar
            · exact ih (by rw [hsplit]; exact List.mem_cons_of_mem _ hrest)

/-- The value of a name, or nothing. -/
def valueOf (fields : List (List Char × List Char)) (name : List Char) : List Char :=
  (fields.lookup name).getD []

theorem value_of_mem {fields : List (List Char × List Char)}
    (hnodup : (fields.map Prod.fst).Nodup) {field : List Char × List Char} (h : field ∈ fields) :
    valueOf fields field.1 = field.2 := by
  induction fields with
  | nil => cases h
  | cons other fields ih =>
      rw [List.map_cons, List.nodup_cons] at hnodup
      rw [List.mem_cons] at h
      obtain rfl | hmem := h
      · obtain ⟨name, value⟩ := field
        simp [valueOf]
      · have hne : field.1 ≠ other.1 := by
          intro hsame
          exact hnodup.1 (hsame ▸ List.mem_map_of_mem hmem)
        have hrest := ih hnodup.2 hmem
        have hother : (field.1 == other.1) = false := by simpa using hne
        rw [valueOf, List.lookup_cons, hother]
        exact hrest

/-- Fields with distinct names, in the order of the names. -/
theorem perm_pairs {fields : List (List Char × List Char)} {names : List (List Char)}
    (hnodup : names.Nodup) (h : (fields.map Prod.fst).Perm names) :
    fields.Perm (names.map fun name => (name, valueOf fields name)) := by
  have hkeys : (fields.map Prod.fst).Nodup := h.nodup_iff.2 hnodup
  have hsame : (fields.map Prod.fst).map (fun name => (name, valueOf fields name)) = fields := by
    rw [List.map_map]
    conv_rhs => rw [← List.map_id fields]
    apply List.map_congr_left
    intro field hfield
    simp [value_of_mem hkeys hfield]
  have hperm := h.map fun name => (name, valueOf fields name)
  rwa [hsame] at hperm

/-- The order does not matter for the value of a name. -/
theorem value_of_perm {fields others : List (List Char × List Char)} (h : fields.Perm others)
    (hnodup : (others.map Prod.fst).Nodup) {name value : List Char} (hmem : (name, value) ∈ others) :
    valueOf fields name = value :=
  value_of_mem ((h.map Prod.fst).nodup_iff.2 hnodup) (h.mem_iff.2 hmem)

end NanoKvm.Text
