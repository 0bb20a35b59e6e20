import Mathlib.Data.List.Induction
import Mathlib.Order.Interval.Finset.Nat

/-!
# The frame-rate limiter

`frame_due` of `sg2002-h264-bridge.c`. `frame_due_slots`: with the first time as origin, a call is
admitted when no earlier call in its slot was, so stalls are not followed by bursts.
-/

namespace NanoKvm.Bridge

/-- `frame_due`: whether the frame is due, and the next time. -/
def frameDue (now interval next : UInt64) : Bool × UInt64 :=
  if interval = 0 then (true, next)
  else
    let next := if next = 0 then now else next
    if now < next then (false, next)
    else (true, next + ((now - next) / interval + 1) * interval)

/-- The admitted times and the next time after some calls. -/
def calls (interval : UInt64) (times : List UInt64) : List UInt64 × UInt64 :=
  times.foldl (fun state now =>
    let (due, next) := frameDue now interval state.2
    (if due then state.1 ++ [now] else state.1, next)) ([], 0)

/-- The admitted times. -/
def admitted (interval : UInt64) (times : List UInt64) : List UInt64 := (calls interval times).1

/-- The stored next time. -/
def nextTime (interval : UInt64) (times : List UInt64) : UInt64 := (calls interval times).2

/-- The slot of a time, counted from the first time. -/
def slot (interval first now : UInt64) : Nat := (now.toNat - first.toNat) / interval.toNat

section

variable {interval : UInt64}

theorem admitted_concat (interval : UInt64) (times : List UInt64) (now : UInt64) :
    admitted interval (times ++ [now]) =
      if (frameDue now interval (nextTime interval times)).1 then admitted interval times ++ [now]
      else admitted interval times := by
  rw [admitted, calls, List.foldl_append]
  rfl

theorem next_time_concat (interval : UInt64) (times : List UInt64) (now : UInt64) :
    nextTime interval (times ++ [now]) = (frameDue now interval (nextTime interval times)).2 := by
  rw [nextTime, calls, List.foldl_append]
  rfl

/-- A call without overflow. -/
theorem frame_due_spec {now next : UInt64} (hpos : 0 < interval) (hnext : next ≠ 0)
    (hbound : now.toNat + interval.toNat < 2 ^ 64) :
    (frameDue now interval next).1 = decide (next.toNat ≤ now.toNat) ∧
      (frameDue now interval next).2.toNat =
        if next.toNat ≤ now.toNat then
          next.toNat + ((now.toNat - next.toNat) / interval.toNat + 1) * interval.toNat
        else next.toNat := by
  have hinterval : interval ≠ 0 := by
    rintro rfl
    exact absurd hpos (by decide)
  have hsome : 0 < interval.toNat := UInt64.lt_iff_toNat_lt.mp hpos
  unfold frameDue
  rw [if_neg hinterval, if_neg hnext]
  by_cases hle : next.toNat ≤ now.toNat
  · have hdue : ¬ now < next := UInt64.not_lt.mpr (UInt64.le_iff_toNat_le.mpr hle)
    simp only [if_neg hdue, hle, decide_true, if_true, true_and]
    have hsub : (now - next).toNat = now.toNat - next.toNat :=
      UInt64.toNat_sub_of_le _ _ (UInt64.le_iff_toNat_le.mpr hle)
    have hdivision := Nat.div_mul_le_self (now.toNat - next.toNat) interval.toNat
    have hquotient : (now.toNat - next.toNat) / interval.toNat ≤
        (now.toNat - next.toNat) / interval.toNat * interval.toNat := Nat.le_mul_of_pos_right _ hsome
    have hproduct : ((now.toNat - next.toNat) / interval.toNat + 1) * interval.toNat =
        (now.toNat - next.toNat) / interval.toNat * interval.toNat + interval.toNat :=
      Nat.succ_mul _ _
    rw [UInt64.toNat_add, UInt64.toNat_mul, UInt64.toNat_add, UInt64.toNat_div, hsub,
      UInt64.toNat_one, Nat.mod_eq_of_lt (by omega : _ / _ + 1 < 2 ^ 64), hproduct,
      Nat.mod_eq_of_lt (by omega : _ * _ + _ < 2 ^ 64), Nat.mod_eq_of_lt (by omega)]
  · have hearly : now < next := UInt64.lt_iff_toNat_lt.mpr (Nat.lt_of_not_le hle)
    simp [hearly, hle]

/-- The first call starts the cadence at its time. -/
theorem frame_due_first {now : UInt64} (h : now ≠ 0) :
    frameDue now interval 0 = frameDue now interval now ∨ interval = 0 := by
  by_cases hinterval : interval = 0
  · exact .inr hinterval
  · left
    simp [frameDue, hinterval, h]

end

/-! ## Slots -/

/-- Times that do not decrease, are positive and leave room for an interval. -/
structure Calls (interval : UInt64) (times : List UInt64) : Prop where
  sorted : times.Pairwise (· ≤ ·)
  positive : ∀ t ∈ times, 0 < t
  bounded : ∀ t ∈ times, t.toNat + interval.toNat < 2 ^ 64

/-- The next time is the start of the slot after the last one that admitted a call. -/
structure Paced (interval first : UInt64) (times : List UInt64) : Prop where
  next : ∃ count, (nextTime interval times).toNat = first.toNat + count * interval.toNat ∧
    (∀ t ∈ admitted interval times, slot interval first t < count) ∧
    ∃ t ∈ admitted interval times, slot interval first t + 1 = count
  increasing : (admitted interval times).Pairwise fun t later =>
    slot interval first t < slot interval first later
  called : ∀ t ∈ admitted interval times, t ∈ times

section

variable {interval first : UInt64} (hpos : 0 < interval)
include hpos

theorem slot_le_iff {now : UInt64} (h : first ≤ now) (count : Nat) :
    count ≤ slot interval first now ↔ first.toNat + count * interval.toNat ≤ now.toNat := by
  have hsome : 0 < interval.toNat := UInt64.lt_iff_toNat_lt.mp hpos
  have hle := UInt64.le_iff_toNat_le.mp h
  rw [slot, Nat.le_div_iff_mul_le hsome]
  omega

omit hpos in
theorem Paced.next_ne_zero {times : List UInt64} (h : Paced interval first times)
    (hfirst : 0 < first) : nextTime interval times ≠ 0 := by
  obtain ⟨count, hnext, _⟩ := h.next
  intro hzero
  have hpositive : 0 < first.toNat := UInt64.lt_iff_toNat_lt.mp hfirst
  rw [hzero, UInt64.toNat_zero] at hnext
  omega

/-- A call is admitted when its slot has none yet. -/
theorem Paced.due_iff {times : List UInt64} (h : Paced interval first times) {now : UInt64}
    (hfirst : 0 < first) (hnow : first ≤ now) (hlater : ∀ t ∈ times, t ≤ now)
    (hbound : now.toNat + interval.toNat < 2 ^ 64) :
    (frameDue now interval (nextTime interval times)).1 = true ↔
      ∀ t ∈ admitted interval times, slot interval first t ≠ slot interval first now := by
  obtain ⟨count, hnext, hbelow, last, hlast, hcount⟩ := h.next
  rw [(frame_due_spec hpos (h.next_ne_zero hfirst) hbound).1, decide_eq_true_eq, hnext, ← slot_le_iff hpos hnow]
  constructor
  · intro hle t ht heq
    have hlt := hbelow t ht
    omega
  · intro hnone
    by_contra hlt
    refine hnone last hlast (Nat.le_antisymm ?_ (by omega))
    have hle := UInt64.le_iff_toNat_le.mp (hlater last (h.called last hlast))
    exact Nat.div_le_div_right (by omega)

theorem Paced.concat {times : List UInt64} (h : Paced interval first times) {now : UInt64}
    (hfirst : 0 < first) (hnow : first ≤ now)
    (hbound : now.toNat + interval.toNat < 2 ^ 64) : Paced interval first (times ++ [now]) := by
  have hsome : 0 < interval.toNat := UInt64.lt_iff_toNat_lt.mp hpos
  obtain ⟨count, hnext, hbelow, last, hlast, hcount⟩ := h.next
  obtain ⟨hdue, hstored⟩ := frame_due_spec hpos (h.next_ne_zero hfirst) hbound
  have hadmitted := admitted_concat interval times now
  have hafter := next_time_concat interval times now
  by_cases hle : (nextTime interval times).toNat ≤ now.toNat
  · rw [hdue, decide_eq_true hle, if_pos rfl] at hadmitted
    have hreached : count ≤ slot interval first now := by
      rw [slot_le_iff hpos hnow, ← hnext]
      exact hle
    have hslot : slot interval first now =
        (now.toNat - (nextTime interval times).toNat) / interval.toNat + count := by
      rw [slot, ← Nat.add_mul_div_right _ _ hsome]
      congr 1
      omega
    refine ⟨⟨slot interval first now + 1, ?_, ?_, now, ?_, rfl⟩, ?_, ?_⟩
    · rw [hafter, hstored, if_pos hle, hslot]
      generalize (now.toNat - (nextTime interval times).toNat) / interval.toNat = skipped
      rw [hnext, Nat.add_assoc, ← Nat.add_mul]
      congr 2
      omega
    · rw [hadmitted]
      intro t ht
      obtain hearlier | hnew := List.mem_append.mp ht
      · have hlt := hbelow t hearlier
        omega
      · rw [List.mem_singleton.mp hnew]
        exact Nat.lt_succ_self _
    · rw [hadmitted]
      exact List.mem_append_right _ List.mem_cons_self
    · rw [hadmitted, List.pairwise_append]
      refine ⟨h.increasing, List.pairwise_singleton _ now, ?_⟩
      intro t ht later hlater
      rw [List.mem_singleton.mp hlater]
      have hlt := hbelow t ht
      omega
    · rw [hadmitted]
      intro t ht
      obtain hearlier | hnew := List.mem_append.mp ht
      · exact List.mem_append_left _ (h.called t hearlier)
      · exact List.mem_append_right _ hnew
  · rw [hdue, decide_eq_false hle, if_neg Bool.false_ne_true] at hadmitted
    refine ⟨⟨count, ?_, ?_, last, ?_, hcount⟩, ?_, ?_⟩
    · rw [hafter, hstored, if_neg hle, hnext]
    · rwa [hadmitted]
    · rwa [hadmitted]
    · rw [hadmitted]
      exact h.increasing
    · rw [hadmitted]
      exact fun t ht => List.mem_append_left _ (h.called t ht)

theorem paced_first (hcalls : Calls interval [first]) : Paced interval first [first] := by
  have hsome : 0 < interval.toNat := UInt64.lt_iff_toNat_lt.mp hpos
  have hfirst : first ≠ 0 := by
    intro hzero
    exact absurd (hcalls.positive first List.mem_cons_self) (by rw [hzero]; decide)
  have hinterval : interval ≠ 0 := by
    rintro rfl
    exact absurd hpos (by decide)
  obtain ⟨hdue, hstored⟩ := frame_due_spec hpos hfirst (hcalls.bounded first List.mem_cons_self)
  have hstart := (frame_due_first hfirst).resolve_right hinterval
  rw [decide_eq_true (Nat.le_refl _)] at hdue
  rw [if_pos (Nat.le_refl _), Nat.sub_self, Nat.zero_div] at hstored
  have hadmitted : admitted interval [first] = [first] := by
    have hconcat := admitted_concat interval [] first
    have hnil : nextTime interval [] = 0 := rfl
    rw [hnil, hstart, hdue, if_pos rfl] at hconcat
    exact hconcat
  have hnext : (nextTime interval [first]).toNat = first.toNat + 1 * interval.toNat := by
    have hconcat := next_time_concat interval [] first
    have hnil : nextTime interval [] = 0 := rfl
    rw [hnil, hstart] at hconcat
    rw [← hstored, ← hconcat]
    rfl
  have hslot : slot interval first first = 0 := by rw [slot, Nat.sub_self, Nat.zero_div]
  refine ⟨⟨1, hnext, ?_, first, ?_, ?_⟩, ?_, ?_⟩
  · rw [hadmitted, List.forall_mem_singleton, hslot]
    exact Nat.one_pos
  · rw [hadmitted]
    exact List.mem_cons_self
  · rw [hslot]
  · rw [hadmitted]
    exact List.pairwise_singleton _ first
  · rw [hadmitted]
    exact fun t ht => ht

omit hpos in
theorem Calls.take {times : List UInt64} (h : Calls interval times) {front : List UInt64}
    (hfront : front <+: times) : Calls interval front where
  sorted := h.sorted.sublist hfront.sublist
  positive t ht := h.positive t (hfront.subset ht)
  bounded t ht := h.bounded t (hfront.subset ht)

omit hpos in
theorem Calls.first_le {rest : List UInt64} (h : Calls interval (first :: rest)) {t : UInt64}
    (ht : t ∈ first :: rest) : first ≤ t := by
  obtain rfl | hrest := List.mem_cons.mp ht
  · exact UInt64.le_refl t
  · exact (List.pairwise_cons.mp h.sorted).1 t hrest

theorem paced_calls {rest : List UInt64} (hcalls : Calls interval (first :: rest)) :
    Paced interval first (first :: rest) := by
  induction rest using List.reverseRecOn with
  | nil => exact paced_first hpos hcalls
  | append_singleton rest now ih =>
      have hmem : now ∈ first :: (rest ++ [now]) := by simp
      rw [← List.cons_append] at hcalls hmem ⊢
      exact (ih (hcalls.take (List.prefix_append _ _))).concat hpos
        (hcalls.positive first List.mem_cons_self) (hcalls.first_le hmem)
        (hcalls.bounded now hmem)

/-- The admitted times of a window are in different slots, of which it touches few. -/
theorem Paced.window {times : List UInt64} (h : Paced interval first times) (low width : Nat) :
    ((admitted interval times).filter fun t =>
      decide (low ≤ t.toNat ∧ t.toNat ≤ low + width)).length ≤ width / interval.toNat + 2 := by
  have hsome : 0 < interval.toNat := UInt64.lt_iff_toNat_lt.mp hpos
  generalize hinside : (admitted interval times).filter (fun t =>
    decide (low ≤ t.toNat ∧ t.toNat ≤ low + width)) = inside
  have hdistinct : (inside.map (slot interval first)).Nodup := by
    rw [← hinside, List.Nodup, List.pairwise_map]
    exact (h.increasing.sublist List.filter_sublist).imp Nat.ne_of_lt
  have hrange : (inside.map (slot interval first)).toFinset ⊆
      Finset.Icc ((low - first.toNat) / interval.toNat)
        ((low - first.toNat) / interval.toNat + width / interval.toNat + 1) := by
    intro count hcount
    rw [List.mem_toFinset, List.mem_map] at hcount
    obtain ⟨t, ht, rfl⟩ := hcount
    rw [← hinside, List.mem_filter, decide_eq_true_eq] at ht
    have hsplit : (low - first.toNat + width) / interval.toNat ≤
        (low - first.toNat) / interval.toNat + width / interval.toNat + 1 := by
      rw [Nat.add_div hsome]
      split <;> omega
    have hlow : (low - first.toNat) / interval.toNat ≤ slot interval first t :=
      Nat.div_le_div_right (by omega)
    have hhigh : slot interval first t ≤ (low - first.toNat + width) / interval.toNat :=
      Nat.div_le_div_right (by omega)
    exact Finset.mem_Icc.mpr ⟨hlow, hhigh.trans hsplit⟩
  have hcard := Finset.card_le_card hrange
  rw [List.toFinset_card_of_nodup hdistinct, List.length_map, Nat.card_Icc] at hcard
  generalize (low - first.toNat) / interval.toNat = before at hcard
  generalize width / interval.toNat = slots at hcard ⊢
  omega

end

/-- A call is admitted exactly when no earlier call in its slot was; the next time is on the
cadence and after every admitted time; and a window has at most one admitted time for each
interval in it and two more. -/
theorem frame_due_slots {interval first : UInt64} {rest : List UInt64} (hpos : 0 < interval)
    (hcalls : Calls interval (first :: rest)) :
    (∀ earlier now later, first :: rest = earlier ++ now :: later →
      ((frameDue now interval (nextTime interval earlier)).1 = true ↔
        ∀ t ∈ admitted interval earlier, slot interval first t ≠ slot interval first now)) ∧
    (∀ earlier later, first :: rest = earlier ++ later → earlier ≠ [] →
      (∃ count, (nextTime interval earlier).toNat = first.toNat + count * interval.toNat) ∧
        ∀ t ∈ admitted interval earlier, t < nextTime interval earlier) ∧
    ∀ low width, ((admitted interval (first :: rest)).filter fun t =>
      decide (low ≤ t.toNat ∧ t.toNat ≤ low + width)).length ≤ width / interval.toNat + 2 := by
  have hfirst : 0 < first := hcalls.positive first List.mem_cons_self
  have hpaced : ∀ earlier later, first :: rest = earlier ++ later → earlier ≠ [] →
      Paced interval first earlier := by
    intro earlier later hsplit hsome
    obtain ⟨head, tail, rfl⟩ := List.exists_cons_of_ne_nil hsome
    obtain ⟨rfl, _⟩ := List.cons.inj hsplit
    exact paced_calls hpos (hcalls.take ⟨later, hsplit.symm⟩)
  refine ⟨?_, ?_, ?_⟩
  · intro earlier now later hsplit
    have hmem : now ∈ first :: rest := by simp [hsplit]
    by_cases hempty : earlier = []
    · subst hempty
      have hstart := (frame_due_first (UInt64.pos_iff_ne_zero.mp (hcalls.positive now hmem))).resolve_right
        (UInt64.pos_iff_ne_zero.mp hpos)
      have hdue := (frame_due_spec hpos (UInt64.pos_iff_ne_zero.mp (hcalls.positive now hmem))
        (hcalls.bounded now hmem)).1
      have hnil : nextTime interval [] = 0 := rfl
      rw [hnil, hstart, hdue, decide_eq_true (Nat.le_refl _)]
      exact iff_of_true rfl (by simp [admitted, calls])
    · refine (hpaced earlier _ hsplit hempty).due_iff hpos hfirst (hcalls.first_le hmem) ?_
        (hcalls.bounded now hmem)
      intro t ht
      have hsorted := hcalls.sorted
      rw [hsplit, List.pairwise_append] at hsorted
      exact hsorted.2.2 t ht now List.mem_cons_self
  · intro earlier later hsplit hsome
    have hpace := hpaced earlier later hsplit hsome
    obtain ⟨count, hnext, hbelow, _⟩ := hpace.next
    refine ⟨⟨count, hnext⟩, ?_⟩
    intro t ht
    have hmem : t ∈ first :: rest := by
      rw [hsplit]
      exact List.mem_append_left _ (hpace.called t ht)
    have hearly := Nat.not_le_of_lt (hbelow t ht)
    rw [slot_le_iff hpos (hcalls.first_le hmem), ← hnext] at hearly
    exact UInt64.lt_iff_toNat_lt.mpr (Nat.lt_of_not_le hearly)
  · exact (hpaced (first :: rest) [] (by simp) (by simp)).window hpos

/-- A frame in time, one that is early and one after a stall, at ten a tick. -/
theorem frame_due_slots_stall :
    (∀ earlier now later, [1000, 1004, 1035, 1039] = earlier ++ now :: later →
      ((frameDue now 10 (nextTime 10 earlier)).1 = true ↔
        ∀ t ∈ admitted 10 earlier, slot 10 1000 t ≠ slot 10 1000 now)) ∧
    (∀ earlier later, [1000, 1004, 1035, 1039] = earlier ++ later → earlier ≠ [] →
      (∃ count, (nextTime 10 earlier).toNat = (1000 : UInt64).toNat + count * (10 : UInt64).toNat) ∧
        ∀ t ∈ admitted 10 earlier, t < nextTime 10 earlier) ∧
    ∀ low width, ((admitted 10 [1000, 1004, 1035, 1039]).filter fun t =>
      decide (low ≤ t.toNat ∧ t.toNat ≤ low + width)).length ≤ width / (10 : UInt64).toNat + 2 :=
  frame_due_slots (by decide) ⟨by decide, by simp, by simp⟩

end NanoKvm.Bridge
