import NanoKvm.Rtp.Packetizer

/-!
# Splitting Annex-B

`annexb_split` with its reads and its views: `splitViews` fails at a read outside the buffer, and
`split_views_inside` says that it never does. Its views are those of `annexbSplit`. `split_joined`
is the round trip: NAL units that hold no start code come back as they were joined, whichever
start codes stand before them.
-/

namespace NanoKvm.Rtp

/-! ## Reads and views -/

/-- `struct nal_view`, with the index of its first byte. -/
structure NalView where
  start : Nat
  size : Nat
  type : UInt8
  deriving DecidableEq, Repr

/-- The bytes of a view. -/
def NalView.bytes (buf : List UInt8) (view : NalView) : List UInt8 :=
  (buf.drop view.start).take view.size

/-- The test of the outer scan, with its reads in order. -/
def readStartCode (buf : List UInt8) (i : Nat) : Option Bool := do
  if (← buf[i]?) ≠ 0 then return false
  if (← buf[i + 1]?) ≠ 0 then return false
  if i + 3 < buf.length then
    if (← buf[i + 2]?) = 1 then return true
  if i + 4 ≤ buf.length then
    if (← buf[i + 2]?) = 0 then return (← buf[i + 3]?) == 1
  return false

/-- The test of the inner scan, with its reads in order. -/
def readEnd (buf : List UInt8) (next : Nat) : Option Bool := do
  if (← buf[next]?) ≠ 0 then return false
  if (← buf[next + 1]?) ≠ 0 then return false
  if (← buf[next + 2]?) = 1 then return true
  if next + 3 < buf.length then
    if (← buf[next + 2]?) = 0 then return (← buf[next + 3]?) == 1
  return false

/-- A scan over so many indices. -/
def readScan (test : Nat → Option Bool) : Nat → Nat → Option (Option Nat)
  | 0, _ => some none
  | left + 1, i => do
      if (← test i) then return some i
      readScan test left (i + 1)

/-- `annexb_split` with its reads, from a position on. -/
def splitViewsFrom (buf : List UInt8) : Nat → Nat → Option (List NalView)
  | 0, _ => some []
  | maxNals + 1, pos =>
      if pos + 4 ≤ buf.length then do
        match ← readScan (readStartCode buf) (buf.length - 2 - pos) pos with
        | none => return []
        | some sc =>
            let start := sc + if (← buf[sc + 2]?) = 1 then 3 else 4
            let next := (← readScan (readEnd buf) (buf.length - 2 - start) start).getD buf.length
            if start ≥ next then return []
            let type := (← buf[start]?) &&& 0x1f
            return ⟨start, next - start, type⟩ :: (← splitViewsFrom buf maxNals next)
      else some []

/-- `annexb_split` with its reads. -/
def splitViews (buf : List UInt8) (maxNals : Nat) : Option (List NalView) :=
  splitViewsFrom buf maxNals 0

section

variable {buf : List UInt8}

theorem read_inside {i : Nat} (h : i < buf.length) : buf[i]? = some (buf.getD i 0) := by
  rw [List.getD_eq_getElem?_getD, List.getElem?_eq_getElem h]
  rfl

theorem read_start_code_inside {i : Nat} (h : i + 3 ≤ buf.length) :
    readStartCode buf i = some (startCodeAt buf i) := by
  have hfirst := read_inside (by omega : i < buf.length)
  have hsecond := read_inside (by omega : i + 1 < buf.length)
  have hthird := read_inside (by omega : i + 2 < buf.length)
  have hfourth : i + 3 < buf.length → buf[i + 3]? = some (buf.getD (i + 3) 0) := read_inside
  unfold readStartCode startCodeAt
  rw [hfirst, hsecond, hthird]
  generalize buf.getD i 0 = a
  generalize buf.getD (i + 1) 0 = b
  generalize buf.getD (i + 2) 0 = c
  by_cases hlong : i + 3 < buf.length
  · rw [hfourth hlong]
    have hle : i + 4 ≤ buf.length := hlong
    by_cases ha : a = 0 <;> by_cases hb : b = 0 <;> by_cases hc : c = 1 <;>
      by_cases hzero : c = 0 <;> simp [*]
  · have hle : ¬ i + 4 ≤ buf.length := hlong
    by_cases ha : a = 0 <;> by_cases hb : b = 0 <;> simp [*]

theorem read_end_inside {next : Nat} (h : next + 3 ≤ buf.length) :
    readEnd buf next = some (endsAt buf next) := by
  have hfirst := read_inside (by omega : next < buf.length)
  have hsecond := read_inside (by omega : next + 1 < buf.length)
  have hthird := read_inside (by omega : next + 2 < buf.length)
  have hfourth : next + 3 < buf.length → buf[next + 3]? = some (buf.getD (next + 3) 0) :=
    read_inside
  unfold readEnd endsAt
  rw [hfirst, hsecond, hthird]
  generalize buf.getD next 0 = a
  generalize buf.getD (next + 1) 0 = b
  generalize buf.getD (next + 2) 0 = c
  by_cases hlong : next + 3 < buf.length
  · rw [hfourth hlong]
    by_cases ha : a = 0 <;> by_cases hb : b = 0 <;> by_cases hc : c = 1 <;>
      by_cases hzero : c = 0 <;> simp [*]
  · by_cases ha : a = 0 <;> by_cases hb : b = 0 <;> by_cases hc : c = 1 <;> simp [*]

/-- A scan with its reads is the scan. -/
theorem read_scan_inside {read : Nat → Option Bool} {test : List UInt8 → Nat → Bool}
    (hread : ∀ i, i + 3 ≤ buf.length → read i = some (test buf i)) (first : Nat) :
    readScan read (buf.length - 2 - first) first = some (scan buf test first) := by
  have hrange : ∀ left first, first + left + 2 ≤ buf.length ∨ left = 0 →
      readScan read left first = some ((List.range' first left).find? (test buf)) := by
    intro left
    induction left with
    | zero => exact fun first _ => rfl
    | succ left ih =>
        intro first hleft
        rw [readScan, hread first (by omega), List.range'_succ, List.find?_cons]
        cases htest : test buf first with
        | true => rfl
        | false => exact ih (first + 1) (by omega)
  exact hrange _ first (by omega)

theorem scan_some_iff {test : List UInt8 → Nat → Bool} {first i : Nat} :
    scan buf test first = some i ↔
      first ≤ i ∧ i + 3 ≤ buf.length ∧ test buf i = true ∧
        ∀ j, first ≤ j → j < i → test buf j = false := by
  unfold scan
  rw [List.find?_range'_eq_some, List.mem_range'_1]
  simp only [Bool.not_eq_eq_eq_not, Bool.not_true]
  constructor
  · rintro ⟨htest, hrange, hbefore⟩
    exact ⟨hrange.1, by omega, htest, hbefore⟩
  · rintro ⟨hle, hlength, htest, hbefore⟩
    exact ⟨htest, by omega, hbefore⟩

theorem scan_none_iff {test : List UInt8 → Nat → Bool} {first : Nat} :
    scan buf test first = none ↔
      ∀ i, first ≤ i → i + 3 ≤ buf.length → test buf i = false := by
  unfold scan
  simp only [List.find?_eq_none, List.mem_range'_1, Bool.not_eq_true]
  constructor
  · exact fun h i hle hlength => h i ⟨hle, by omega⟩
  · exact fun h i hrange => h i hrange.1 (by omega)

/-- What the split promises of its views from a position on. -/
structure Views (buf : List UInt8) (pos : Nat) (views : List NalView) : Prop where
  after : ∀ view ∈ views, pos ≤ view.start
  nonempty : ∀ view ∈ views, 0 < view.size
  inside : ∀ view ∈ views, view.start + view.size ≤ buf.length
  ordered : views.Pairwise fun view later => view.start + view.size ≤ later.start
  typed : ∀ view ∈ views, view.type = buf.getD view.start 0 &&& 0x1f

theorem scan_end_range {start : Nat} (h : start ≤ buf.length) :
    start ≤ (scan buf endsAt start).getD buf.length ∧
      (scan buf endsAt start).getD buf.length ≤ buf.length := by
  cases hend : scan buf endsAt start with
  | none => exact ⟨h, Nat.le_refl _⟩
  | some next =>
      obtain ⟨hle, hlength, _, _⟩ := scan_some_iff.mp hend
      exact ⟨hle, by rw [Option.getD_some]; omega⟩

/-- A start code is followed by a byte, or ends the buffer. -/
theorem start_code_length {sc : Nat} (h : startCodeAt buf sc = true) :
    sc + (if buf.getD (sc + 2) 0 = 1 then 3 else 4) ≤ buf.length := by
  simp only [startCodeAt, Bool.and_eq_true, Bool.or_eq_true, decide_eq_true_eq, beq_iff_eq] at h
  split <;> omega

theorem Views.cons {pos : Nat} {view : NalView} {views : List NalView}
    (hafter : pos ≤ view.start) (hsize : 0 < view.size)
    (hinside : view.start + view.size ≤ buf.length)
    (htype : view.type = buf.getD view.start 0 &&& 0x1f)
    (h : Views buf (view.start + view.size) views) : Views buf pos (view :: views) where
  after := by
    refine List.forall_mem_cons.mpr ⟨hafter, fun other hother => ?_⟩
    have hlater := h.after other hother
    omega
  nonempty := List.forall_mem_cons.mpr ⟨hsize, h.nonempty⟩
  inside := List.forall_mem_cons.mpr ⟨hinside, h.inside⟩
  ordered := List.pairwise_cons.mpr ⟨h.after, h.ordered⟩
  typed := List.forall_mem_cons.mpr ⟨htype, h.typed⟩

theorem split_views_from_inside (buf : List UInt8) (maxNals pos : Nat) :
    ∃ views, splitViewsFrom buf maxNals pos = some views ∧ Views buf pos views ∧
      views.length ≤ maxNals ∧ views.map (NalView.bytes buf) = annexbSplitFrom buf maxNals pos := by
  have hempty : Views buf pos [] := by constructor <;> simp
  induction maxNals generalizing pos with
  | zero => exact ⟨[], rfl, hempty, Nat.le_refl 0, rfl⟩
  | succ maxNals ih =>
      rw [splitViewsFrom, annexbSplitFrom]
      split
      · rw [read_scan_inside fun i => read_start_code_inside]
        cases hsc : scan buf startCodeAt pos with
        | none => exact ⟨[], rfl, hempty, Nat.zero_le _, rfl⟩
        | some sc =>
            obtain ⟨hle, hlength, htest, _⟩ := scan_some_iff.mp hsc
            have hstart := start_code_length htest
            have hthird := read_inside (by omega : sc + 2 < buf.length)
            have hpos : pos ≤ sc + if buf.getD (sc + 2) 0 = 1 then 3 else 4 := by omega
            simp only [Option.bind_eq_bind, Option.bind_some, hthird]
            generalize (sc + if buf.getD (sc + 2) 0 = 1 then 3 else 4) = start at hstart hpos ⊢
            obtain ⟨hbefore, hwithin⟩ := scan_end_range hstart
            rw [read_scan_inside fun i => read_end_inside]
            simp only [Option.bind_some]
            generalize (scan buf endsAt start).getD buf.length = next at hbefore hwithin ⊢
            by_cases hnothing : start ≥ next
            · rw [if_pos hnothing, if_pos hnothing]
              exact ⟨[], rfl, hempty, Nat.zero_le _, rfl⟩
            · obtain ⟨views, hviews, hlater, hcount, hbytes⟩ := ih next
                (by constructor <;> simp)
              have hread := read_inside (by omega : start < buf.length)
              rw [if_neg hnothing, if_neg hnothing, hread, hviews]
              have hend : start + (next - start) = next := by omega
              refine ⟨⟨start, next - start, buf.getD start 0 &&& 0x1f⟩ :: views, rfl, ?_, ?_, ?_⟩
              · exact .cons hpos (by dsimp only; omega) (by dsimp only; omega) rfl
                  (by dsimp only; rwa [hend])
              · rw [List.length_cons]
                omega
              · rw [List.map_cons, hbytes]
                rfl
      · exact ⟨[], rfl, hempty, Nat.zero_le _, rfl⟩

end

/-! ## Joined units -/

/-- A NAL unit without a start code in it, also together with one that follows. -/
structure NalUnit (unit : List UInt8) : Prop where
  nonempty : unit ≠ []
  trailing : unit.getLast? ≠ some 0
  zeros : ¬ [0, 0, 0] <:+: unit
  code : ¬ [0, 0, 1] <:+: unit

/-- A start code of four bytes or three. -/
def startCode (long : Bool) : List UInt8 := if long then [0, 0, 0, 1] else [0, 0, 1]

/-- Units, each after its start code. -/
def joined (parts : List (Bool × List UInt8)) : List UInt8 :=
  parts.flatMap fun part => startCode part.1 ++ part.2

theorem get_d_drop (buf : List UInt8) (i k : Nat) : buf.getD (i + k) 0 = (buf.drop i).getD k 0 := by
  simp only [List.getD_eq_getElem?_getD, List.getElem?_drop]

theorem ends_at_iff (buf : List UInt8) (i : Nat) :
    endsAt buf i = true ↔ [0, 0, 1] <+: buf.drop i ∨ [0, 0, 0, 1] <+: buf.drop i := by
  have hlength : i + 3 < buf.length ↔ 3 < (buf.drop i).length := by
    rw [List.length_drop]
    omega
  have hfirst : buf.getD i 0 = (buf.drop i).getD 0 0 := get_d_drop buf i 0
  unfold endsAt
  rw [hfirst, get_d_drop, get_d_drop, get_d_drop]
  simp only [hlength]
  generalize buf.drop i = s
  match s with
  | [] => simp
  | [a] => simp
  | [a, b] => simp
  | [a, b, c] =>
      simp
      grind
  | a :: b :: c :: d :: rest =>
      simp
      grind

/-- After a start code with a byte behind it. -/
theorem start_code_at_code {buf unit rest : List UInt8} {i : Nat} {long : Bool}
    (hunit : unit ≠ []) (h : buf.drop i = startCode long ++ (unit ++ rest)) :
    startCodeAt buf i = true ∧ i + 4 ≤ buf.length ∧
      (if buf.getD (i + 2) 0 = 1 then 3 else 4) = (startCode long).length := by
  obtain ⟨head, tail, rfl⟩ := List.exists_cons_of_ne_nil hunit
  have hlength := congrArg List.length h
  have hfirst : buf.getD i 0 = (buf.drop i).getD 0 0 := get_d_drop buf i 0
  unfold startCodeAt
  rw [hfirst, get_d_drop, get_d_drop, get_d_drop, h]
  cases long with
  | false =>
      simp only [startCode, List.length_append, List.length_drop, List.length_cons,
        Bool.false_eq_true, if_false, List.length_nil] at hlength ⊢
      have hlong : i + 3 < buf.length := by omega
      refine ⟨?_, by omega, rfl⟩
      simp [hlong]
  | true =>
      simp only [startCode, List.length_append, List.length_drop, List.length_cons, if_true,
        List.length_nil] at hlength ⊢
      have hlong : i + 4 ≤ buf.length := by omega
      refine ⟨?_, hlong, rfl⟩
      simp [hlong]

/-- No start code begins in a unit. -/
theorem NalUnit.not_end {unit : List UInt8} (h : NalUnit unit) {suffix rest : List UInt8}
    (hsuffix : suffix <:+ unit) (hsome : suffix ≠ []) :
    ¬ ([0, 0, 1] <+: suffix ++ rest ∨ [0, 0, 0, 1] <+: suffix ++ rest) := by
  have hlast : suffix.getLast? ≠ some 0 := by
    intro heq
    refine h.trailing ?_
    obtain ⟨before, rfl⟩ := hsuffix
    rw [List.getLast?_append, heq]
    rfl
  have hinner : ∀ pattern, pattern <+: suffix → pattern <:+: unit :=
    fun pattern hpattern => hpattern.isInfix.trans hsuffix.isInfix
  match suffix with
  | [] => exact absurd rfl hsome
  | [a] =>
      have ha : a ≠ 0 := by simpa using hlast
      simp [Ne.symm ha]
  | [a, b] =>
      have hb : b ≠ 0 := by simpa using hlast
      simp [Ne.symm hb]
  | a :: b :: c :: tail =>
      rintro (hcode | hcode)
      · obtain ⟨rfl, rfl, rfl⟩ : 0 = a ∧ 0 = b ∧ 1 = c := by simpa using hcode
        exact h.code (hinner _ (by simp))
      · obtain ⟨rfl, rfl, rfl, _⟩ : 0 = a ∧ 0 = b ∧ 0 = c ∧ _ := by simpa using hcode
        exact h.zeros (hinner _ (by simp))

/-- The unit ends at the next start code, or with the buffer. -/
theorem scan_end_unit {buf unit : List UInt8} {start : Nat} (hunit : NalUnit unit)
    {parts : List (Bool × List UInt8)} (h : buf.drop start = unit ++ joined parts) :
    (scan buf endsAt start).getD buf.length = start + unit.length := by
  have hpos := List.length_pos_iff.mpr hunit.nonempty
  have hlength := congrArg List.length h
  rw [List.length_drop, List.length_append] at hlength
  have hinside : ∀ j, start ≤ j → j < start + unit.length → endsAt buf j = false := by
    intro j hstart hend
    obtain ⟨k, rfl⟩ := Nat.exists_eq_add_of_le hstart
    rw [← Bool.not_eq_true, ends_at_iff, ← List.drop_drop, h, List.drop_append_of_le_length (by omega)]
    refine hunit.not_end (List.drop_suffix k unit) ?_
    rw [ne_eq, List.drop_eq_nil_iff]
    omega
  cases parts with
  | nil =>
      have hnone : scan buf endsAt start = none := by
        rw [scan_none_iff]
        intro i hstart hi
        simp only [joined, List.flatMap_nil, List.length_nil] at hlength
        exact hinside i hstart (by omega)
      rw [hnone, Option.getD_none]
      simp only [joined, List.flatMap_nil, List.length_nil] at hlength
      omega
  | cons part parts =>
      have hdrop : buf.drop (start + unit.length) = startCode part.1 ++ (part.2 ++ joined parts) := by
        rw [← List.drop_drop, h, List.drop_left, joined, List.flatMap_cons, List.append_assoc]
        rfl
      have hsome : scan buf endsAt start = some (start + unit.length) := by
        rw [scan_some_iff]
        refine ⟨Nat.le_add_right _ _, ?_, ?_, hinside⟩
        · have hcode := congrArg List.length hdrop
          have hthree : 3 ≤ (startCode part.1).length := by cases part.1 <;> decide
          rw [List.length_drop, List.length_append] at hcode
          omega
        · rw [ends_at_iff, hdrop]
          cases part.1 with
          | false => exact .inl (List.prefix_append _ _)
          | true => exact .inr (List.prefix_append _ _)
      rw [hsome, Option.getD_some]

theorem split_joined_from {parts : List (Bool × List UInt8)}
    (hunits : ∀ part ∈ parts, NalUnit part.2) {maxNals : Nat} (hcount : parts.length ≤ maxNals)
    {buf : List UInt8} {pos : Nat} (h : buf.drop pos = joined parts) :
    annexbSplitFrom buf maxNals pos = parts.map Prod.snd := by
  induction parts generalizing maxNals pos with
  | nil =>
      have hlength : buf.length ≤ pos := List.drop_eq_nil_iff.mp h
      cases maxNals with
      | zero => rfl
      | succ maxNals => rw [annexbSplitFrom, if_neg (by omega), List.map_nil]
  | cons part parts ih =>
      obtain ⟨hunit, hlater⟩ := List.forall_mem_cons.mp hunits
      cases maxNals with
      | zero => simp at hcount
      | succ maxNals =>
          have hparts : buf.drop pos = startCode part.1 ++ (part.2 ++ joined parts) := by
            rw [h, joined, List.flatMap_cons, List.append_assoc]
            rfl
          obtain ⟨hcode, hlength, hwidth⟩ := start_code_at_code hunit.nonempty hparts
          have hscan : scan buf startCodeAt pos = some pos :=
            scan_some_iff.mpr ⟨Nat.le_refl pos, by omega, hcode, fun j hle hlt => by omega⟩
          have hrest : buf.drop (pos + (startCode part.1).length) = part.2 ++ joined parts := by
            rw [← List.drop_drop, hparts, List.drop_left]
          have hend := scan_end_unit hunit hrest
          have hpos := List.length_pos_iff.mpr hunit.nonempty
          have hnext : buf.drop (pos + (startCode part.1).length + part.2.length) =
              joined parts := by
            rw [← List.drop_drop, hrest, List.drop_left]
          rw [annexbSplitFrom, if_pos hlength, hscan]
          simp only [hwidth, hend]
          rw [if_neg (by omega), hrest, Nat.add_sub_cancel_left, List.take_left,
            ih hlater (by simpa using hcount) hnext, List.map_cons]

/-- Joined units are split into the units, and of any buffer the split reads only bytes inside it
and returns views that are not empty, in order and disjoint. -/
theorem annexb_split_exact {parts : List (Bool × List UInt8)} {maxNals : Nat}
    (hunits : ∀ part ∈ parts, NalUnit part.2) (hcount : parts.length ≤ maxNals) :
    (∃ views, splitViews (joined parts) maxNals = some views ∧
      views.map (NalView.bytes (joined parts)) = parts.map Prod.snd) ∧
    ∀ buf maxNals, ∃ views, splitViews buf maxNals = some views ∧ Views buf 0 views ∧
      views.length ≤ maxNals ∧ views.map (NalView.bytes buf) = annexbSplit buf maxNals := by
  have hall : ∀ buf maxNals, ∃ views, splitViews buf maxNals = some views ∧ Views buf 0 views ∧
      views.length ≤ maxNals ∧ views.map (NalView.bytes buf) = annexbSplit buf maxNals :=
    fun buf maxNals => split_views_from_inside buf maxNals 0
  refine ⟨?_, hall⟩
  obtain ⟨views, hviews, _, _, hbytes⟩ := hall (joined parts) maxNals
  exact ⟨views, hviews, hbytes.trans (split_joined_from hunits hcount rfl)⟩

/-- A unit of one byte after a short code, and one with zeros in it. -/
theorem annexb_split_exact_short :
    (∃ views, splitViews (joined [(false, [0x09]), (true, [0x00, 0x00, 0x02])]) 2 = some views ∧
      views.map (NalView.bytes (joined [(false, [0x09]), (true, [0x00, 0x00, 0x02])])) =
        [[0x09], [0x00, 0x00, 0x02]]) ∧
    ∀ buf maxNals, ∃ views, splitViews buf maxNals = some views ∧ Views buf 0 views ∧
      views.length ≤ maxNals ∧ views.map (NalView.bytes buf) = annexbSplit buf maxNals := by
  refine annexb_split_exact ?_ (Nat.le_refl 2)
  simp only [List.forall_mem_cons]
  exact ⟨⟨by decide, by decide, by decide, by decide⟩, ⟨by decide, by decide, by decide, by decide⟩,
    by simp⟩

end NanoKvm.Rtp
