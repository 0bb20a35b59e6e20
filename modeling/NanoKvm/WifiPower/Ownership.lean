import Mathlib.Data.List.Infix
import Mathlib.Tactic.Tauto
import NanoKvm.WifiPower.Protocol

/-!
# What the two sides may do to the lines

`Valid` is the invariant of the lines and the logs. The requests are numbered from one on;
each is composed, copied, committed and applied before the next one is composed, so at most
one of them is not applied yet. A request line that Linux is copying to keeps the words of
the request before it, or of an earlier generation, until they are overwritten, and a
completion line keeps the words of the answer before it; the invariant has the lines found
at the start as parameters.
-/

namespace NanoKvm.WifiPower

open Exec

/-! ## The invariant -/

/-- The committed request with a number. -/
def command (generation : UInt32) (number : Nat) (enabled : Bool) : Record :=
  (requestRecord generation (.ofNat number) enabled).committed

/-- The request line before the next request is copied to it. -/
def previousLine (leftover : Line) (committed : List Record) : Line :=
  match committed.getLast? with
  | none => leftover
  | some record => record.line

/-- The last committed request has been applied, and its value was read back. -/
def Shared.Done (s : Shared) : Prop :=
  s.applied.length = s.committed.length ∧ ∃ record, s.applied.getLast? = some (record, true)

/-- No part of the first request of the generation makes the leftover line acceptable. -/
def Harmless (generation : UInt32) (leftover : Line) : Prop :=
  ∀ copied, rejected (Record.ofWords
    (leftover.splice (requestRecord generation 1 false).line copied).word) generation 0 = true

/-- The leftover completion line cannot pass for an answer to the first request. -/
def Unambiguous (answer : Words) : Prop :=
  ¬ (answer commitIndex = 1 ∧ answer enabledIndex = 0)

/-- The invariant of the lines and the logs. -/
structure Shared.Valid (generation : UInt32) (leftover : Line) (answer : Words) (s : Shared) :
    Prop where
  applied : s.applied.map Prod.fst <+: s.committed
  committed : s.committed <+: s.begun
  outstanding : s.begun.length ≤ s.applied.length + 1
  published : s.published ≤ s.applied.length
  unpublished : s.applied.length ≤ s.published + 1
  bounded : s.begun.length < 2 ^ 32
  numbered : ∀ index record, s.begun[index]? = some record →
    ∃ enabled, record = command generation (index + 1) enabled ∧ (index = 0 → enabled = false)
  idle : s.begun = s.committed → s.request = previousLine leftover s.committed
  copying : ∀ enabled, s.begun = s.committed ++
      [command generation (s.committed.length + 1) enabled] →
    s.request = (previousLine leftover s.committed).splice
      (requestRecord generation (.ofNat (s.committed.length + 1)) enabled).line s.copied
  untouched : s.applied = [] → s.completion = answer
  fresh : s.applied ≠ [] → s.applied.length < s.begun.length →
    (s.completion commitIndex).toNat ≤ s.applied.length
  unfinished : ∀ record, s.committed.getLast? = some record → ¬ s.Done →
    s.completion commitIndex = record.sequence → s.completion enabledIndex ≠ record.enabled

/-- What the driver may do. A call that succeeds has had its value applied and read back. -/
def LinuxAllowed (generation : UInt32) (s : Shared) : LinuxOp → Prop
  | .newDriver => s.begun = []
  | .compose record => s.fault = none ∧ s.begun = s.committed ∧
      s.applied.length = s.committed.length ∧ s.begun.length + 1 < 2 ^ 32 ∧
      (∃ enabled, record = command generation (s.begun.length + 1) enabled ∧
        (s.begun = [] → enabled = false)) ∧
      (s.applied ≠ [] → (s.completion commitIndex).toNat ≤ s.applied.length)
  | .store line offset _ => s.fault = none ∧ offset = s.copied ∧ ∃ enabled,
      s.begun = s.committed ++ [command generation (s.committed.length + 1) enabled] ∧
      line = (requestRecord generation (.ofNat (s.committed.length + 1)) enabled).line
  | .writeCommit record => s.fault = none ∧ s.copied = 64 ∧ s.begun = s.committed ++ [record]
  | .returned sequence enabled none =>
      s.applied.map Prod.fst = s.committed ∧ ∃ record,
        s.applied.getLast? = some (record, true) ∧ record.sequence = sequence ∧
        record.enabled = enabledWord enabled
  | _ => True

/-- What the power service may do. It applies the one request that is committed and not applied. -/
def FirmwareAllowed (s : Shared) : FirmwareOp → Prop
  | .apply record => s.published = s.applied.length ∧
      s.committed = s.applied.map Prod.fst ++ [record]
  | .writeCompletion index word => s.published < s.applied.length ∧
      (index = enabledIndex → word = maxWord ∨
        ∃ record, s.applied.getLast? = some (record, true)) ∧
      (index = commitIndex → word = 0)
  | .publish sequence => s.published < s.applied.length ∧
      sequence.toNat = s.applied.length ∧
      ∀ record, s.applied.getLast? = some (record, false) →
        s.completion enabledIndex = maxWord
  | _ => True

/-- What the driver knows of the steps of the power service. -/
structure LinuxRely (generation : UInt32) (leftover : Line) (answer : Words)
    (s next : Shared) : Prop where
  request : next.request = s.request
  begun : next.begun = s.begun
  copied : next.copied = s.copied
  committed : next.committed = s.committed
  fault : next.fault = s.fault
  applied : s.applied.length ≤ next.applied.length
  published : s.published ≤ next.published
  done : s.Done → next.Done
  result : s.Valid generation leftover answer → s.committed.length ≤ s.published + 1 →
    ∀ record, s.committed.getLast? = some record →
      s.completion enabledIndex ≠ record.enabled →
      next.Done ∨ next.completion enabledIndex ≠ record.enabled
  commit : next.completion commitIndex = s.completion commitIndex ∨
    (next.completion commitIndex).toNat ≤ next.applied.length
  valid : s.Valid generation leftover answer → next.Valid generation leftover answer

/-- What the power service knows of the steps of the driver. -/
structure FirmwareRely (generation : UInt32) (leftover : Line) (answer : Words)
    (s next : Shared) : Prop where
  completion : next.completion = s.completion
  applied : next.applied = s.applied
  published : next.published = s.published
  begun : s.begun <+: next.begun
  committed : s.committed <+: next.committed
  copied : s.begun.length = next.begun.length → s.copied ≤ next.copied
  valid : s.Valid generation leftover answer → next.Valid generation leftover answer

/-- The machine of the driver. -/
def linuxMachine (generation : UInt32) (leftover : Line) (answer : Words) :
    Machine LinuxOp LinuxOp.Ret Shared where
  perform := Shared.LinuxPerforms
  interfere := LinuxRely generation leftover answer

/-- The machine of the power service. -/
def firmwareMachine (generation : UInt32) (leftover : Line) (answer : Words) :
    Machine FirmwareOp FirmwareOp.Ret Shared where
  perform := Shared.FirmwarePerforms
  interfere := FirmwareRely generation leftover answer

/-! ## Commands -/

theorem command_sequence {number : Nat} (h : number < 2 ^ 32) (generation : UInt32)
    (enabled : Bool) : (command generation number enabled).sequence.toNat = number := by
  show (UInt32.ofNat number).toNat = number
  rw [UInt32.toNat_ofNat', Nat.mod_eq_of_lt h]

theorem enabled_word_ne_max (enabled : Bool) : enabledWord enabled ≠ maxWord := by
  cases enabled <;> decide

/-- An uncommitted request with its commit is the command. -/
theorem request_committed (generation : UInt32) (number : Nat) (enabled : Bool) :
    (requestRecord generation (.ofNat number) enabled).committed =
      command generation number enabled := rfl

theorem previous_line_nil (leftover : Line) : previousLine leftover [] = leftover := rfl

theorem previous_line_append (leftover : Line) (committed : List Record) (record : Record) :
    previousLine leftover (committed ++ [record]) = record.line := by
  unfold previousLine
  rw [List.getLast?_concat]

section

variable {generation : UInt32} {leftover : Line} {answer : Words} {s : Shared}

/-- The lengths of the logs. -/
theorem valid_lengths (h : s.Valid generation leftover answer) :
    s.applied.length ≤ s.committed.length ∧ s.committed.length ≤ s.begun.length := by
  have happlied := h.applied.length_le
  rw [List.length_map] at happlied
  exact ⟨happlied, h.committed.length_le⟩

/-- Once as many are applied as committed, the logs are the same. -/
theorem applied_eq (h : s.Valid generation leftover answer)
    (hlength : s.applied.length = s.committed.length) :
    s.applied.map Prod.fst = s.committed :=
  h.applied.eq_of_length (by rw [List.length_map, hlength])

/-- Every request composed is committed, or the last one is being copied. -/
theorem begun_cases (h : s.Valid generation leftover answer) : s.begun = s.committed ∨
    s.applied.length = s.committed.length ∧ ∃ enabled,
      s.begun = s.committed ++ [command generation (s.committed.length + 1) enabled] ∧
      (s.committed = [] → enabled = false) := by
  obtain ⟨hleft, _⟩ := valid_lengths h
  have houtstanding := h.outstanding
  have hnumbered := h.numbered
  obtain ⟨rest, hrest⟩ := h.committed
  rw [← hrest] at houtstanding hnumbered ⊢
  match rest with
  | [] => exact .inl (List.append_nil _)
  | [record] =>
      rw [List.length_append, List.length_singleton] at houtstanding
      obtain ⟨enabled, hrecord, hfirst⟩ := hnumbered s.committed.length record (by simp)
      refine .inr ⟨by omega, enabled, by rw [hrecord], ?_⟩
      intro hnil
      exact hfirst (by rw [hnil]; rfl)
  | _ :: _ :: _ =>
      simp only [List.length_append, List.length_cons] at houtstanding
      omega

/-- The last committed request has the number of the committed requests. -/
theorem last_command (h : s.Valid generation leftover answer) {record : Record}
    (hlast : s.committed.getLast? = some record) :
    ∃ enabled, record = command generation s.committed.length enabled ∧
      (s.committed.length = 1 → enabled = false) := by
  obtain ⟨init, hinit⟩ := List.getLast?_eq_some_iff.1 hlast
  obtain ⟨rest, hrest⟩ := h.committed
  have hindex : s.begun[init.length]? = some record := by
    rw [← hrest, hinit]
    simp
  obtain ⟨enabled, hrecord, hfirst⟩ := h.numbered init.length record hindex
  have hlength : s.committed.length = init.length + 1 := by
    rw [hinit, List.length_append, List.length_singleton]
  rw [hlength]
  exact ⟨enabled, hrecord, fun hone => hfirst (by omega)⟩

/-- The sequence of the last committed request. -/
theorem last_sequence (h : s.Valid generation leftover answer) {record : Record}
    (hlast : s.committed.getLast? = some record) :
    record.sequence.toNat = s.committed.length ∧ record.enabled ≠ maxWord := by
  obtain ⟨enabled, hrecord, _⟩ := last_command h hlast
  have hle := (valid_lengths h).2
  have hbounded := h.bounded
  rw [hrecord]
  exact ⟨command_sequence (by omega) generation enabled, enabled_word_ne_max enabled⟩

/-! ## Allowed operations of the driver keep the invariant -/

/-- The power value of a command is determined by it. -/
theorem command_inj {number : Nat} {enabled other : Bool}
    (h : command generation number enabled = command generation number other) :
    enabled = other := by
  have hword : enabledWord enabled = enabledWord other := congrArg Record.enabled h
  revert hword
  cases enabled <;> cases other <;> decide

theorem valid_compose (h : s.Valid generation leftover answer) {record : Record}
    (hallowed : LinuxAllowed generation s (.compose record)) :
    (s.compose record).Valid generation leftover answer := by
  obtain ⟨_, hbegun, hlength, hbounded, ⟨enabled, hrecord, hfirst⟩, hfresh⟩ := hallowed
  have hnext : (s.compose record).begun = s.committed ++ [record] := by
    rw [← hbegun]
    rfl
  refine { h with
    committed := h.committed.trans (List.prefix_append _ _), outstanding := ?_, bounded := ?_
    numbered := ?_, idle := ?_, copying := ?_, fresh := fun hnone _ => hfresh hnone }
  · show (s.compose record).begun.length ≤ s.applied.length + 1
    rw [hnext, List.length_append, List.length_singleton, hlength]
  · rw [hnext, List.length_append, List.length_singleton, ← hbegun]
    exact hbounded
  · intro index other hother
    rw [hnext, ← hbegun] at hother
    rcases Nat.lt_or_ge index s.begun.length with hlt | hge
    · rw [List.getElem?_append_left hlt] at hother
      exact h.numbered index other hother
    · rw [List.getElem?_append_right hge, List.getElem?_singleton] at hother
      split at hother
      · have hindex : index = s.begun.length := by omega
        cases hother
        rw [hindex]
        exact ⟨enabled, hrecord, fun hzero => hfirst (List.length_eq_zero_iff.1 hzero)⟩
      · cases hother
  · intro heq
    have hlengths := congrArg List.length (hnext.symm.trans heq)
    have hsame : (s.compose record).committed = s.committed := rfl
    rw [hsame, List.length_append, List.length_singleton] at hlengths
    omega
  · intro other _
    show s.request = (previousLine leftover s.committed).splice _ 0
    rw [splice_zero]
    exact h.idle hbegun

/-- One more store of the copy. -/
theorem splice_store (old new : Line) (offset width : Nat) :
    (fun index : Fin 64 => if offset ≤ index.val ∧ index.val < offset + width then new index
      else old.splice new offset index) = old.splice new (offset + width) := by
  funext index
  unfold Line.splice
  split
  · rename_i hin
    rw [if_pos hin.2]
  · split
    · rename_i hlt
      rw [if_pos (by omega)]
    · rw [if_neg (by omega)]

theorem valid_store (h : s.Valid generation leftover answer) {line : Line} {offset width : Nat}
    (hallowed : LinuxAllowed generation s (.store line offset width)) :
    (s.store line offset width).Valid generation leftover answer := by
  obtain ⟨_, hoffset, enabled, hbegun, hline⟩ := hallowed
  refine { h with idle := ?_, copying := ?_ }
  · intro heq
    have hsame : s.begun = s.committed := heq
    have hlengths := congrArg List.length (hbegun.symm.trans hsame)
    rw [List.length_append, List.length_singleton] at hlengths
    omega
  · intro other hother
    have hcommand : s.committed ++ [command generation (s.committed.length + 1) enabled] =
        s.committed ++ [command generation (s.committed.length + 1) other] :=
      hbegun.symm.trans hother
    have henabled : enabled = other := by
      have hlast := List.append_cancel_left hcommand
      simp only [List.cons.injEq, and_true] at hlast
      exact command_inj hlast
    have hrequest := h.copying enabled hbegun
    show (s.store line offset width).request = (previousLine leftover s.committed).splice
      (requestRecord generation (.ofNat (s.committed.length + 1)) other).line (offset + width)
    rw [← henabled, ← splice_store, ← hline]
    rw [← hline, ← hoffset] at hrequest
    rw [← hrequest]
    rfl

/-- The line of a copied request with its commit. -/
theorem commit_line (record : Record) :
    (fun index : Fin 64 => if index.val < 60 then record.line index
      else record.committed.line index) = record.committed.line := by
  funext index
  split
  · rename_i hlt
    exact (committed_line record hlt).symm
  · rfl

/-- The answer to the next request is not there yet. -/
theorem unanswered (hanswer : Unambiguous answer) (h : s.Valid generation leftover answer)
    {enabled : Bool} (hbegun : s.begun.length = s.committed.length + 1)
    (hlength : s.applied.length = s.committed.length)
    (hfirst : s.committed = [] → enabled = false)
    (hcommit : s.completion commitIndex =
      (command generation (s.committed.length + 1) enabled).sequence) :
    s.completion enabledIndex ≠ enabledWord enabled := by
  intro henabled
  have hbounded := h.bounded
  have hsequence := command_sequence (show s.committed.length + 1 < 2 ^ 32 by omega)
    generation enabled
  by_cases happlied : s.applied = []
  · have hnil : s.committed = [] := by
      apply List.length_eq_zero_iff.1
      rw [← hlength, happlied, List.length_nil]
    rw [h.untouched happlied] at hcommit henabled
    rw [hnil] at hcommit
    rw [hfirst hnil] at henabled
    exact hanswer ⟨hcommit, henabled⟩
  · have hfresh := h.fresh happlied (by omega)
    rw [hcommit, hsequence] at hfresh
    omega

theorem valid_write_commit (hanswer : Unambiguous answer)
    (h : s.Valid generation leftover answer) {record : Record}
    (hallowed : LinuxAllowed generation s (.writeCommit record)) :
    (s.writeCommit record).Valid generation leftover answer := by
  obtain ⟨_, hcopied, hbegun⟩ := hallowed
  obtain hidle | ⟨hlength, enabled, hcommand, hfirst⟩ := begun_cases h
  · have hlengths := congrArg List.length (hbegun.symm.trans hidle)
    rw [List.length_append, List.length_singleton] at hlengths
    omega
  have hrecord : record = command generation (s.committed.length + 1) enabled := by
    have hlast := List.append_cancel_left (hbegun.symm.trans hcommand)
    simp only [List.cons.injEq, and_true] at hlast
    exact hlast
  have hbegunLength : s.begun.length = s.committed.length + 1 := by
    rw [hbegun, List.length_append, List.length_singleton]
  have hnext : (s.writeCommit record).committed = s.begun := hbegun.symm
  refine { h with
    applied := h.applied.trans (List.prefix_append _ _), committed := ?_, idle := ?_
    copying := ?_, unfinished := ?_ }
  · rw [hnext]
    exact List.prefix_rfl
  · intro _
    have hrequest := h.copying enabled hcommand
    rw [hcopied, splice_all] at hrequest
    show (fun index : Fin 64 => if index.val < 60 then s.request index else record.line index) =
      previousLine leftover (s.committed ++ [record])
    rw [previous_line_append, hrequest, hrecord]
    exact commit_line _
  · intro other hother
    have hlengths : s.begun.length = s.begun.length + 1 := by
      have hall := congrArg List.length hother
      rwa [List.length_append, List.length_singleton, hnext] at hall
    omega
  · intro last hlast _ hcommit
    have hlast : (s.committed ++ [record]).getLast? = some last := hlast
    rw [List.getLast?_concat] at hlast
    cases hlast
    rw [hrecord] at hcommit ⊢
    exact unanswered hanswer h hbegunLength hlength hfirst hcommit

/-- Allowed operations of the driver keep the invariant. -/
theorem valid_linux (hanswer : Unambiguous answer) (h : s.Valid generation leftover answer)
    {operation : LinuxOp} (hallowed : LinuxAllowed generation s operation)
    {result : operation.Ret} {next : Shared}
    (hnext : s.LinuxPerforms operation result next) :
    next.Valid generation leftover answer := by
  cases operation with
  | newDriver | recordFault =>
      cases (show next = _ from hnext)
      exact { h with }
  | compose record =>
      cases (show next = _ from hnext)
      exact valid_compose h hallowed
  | store line offset width =>
      cases (show next = _ from hnext)
      exact valid_store h hallowed
  | writeCommit record =>
      cases (show next = _ from hnext)
      exact valid_write_commit hanswer h hallowed
  | loadRequest | loadCompletion | split =>
      rw [hnext.2]
      exact h
  | nextCall | turns | generationValid | returned =>
      rw [show next = s from hnext]
      exact h

/-! ## Allowed operations of the power service keep the invariant -/

theorem valid_apply (h : s.Valid generation leftover answer) {record : Record}
    (hallowed : FirmwareAllowed s (.apply record)) (succeeded : Bool) :
    (s.apply record succeeded).Valid generation leftover answer := by
  obtain ⟨hpublished, hcommitted⟩ := hallowed
  have hmap : (s.apply record succeeded).applied.map Prod.fst = s.committed := by
    rw [hcommitted]
    simp [Shared.apply]
  have hlength : (s.apply record succeeded).applied.length = s.applied.length + 1 := by
    simp [Shared.apply]
  have hcommittedLength : s.committed.length = s.applied.length + 1 := by
    rw [hcommitted, List.length_append, List.length_map, List.length_singleton]
  have houtstanding := h.outstanding
  have hsome : (s.apply record succeeded).applied ≠ [] := by
    intro hnil
    rw [hnil, List.length_nil] at hlength
    omega
  refine { h with
    applied := ?_, outstanding := ?_, published := ?_, unpublished := ?_
    untouched := fun hnil => absurd hnil hsome, fresh := ?_, unfinished := ?_ }
  · rw [hmap]
    exact List.prefix_rfl
  · show s.begun.length ≤ (s.apply record succeeded).applied.length + 1
    omega
  · show s.published ≤ (s.apply record succeeded).applied.length
    omega
  · show (s.apply record succeeded).applied.length ≤ s.published + 1
    omega
  · intro _ hlt
    have hlt : (s.apply record succeeded).applied.length < s.begun.length := hlt
    omega
  · intro last hlast _ hcommit
    refine h.unfinished last hlast (fun hdone => ?_) hcommit
    have hall := hdone.1
    omega

/-- While an answer is being written the service has something to answer. -/
theorem applied_ne_nil (h : s.published < s.applied.length) : s.applied ≠ [] := by
  intro hnil
  rw [hnil, List.length_nil] at h
  omega

/-- The commit of an answer can only be that of the last committed request if this is the last
applied one. -/
theorem all_applied (h : s.Valid generation leftover answer) {record : Record}
    (hanswering : s.published < s.applied.length)
    (hlast : s.committed.getLast? = some record)
    (hcommit : s.completion commitIndex = record.sequence) :
    s.applied.length = s.committed.length := by
  obtain ⟨hle, hbegun⟩ := valid_lengths h
  by_contra hne
  have hfresh := h.fresh (applied_ne_nil hanswering) (by omega)
  rw [hcommit, (last_sequence h hlast).1] at hfresh
  omega

theorem valid_write_completion (h : s.Valid generation leftover answer) {index : Fin 16}
    {word : UInt32} (hallowed : FirmwareAllowed s (.writeCompletion index word)) :
    (s.writeCompletion index word).Valid generation leftover answer := by
  obtain ⟨hanswering, henabled, hrevoked⟩ := hallowed
  refine { h with
    untouched := fun hnil => absurd hnil (applied_ne_nil hanswering), fresh := ?_
    unfinished := ?_ }
  · intro hnone hlt
    show (Function.update s.completion index word commitIndex).toNat ≤ s.applied.length
    by_cases hindex : index = commitIndex
    · rw [hindex, Function.update_self, hrevoked hindex]
      exact Nat.zero_le _
    · rw [Function.update_of_ne (Ne.symm hindex)]
      exact h.fresh hnone hlt
  · intro record hlast hopen hcommit
    have hcommit : Function.update s.completion index word commitIndex = record.sequence :=
      hcommit
    have hlast : s.committed.getLast? = some record := hlast
    obtain ⟨hsequence, hmax⟩ := last_sequence h hlast
    have hpositive : 0 < s.committed.length := by
      obtain ⟨init, hinit⟩ := List.getLast?_eq_some_iff.1 hlast
      rw [hinit, List.length_append, List.length_singleton]
      omega
    show Function.update s.completion index word enabledIndex ≠ record.enabled
    by_cases hindex : index = commitIndex
    · -- The commit is revoked, and no request has the sequence zero.
      rw [hindex, Function.update_self, hrevoked hindex] at hcommit
      rw [← hcommit] at hsequence
      have hzero : (0 : UInt32).toNat = 0 := rfl
      omega
    · rw [Function.update_of_ne (Ne.symm hindex)] at hcommit
      by_cases hvalue : index = enabledIndex
      · rw [hvalue, Function.update_self]
        rcases henabled hvalue with hword | ⟨other, hother⟩
        · rw [hword]
          exact Ne.symm hmax
        · have hall := all_applied h hanswering hlast hcommit
          exact absurd ⟨hall, other, hother⟩ hopen
      · rw [Function.update_of_ne (Ne.symm hvalue)]
        exact h.unfinished record hlast hopen hcommit

theorem valid_publish (h : s.Valid generation leftover answer) {sequence : UInt32}
    (hallowed : FirmwareAllowed s (.publish sequence)) :
    (s.publish sequence).Valid generation leftover answer := by
  obtain ⟨hanswering, hsequence, hfailed⟩ := hallowed
  have hunpublished := h.unpublished
  have hsome := applied_ne_nil hanswering
  have hself : (s.publish sequence).completion commitIndex = sequence := by
    simp [Shared.publish]
  have hother : (s.publish sequence).completion enabledIndex = s.completion enabledIndex := by
    simp [Shared.publish, enabledIndex, commitIndex]
  refine { h with
    published := ?_, unpublished := ?_, untouched := fun hnil => absurd hnil hsome
    fresh := ?_, unfinished := ?_ }
  · show s.published + 1 ≤ s.applied.length
    omega
  · show s.applied.length ≤ s.published + 1 + 1
    omega
  · intro _ _
    rw [hself, hsequence]
    exact Nat.le_refl _
  · intro record hlast hopen hcommit
    have hlast : s.committed.getLast? = some record := hlast
    obtain ⟨hnumber, hmax⟩ := last_sequence h hlast
    rw [hself] at hcommit
    rw [hcommit, hnumber] at hsequence
    rw [hother]
    match hresult : s.applied.getLast? with
    | none => exact absurd (List.getLast?_eq_none_iff.1 hresult) hsome
    | some (other, true) => exact absurd ⟨hsequence.symm, other, hresult⟩ hopen
    | some (other, false) =>
        rw [hfailed other hresult]
        exact Ne.symm hmax

/-- Allowed operations of the power service keep the invariant. -/
theorem valid_firmware (h : s.Valid generation leftover answer) {operation : FirmwareOp}
    (hallowed : FirmwareAllowed s operation) {result : operation.Ret} {next : Shared}
    (hnext : s.FirmwarePerforms operation result next) :
    next.Valid generation leftover answer := by
  cases operation with
  | apply record =>
      cases (show next = _ from hnext)
      exact valid_apply h hallowed result
  | writeCompletion index word =>
      cases (show next = _ from hnext)
      exact valid_write_completion h hallowed
  | publish sequence =>
      cases (show next = _ from hnext)
      exact valid_publish h hallowed
  | loadRequest | arrange =>
      rw [hnext.2]
      exact h

/-! ## Allowed operations are within what the other side relies on -/

/-- The power service can rely on what the driver is allowed to do. -/
theorem linux_rely (hanswer : Unambiguous answer) {operation : LinuxOp}
    (hallowed : LinuxAllowed generation s operation) {result : operation.Ret} {next : Shared}
    (hnext : s.LinuxPerforms operation result next) :
    FirmwareRely generation leftover answer s next := by
  have hvalid : s.Valid generation leftover answer → next.Valid generation leftover answer :=
    fun h => valid_linux hanswer h hallowed hnext
  have hnothing : next = s → FirmwareRely generation leftover answer s next := by
    intro heq
    rw [heq] at hvalid ⊢
    exact ⟨rfl, rfl, rfl, List.prefix_rfl, List.prefix_rfl, fun _ => Nat.le_refl _, hvalid⟩
  cases operation with
  | newDriver | recordFault =>
      cases (show next = _ from hnext)
      exact ⟨rfl, rfl, rfl, List.prefix_rfl, List.prefix_rfl, fun _ => Nat.le_refl _, hvalid⟩
  | compose record =>
      cases (show next = _ from hnext)
      refine ⟨rfl, rfl, rfl, List.prefix_append _ _, List.prefix_rfl, ?_, hvalid⟩
      intro hlength
      have hgrown : (s.compose record).begun.length = s.begun.length + 1 := by
        simp [Shared.compose]
      omega
  | store line offset width =>
      cases (show next = _ from hnext)
      refine ⟨rfl, rfl, rfl, List.prefix_rfl, List.prefix_rfl, ?_, hvalid⟩
      intro _
      have hoffset := hallowed.2.1
      show s.copied ≤ offset + width
      omega
  | writeCommit record =>
      cases (show next = _ from hnext)
      exact ⟨rfl, rfl, rfl, List.prefix_rfl, List.prefix_append _ _, fun _ => Nat.le_refl _,
        hvalid⟩
  | loadRequest | loadCompletion | split => exact hnothing hnext.2
  | nextCall | turns | generationValid | returned => exact hnothing hnext

/-- A value other than that of the last request is written, or this request is done. -/
theorem write_completion_result (h : s.Valid generation leftover answer) {index : Fin 16}
    {word : UInt32} (hallowed : FirmwareAllowed s (.writeCompletion index word))
    (hcurrent : s.committed.length ≤ s.published + 1) {record : Record}
    (hlast : s.committed.getLast? = some record)
    (hvalue : s.completion enabledIndex ≠ record.enabled) :
    s.Done ∨ (s.writeCompletion index word).completion enabledIndex ≠ record.enabled := by
  obtain ⟨hanswering, henabled, _⟩ := hallowed
  show s.Done ∨ Function.update s.completion index word enabledIndex ≠ record.enabled
  by_cases hindex : index = enabledIndex
  · rcases henabled hindex with hword | ⟨other, hother⟩
    · right
      rw [hindex, Function.update_self, hword]
      exact Ne.symm (last_sequence h hlast).2
    · have hle := (valid_lengths h).1
      exact .inl ⟨by omega, other, hother⟩
  · right
    rw [Function.update_of_ne (Ne.symm hindex)]
    exact hvalue

/-- The driver can rely on what the power service is allowed to do. -/
theorem firmware_rely {operation : FirmwareOp} (hallowed : FirmwareAllowed s operation)
    {result : operation.Ret} {next : Shared} (hnext : s.FirmwarePerforms operation result next) :
    LinuxRely generation leftover answer s next := by
  have hvalid : s.Valid generation leftover answer → next.Valid generation leftover answer :=
    fun h => valid_firmware h hallowed hnext
  cases operation with
  | apply record =>
      cases (show next = _ from hnext)
      have hgrown : s.applied.length ≤ (s.apply record result).applied.length := by
        simp [Shared.apply]
      refine ⟨rfl, rfl, rfl, rfl, rfl, hgrown, Nat.le_refl _, ?_,
        fun _ _ _ _ hvalue => .inr hvalue, .inl rfl, hvalid⟩
      intro hdone
      have hall := hdone.1
      rw [hallowed.2, List.length_append, List.length_map, List.length_singleton] at hall
      omega
  | writeCompletion index word =>
      cases (show next = _ from hnext)
      refine ⟨rfl, rfl, rfl, rfl, rfl, Nat.le_refl _, Nat.le_refl _, id, ?_, ?_, hvalid⟩
      · intro h hcurrent record hlast hvalue
        exact write_completion_result h hallowed hcurrent hlast hvalue
      · show Function.update s.completion index word commitIndex = s.completion commitIndex ∨
          (Function.update s.completion index word commitIndex).toNat ≤ s.applied.length
        by_cases hindex : index = commitIndex
        · right
          rw [hindex, Function.update_self, hallowed.2.2 hindex]
          exact Nat.zero_le _
        · left
          exact Function.update_of_ne (Ne.symm hindex) _ _
  | publish sequence =>
      cases (show next = _ from hnext)
      refine ⟨rfl, rfl, rfl, rfl, rfl, Nat.le_refl _, Nat.le_succ _, id, ?_, ?_, hvalid⟩
      · intro _ _ record _ hvalue
        right
        show Function.update s.completion commitIndex sequence enabledIndex ≠ record.enabled
        rw [Function.update_of_ne (by decide)]
        exact hvalue
      · right
        show (Function.update s.completion commitIndex sequence commitIndex).toNat ≤
          s.applied.length
        rw [Function.update_self, hallowed.2.1]
  | loadRequest | arrange =>
      have heq := hnext.2
      rw [heq] at hvalid ⊢
      exact ⟨rfl, rfl, rfl, rfl, rfl, Nat.le_refl _, Nat.le_refl _, id,
        fun _ _ _ _ hvalue => .inr hvalue, .inl rfl, hvalid⟩

end

end NanoKvm.WifiPower
