import Mathlib.Data.List.Chain
import NanoKvm.Peripherals.Rng

/-!
# The generator over its lifetimes

The core calls `init`, then `read` as often as it likes, then `cleanup`, and starts again. A
lifetime goes from one `init` to the next. `rng_fails_closed` says where the bytes of a lifetime
come from, and that after a failure there are none.
-/

namespace NanoKvm.Rng

open Exec

/-- The calls of the hwrng core. -/
inductive Call where
  | init | cleanup
  | read (max : Nat) (wait : Bool)
  deriving DecidableEq, Repr

/-- A call with what it did and what it returned. -/
structure Record where
  call : Call
  events : List IoEvent
  result : Except Int (List UInt8)

/-- The bytes that a call returned. -/
def Record.bytes (record : Record) : List UInt8 :=
  match record.result with
  | .ok bytes => bytes
  | .error _ => []

/-- The block that a call generated, if it succeeded. -/
def Record.block (record : Record) : List UInt32 :=
  match record.result with
  | .ok _ => wordsRead record.events
  | .error _ => []

/-- The call failed. -/
def Record.Failed (record : Record) : Prop := ∃ ret, record.result = .error ret

/-- What an `init` returns. -/
def outcome (ret : Int) : Except Int (List UInt8) := if ret = 0 then .ok [] else .error ret

/-- The driver, and whether the core may call `read` and `cleanup`. -/
structure Device where
  priv : Priv
  live : Bool

/-- The runs of the core, whatever the registers return. -/
inductive Run : List Record → Device → Prop where
  | start : Run [] ⟨allocated, false⟩
  | init {records : List Record} {priv after : Priv} {events : List IoEvent} {ret : Int}
      (h : Run records ⟨priv, false⟩) (hinit : (Rng.init priv).Trace events (ret, after)) :
      Run (records ++ [⟨.init, events, outcome ret⟩]) ⟨after, decide (ret = 0)⟩
  | read {records : List Record} {priv after : Priv} {events : List IoEvent} {max : Nat}
      {wait : Bool} {result : Except Int (List UInt8)} (h : Run records ⟨priv, true⟩)
      (hread : (Rng.read priv max wait).Trace events (result, after)) :
      Run (records ++ [⟨.read max wait, events, result⟩]) ⟨after, true⟩
  | cleanup {records : List Record} {priv after : Priv} {events : List IoEvent}
      (h : Run records ⟨priv, true⟩) (hcleanup : (Rng.cleanup priv).Trace events after) :
      Run (records ++ [⟨.cleanup, events, .ok []⟩]) ⟨after, false⟩

/-- The calls since the last `init`. -/
def lifetime (records : List Record) : List Record :=
  records.foldl (fun current record =>
    if record.call = .init then [record] else current ++ [record]) []

/-- The blocks that were generated, in order. -/
def blocks (records : List Record) : List (List UInt32) :=
  (records.map Record.block).filter (· ≠ [])

/-- The bytes that were returned, in order. -/
def returned (records : List Record) : List UInt8 := records.flatMap Record.bytes

/-- The bytes of the generated blocks. -/
def generated (records : List Record) : List UInt8 := bytesOf (blocks records).flatten

/-- A successful call that read a block generated it with all five commands. -/
def Sound (record : Record) : Prop :=
  record.block ≠ [] → ∃ setup rest block, record.events = setup ++ rest ∧
    Generation rest block ∧ record.block = block.toList

/-- What holds between two calls. -/
structure Inv (records : List Record) (device : Device) : Prop where
  sound : ∀ record ∈ records, Sound record
  chain : (blocks (lifetime records)).IsChain (· ≠ ·)
  order : returned (lifetime records) <+: generated (lifetime records)
  ready : device.live = true → device.priv.failed = false →
    device.priv.havePrevious = true ∧ device.priv.previous = device.priv.data ∧
    (blocks (lifetime records)).getLast? = some device.priv.data.toList ∧
    device.priv.available ≤ 16 ∧
    returned (lifetime records) ++ (bytesOf device.priv.data.toList).drop
      (16 - device.priv.available) = generated (lifetime records)
  closed : device.live = false ∨ device.priv.failed = true → device.priv.data = zeros
  clocks : clocks (records.flatMap Record.events) = if device.live then 1 else 0

section

variable {records : List Record} {record : Record}

theorem lifetime_init (hcall : record.call = .init) : lifetime (records ++ [record]) = [record] := by
  simp [lifetime, hcall]

theorem lifetime_other (hcall : record.call ≠ .init) :
    lifetime (records ++ [record]) = lifetime records ++ [record] := by
  simp [lifetime, hcall]

theorem blocks_quiet (hblock : record.block = []) : blocks (records ++ [record]) = blocks records := by
  simp [blocks, hblock]

theorem blocks_more (hblock : record.block ≠ []) :
    blocks (records ++ [record]) = blocks records ++ [record.block] := by
  simp [blocks, hblock]

theorem returned_append : returned (records ++ [record]) = returned records ++ record.bytes := by
  simp [returned]

theorem generated_quiet (hblock : record.block = []) :
    generated (records ++ [record]) = generated records := by
  rw [generated, blocks_quiet hblock, generated]

theorem bytes_of_append (first second : List UInt32) :
    bytesOf (first ++ second) = bytesOf first ++ bytesOf second :=
  List.flatMap_append

theorem generated_more (hblock : record.block ≠ []) :
    generated (records ++ [record]) = generated records ++ bytesOf record.block := by
  rw [generated, blocks_more hblock, List.flatten_append, bytes_of_append, generated]
  simp

theorem block_to_list_ne (block : Block) : block.toList ≠ [] := by
  intro h
  have := congrArg List.length h
  simp at this

theorem bytes_of_block_length (block : Block) : (bytesOf block.toList).length = 16 := by
  obtain ⟨⟨words⟩, hsize⟩ := block
  match words, hsize with
  | [_, _, _, _], _ => simp [bytesOf]

theorem clocks_records (h : clocks (records.flatMap Record.events) = total) :
    clocks ((records ++ [record]).flatMap Record.events) = total + clocks record.events := by
  rw [List.flatMap_append, clocks_append, h]
  simp

/-- A piece is taken off the front of what was left. -/
theorem take_left (priv : Priv) (max : Nat) (h : priv.available ≤ 16) :
    (priv.take max).1 ++ (bytesOf (priv.take max).2.data.toList).drop
        (16 - (priv.take max).2.available)
      = (bytesOf priv.data.toList).drop (16 - priv.available) := by
  have hlength := bytes_of_block_length priv.data
  have hskip : 16 - (priv.available - min max priv.available)
      = (16 - priv.available) + min max priv.available := by omega
  simp only [Priv.take]
  rw [hskip, ← List.drop_drop, List.take_append_drop]

theorem sound_append (h : ∀ record ∈ records, Sound record) (hnew : Sound record) :
    ∀ other ∈ records ++ [record], Sound other := by
  intro other hmem
  rcases List.mem_append.mp hmem with hmem | hmem
  · exact h other hmem
  · obtain rfl := List.mem_singleton.mp hmem
    exact hnew

theorem sound_of_quiet (h : record.block = []) : Sound record := fun hne => absurd h hne

end

/-! ## One call -/

section

variable {records : List Record} {priv after : Priv} {events : List IoEvent}

theorem inv_start : Inv [] ⟨allocated, false⟩ where
  sound := fun _ hmem => absurd hmem List.not_mem_nil
  chain := .nil
  order := List.prefix_rfl
  ready := fun hlive => absurd hlive Bool.false_ne_true
  closed := fun _ => rfl
  clocks := rfl

theorem inv_init {ret : Int} (h : Inv records ⟨priv, false⟩)
    (hinit : (init priv).Trace events (ret, after)) :
    Inv (records ++ [⟨.init, events, outcome ret⟩]) ⟨after, decide (ret = 0)⟩ := by
  have hlifetime : lifetime (records ++ [⟨.init, events, outcome ret⟩])
      = [⟨.init, events, outcome ret⟩] := lifetime_init rfl
  rcases init_trace hinit with hok | hfailed
  · obtain ⟨rfl, hclocks, setup, rest, block, hevents, hgeneration, hwords, rfl⟩ := hok
    have hblock : (⟨.init, events, outcome 0⟩ : Record).block = block.toList := hwords
    have hblocks : blocks [(⟨.init, events, outcome 0⟩ : Record)] = [block.toList] := by
      have hnew := @blocks_more [] _ (hblock ▸ block_to_list_ne block)
      rw [hblock] at hnew
      exact hnew
    have hgenerated : generated [(⟨.init, events, outcome 0⟩ : Record)]
        = bytesOf block.toList := by
      rw [generated, hblocks]
      simp
    constructor
    · exact sound_append h.sound fun _ => ⟨setup, rest, block, hevents, hgeneration, hblock⟩
    · rw [hlifetime, hblocks]
      exact .singleton _
    · rw [hlifetime]
      exact List.nil_prefix
    · intro _ _
      rw [hlifetime, hblocks, hgenerated]
      exact ⟨rfl, rfl, rfl, Nat.le_refl 16, rfl⟩
    · intro hclosed
      rcases hclosed with hdead | hfailed
      · cases hdead
      · cases hfailed
    · rw [clocks_records h.clocks, hclocks]
      rfl
  · obtain ⟨hret, hclocks, hafter⟩ := hfailed
    have houtcome : outcome ret = .error ret := if_neg hret
    have hblock : (⟨.init, events, outcome ret⟩ : Record).block = [] := by
      rw [houtcome]
      rfl
    have hbytes : (⟨.init, events, outcome ret⟩ : Record).bytes = [] := by
      rw [houtcome]
      rfl
    have hblocks : blocks [(⟨.init, events, outcome ret⟩ : Record)] = [] :=
      @blocks_quiet [] _ hblock
    constructor
    · exact sound_append h.sound (sound_of_quiet hblock)
    · rw [hlifetime, hblocks]
      exact .nil
    · rw [hlifetime, returned, List.flatMap_cons, hbytes]
      exact List.nil_prefix
    · intro hlive
      exact absurd (of_decide_eq_true hlive) hret
    · intro _
      rcases hafter with rfl | hzeros
      · exact h.closed (.inl rfl)
      · exact hzeros
    · rw [clocks_records h.clocks, hclocks, decide_eq_false hret]
      rfl

/-- A call of a lifetime that generates nothing. -/
theorem inv_quiet {record : Record} {device device' : Device} (h : Inv records device)
    (hcall : record.call ≠ .init) (hblock : record.block = [])
    (horder : returned (lifetime records) ++ record.bytes <+: generated (lifetime records))
    (hready : device'.live = true → device'.priv.failed = false →
      device.live = true ∧ device.priv.failed = false ∧ device'.priv.available ≤ 16 ∧
      device'.priv.havePrevious = device.priv.havePrevious ∧
      device'.priv.previous = device.priv.previous ∧ device'.priv.data = device.priv.data ∧
      record.bytes ++ (bytesOf device.priv.data.toList).drop (16 - device'.priv.available)
        = (bytesOf device.priv.data.toList).drop (16 - device.priv.available))
    (hclosed : device'.live = false ∨ device'.priv.failed = true → device'.priv.data = zeros)
    (hclocks : (if device.live then 1 else 0) + clocks record.events
      = if device'.live then 1 else 0) : Inv (records ++ [record]) device' where
  sound := sound_append h.sound (sound_of_quiet hblock)
  chain := by
    rw [lifetime_other hcall, blocks_quiet hblock]
    exact h.chain
  order := by
    rw [lifetime_other hcall, returned_append, generated_quiet hblock]
    exact horder
  ready := by
    intro hlive hopen
    obtain ⟨hlive', hopen', hle, hhave, hprevious, hdata, hleft⟩ := hready hlive hopen
    obtain ⟨hhave', hprevious', hlast, _, hbytes⟩ := h.ready hlive' hopen'
    rw [lifetime_other hcall, blocks_quiet hblock, returned_append, generated_quiet hblock, hdata,
      hhave, hprevious]
    refine ⟨hhave', hprevious', hlast, hle, ?_⟩
    rw [List.append_assoc, hleft]
    exact hbytes
  closed := hclosed
  clocks := by
    rw [clocks_records h.clocks]
    exact hclocks

theorem inv_cleanup (h : Inv records ⟨priv, true⟩)
    (hcleanup : (cleanup priv).Trace events after) :
    Inv (records ++ [⟨.cleanup, events, .ok []⟩]) ⟨after, false⟩ := by
  obtain ⟨hclocks, hwords, hdata⟩ := cleanup_trace hcleanup
  refine inv_quiet h Call.noConfusion hwords ?_ (fun hlive => ?_) (fun _ => hdata) ?_
  · show returned (lifetime records) ++ [] <+: _
    rw [List.append_nil]
    exact h.order
  · exact absurd hlive Bool.false_ne_true
  · show 1 + clocks events = 0
    rw [hclocks]
    rfl

/-- A read that returns no byte and leaves the driver as it was. -/
theorem inv_idle {call : Call} {result : Except Int (List UInt8)} (h : Inv records ⟨priv, true⟩)
    (hcall : call ≠ .init) (hblock : (⟨call, [], result⟩ : Record).block = [])
    (hbytes : (⟨call, [], result⟩ : Record).bytes = []) :
    Inv (records ++ [⟨call, [], result⟩]) ⟨priv, true⟩ := by
  refine inv_quiet h hcall hblock ?_ (fun hlive hopen => ?_) h.closed rfl
  · rw [hbytes, List.append_nil]
    exact h.order
  · obtain ⟨_, _, _, hle, _⟩ := h.ready hlive hopen
    exact ⟨hlive, hopen, hle, rfl, rfl, rfl, by rw [hbytes, List.nil_append]⟩

/-- The rest of a block in pieces. -/
theorem prefix_of_rest {returned rest all : List UInt8} (h : returned ++ rest = all) :
    returned <+: all :=
  ⟨rest, h⟩

theorem inv_read {max : Nat} {wait : Bool} {result : Except Int (List UInt8)}
    (h : Inv records ⟨priv, true⟩) (hread : (read priv max wait).Trace events (result, after)) :
    Inv (records ++ [⟨.read max wait, events, result⟩]) ⟨after, true⟩ := by
  obtain ⟨hclocks, hcases⟩ := read_trace hread
  rcases hcases with hclosed | hnothing | hpiece | hfresh | hfailed
  · obtain ⟨_, rfl, rfl, rfl⟩ := hclosed
    exact inv_idle h Call.noConfusion rfl rfl
  · obtain ⟨_, rfl, rfl, rfl⟩ := hnothing
    exact inv_idle h Call.noConfusion rfl rfl
  · obtain ⟨hopen, rfl, rfl, rfl⟩ := hpiece
    obtain ⟨_, _, _, hle, hbytes⟩ := h.ready rfl hopen
    have hleft := take_left priv max hle
    refine inv_quiet h Call.noConfusion rfl ?_ (fun _ _ => ?_) (fun hclosed => ?_) rfl
    · rw [← hbytes, ← hleft]
      show _ ++ (priv.take max).1 <+: _
      rw [← List.append_assoc]
      exact List.prefix_append _ _
    · refine ⟨rfl, hopen, ?_, rfl, rfl, rfl, hleft⟩
      show priv.available - min max priv.available ≤ 16
      exact Nat.le_trans (Nat.sub_le _ _) hle
    · rcases hclosed with hdead | hfailed
      · cases hdead
      · rw [show (priv.take max).2.failed = priv.failed from rfl, hopen] at hfailed
        cases hfailed
  · obtain ⟨hopen, hempty, block, hgeneration, hwords, hdiffers, hpair⟩ := hfresh
    obtain ⟨rfl, rfl⟩ := Prod.mk.inj hpair
    obtain ⟨hhave, hprevious, hlast, hle, hbytes⟩ := h.ready rfl hopen
    generalize hfilled : ({ priv with
      data := block, previous := block, havePrevious := true, available := 16 } : Priv) = filled
    have hleft := take_left filled max (by rw [← hfilled])
    have hblock : (⟨.read max wait, events, .ok (filled.take max).1⟩ : Record).block
      = block.toList := hwords
    have hsome := hblock ▸ block_to_list_ne block
    -- the block before was handed out completely
    have hall : returned (lifetime records) = generated (lifetime records) := by
      rw [← hbytes, hempty, List.drop_of_length_le (by rw [bytes_of_block_length]), List.append_nil]
    have hnext : returned (lifetime records) ++ (filled.take max).1
        ++ (bytesOf block.toList).drop (16 - (filled.take max).2.available)
        = generated (lifetime records) ++ bytesOf block.toList := by
      rw [List.append_assoc, hall]
      congr 1
      have hdata : (filled.take max).2.data = block := by rw [← hfilled]; rfl
      rw [hdata, ← hfilled] at hleft
      rw [← hfilled]
      simpa using hleft
    have hkept : (filled.take max).2.failed = false := by rw [← hfilled]; exact hopen
    constructor
    · exact sound_append h.sound fun _ => ⟨[], events, block, rfl, hgeneration, hblock⟩
    · rw [lifetime_other Call.noConfusion, blocks_more hsome, hblock]
      refine h.chain.append (.singleton _) fun last hmem next hnextMem => ?_
      rw [hlast, Option.mem_some_iff] at hmem
      rw [List.head?_cons, Option.mem_some_iff] at hnextMem
      subst hmem hnextMem
      intro hsame
      exact hdiffers hhave (hprevious.trans (Vector.toList_inj.mp hsame))
    · rw [lifetime_other Call.noConfusion, returned_append, generated_more hsome, hblock]
      exact prefix_of_rest hnext
    · intro _ _
      rw [lifetime_other Call.noConfusion, blocks_more hsome, returned_append,
        generated_more hsome, hblock, List.getLast?_concat]
      have hdata : (filled.take max).2.data = block := by rw [← hfilled]; rfl
      refine ⟨by rw [← hfilled]; rfl, by rw [← hfilled]; rfl, by rw [hdata], ?_, ?_⟩
      · rw [← hfilled]
        exact Nat.sub_le _ _
      · rw [hdata]
        exact hnext
    · intro hclosed
      rcases hclosed with hdead | hfailed
      · cases hdead
      · exact absurd hfailed (Bool.eq_false_iff.mp hkept)
    · rw [clocks_records h.clocks, hclocks]
      rfl
  · obtain ⟨_, rfl, ret, rfl⟩ := hfailed
    refine inv_quiet h Call.noConfusion rfl ?_ (fun _ hopen => ?_) (fun _ => rfl) ?_
    · show _ ++ [] <+: _
      rw [List.append_nil]
      exact h.order
    · exact Bool.noConfusion hopen
    · show 1 + clocks events = 1
      rw [hclocks]
      rfl

end

/-! ## Every run -/

theorem run_inv {records : List Record} {device : Device} (h : Run records device) :
    Inv records device := by
  induction h with
  | start => exact inv_start
  | init h hinit ih => exact inv_init ih hinit
  | read h hread ih => exact inv_read ih hread
  | cleanup h hcleanup ih => exact inv_cleanup ih hcleanup

/-- A successful `init`. -/
def Record.Starts (record : Record) : Prop := record.call = .init ∧ ¬ record.Failed

/-- The last record of a list that has one at an inner place. -/
theorem split_last {α : Type} {records before after : List α} {last record : α}
    (h : records ++ [last] = before ++ record :: after) :
    (after = [] ∧ last = record) ∨
      ∃ rest, after = rest ++ [last] ∧ records = before ++ record :: rest := by
  rcases List.eq_nil_or_concat after with rfl | ⟨rest, other, rfl⟩
  · exact .inl ⟨rfl, List.head_eq_of_cons_eq (List.append_inj' h rfl).2⟩
  · rw [List.concat_eq_append, ← List.cons_append, ← List.append_assoc] at h
    obtain ⟨hrecords, hlast⟩ := List.append_inj' h rfl
    rw [List.head_eq_of_cons_eq hlast]
    exact .inr ⟨rest, List.concat_eq_append, hrecords⟩

theorem Record.Failed.bytes {record : Record} (h : record.Failed) : record.bytes = [] := by
  obtain ⟨ret, hresult⟩ := h
  rw [Record.bytes, hresult]

theorem init_failed {events : List IoEvent} {ret : Int} :
    (⟨.init, events, outcome ret⟩ : Record).Failed ↔ ret ≠ 0 := by
  unfold Record.Failed outcome
  by_cases hret : ret = 0
  · simp [hret]
  · simp [hret]

/-- A driver that failed reads nothing and stays as it is. -/
theorem read_closed {priv after : Priv} {events : List IoEvent} {max : Nat} {wait : Bool}
    {result : Except Int (List UInt8)} (h : (read priv max wait).Trace events (result, after))
    (hfailed : priv.failed = true) : after = priv ∧ result = .error (-eio) := by
  obtain ⟨_, hcases⟩ := read_trace h
  rcases hcases with hclosed | hopen | hopen | hopen | hopen
  · exact ⟨hclosed.2.2.1, hclosed.2.2.2⟩
  all_goals
    exact absurd hfailed (Bool.eq_false_iff.mp hopen.1)

/-- A read that fails leaves the driver closed. -/
theorem read_failed {priv after : Priv} {events : List IoEvent} {max : Nat} {wait : Bool}
    {ret : Int} (h : (read priv max wait).Trace events (.error ret, after)) :
    after.failed = true := by
  obtain ⟨_, hcases⟩ := read_trace h
  rcases hcases with hclosed | hopen | hopen | hopen | hopen
  · rw [hclosed.2.2.1]
    exact hclosed.1
  · cases hopen.2.2.2
  · cases hopen.2.2.2
  · obtain ⟨_, _, block, _, _, _, hpair⟩ := hopen
    cases (Prod.mk.inj hpair).1
  · rw [hopen.2.1]
    rfl

/-- Behind a failure the driver is closed until an `init` succeeds, and returns nothing. -/
theorem run_closed {records : List Record} {device : Device} (h : Run records device) :
    ∀ before record after, records = before ++ record :: after → record.Failed →
      (∀ later ∈ after, ¬ later.Starts) →
      (device.live = false ∨ device.priv.failed = true) ∧ ∀ later ∈ after, later.bytes = [] := by
  induction h with
  | start =>
      intro before record after hsplit
      exact absurd hsplit (by simp)
  | @init records priv after' events ret h hinit ih =>
      intro before record after hsplit hfailed hquiet
      rcases split_last hsplit with hlast | ⟨rest, rfl, hrecords⟩
      · obtain ⟨rfl, rfl⟩ := hlast
        refine ⟨.inl (decide_eq_false (init_failed.mp hfailed)), ?_⟩
        exact fun _ hmem => absurd hmem List.not_mem_nil
      · have hret : (⟨.init, events, outcome ret⟩ : Record).Failed := by
          by_contra hok
          exact hquiet _ (by simp) ⟨rfl, hok⟩
        refine ⟨.inl (decide_eq_false (init_failed.mp hret)), fun later hmem => ?_⟩
        rcases List.mem_append.mp hmem with hmem | hmem
        · exact (ih before record rest hrecords hfailed
            fun later hmem => hquiet later (List.mem_append_left _ hmem)).2 later hmem
        · rw [List.mem_singleton.mp hmem]
          exact hret.bytes
  | @read records priv after' events max wait result h hread ih =>
      intro before record after hsplit hfailed hquiet
      rcases split_last hsplit with hlast | ⟨rest, rfl, hrecords⟩
      · obtain ⟨rfl, rfl⟩ := hlast
        obtain ⟨ret, rfl⟩ := hfailed
        exact ⟨.inr (read_failed hread), fun _ hmem => absurd hmem List.not_mem_nil⟩
      · obtain ⟨hstate, hrest⟩ := ih before record rest hrecords hfailed
          fun later hmem => hquiet later (List.mem_append_left _ hmem)
        have hclosed : priv.failed = true := hstate.resolve_left (by simp)
        obtain ⟨rfl, rfl⟩ := read_closed hread hclosed
        refine ⟨.inr hclosed, fun later hmem => ?_⟩
        rcases List.mem_append.mp hmem with hmem | hmem
        · exact hrest later hmem
        · rw [List.mem_singleton.mp hmem]
          rfl
  | @cleanup records priv after' events h hcleanup ih =>
      intro before record after hsplit hfailed hquiet
      rcases split_last hsplit with hlast | ⟨rest, rfl, hrecords⟩
      · obtain ⟨rfl, rfl⟩ := hlast
        obtain ⟨ret, hresult⟩ := hfailed
        cases hresult
      · refine ⟨.inl rfl, fun later hmem => ?_⟩
        rcases List.mem_append.mp hmem with hmem | hmem
        · exact (ih before record rest hrecords hfailed
            fun later hmem => hquiet later (List.mem_append_left _ hmem)).2 later hmem
        · rw [List.mem_singleton.mp hmem]
          rfl

/-- What the users of the generator rely on. -/
structure FailsClosed (records : List Record) (device : Device) : Prop where
  /-- Every block that a call generated went through the five commands. -/
  sound : ∀ record ∈ records, Sound record
  /-- The bytes of a lifetime are those of its blocks, in order and each once. -/
  order : returned (lifetime records) <+: bytesOf (blocks (lifetime records)).flatten
  fresh : (blocks (lifetime records)).IsChain (· ≠ ·)
  closed : ∀ before record after, records = before ++ record :: after → record.Failed →
    (∀ later ∈ after, ¬ later.Starts) →
    (∀ later ∈ after, later.bytes = []) ∧ device.priv.data = zeros
  clocks : clocks (records.flatMap Record.events) = if device.live then 1 else 0

/-- The generator fails closed in every run, whatever the registers return. -/
theorem rng_fails_closed {records : List Record} {device : Device} (h : Run records device) :
    FailsClosed records device where
  sound := (run_inv h).sound
  order := (run_inv h).order
  fresh := (run_inv h).chain
  closed := by
    intro before record after hsplit hfailed hquiet
    obtain ⟨hstate, hbytes⟩ := run_closed h before record after hsplit hfailed hquiet
    exact ⟨hbytes, (run_inv h).closed hstate⟩
  clocks := (run_inv h).clocks

/-- Registers that are never busy and complete every command at once. The words of a block say how
often the entropy has changed. -/
def promptAnswer (entropy : UInt32) : ∀ operation, Ret operation
  | .readl offset =>
      if offset = istat then 0x11 else if data ≤ offset then .ofNat offset + entropy else .ofNat offset
  | .clkEnable => 0
  | .timeout => 0
  | .ratelimit => true
  | .writel _ _ | .clkDisable => ()

def started : List IoEvent × Int × Priv := (init allocated).runWith (promptAnswer 0)

/-- A read of up to 20 bytes. -/
def reading (entropy : UInt32) (priv : Priv) : List IoEvent × Except Int (List UInt8) × Priv :=
  (read priv 20 true).runWith (promptAnswer entropy)

def firstRead : List IoEvent × Except Int (List UInt8) × Priv := reading 0 started.2.2

def secondRead : List IoEvent × Except Int (List UInt8) × Priv := reading 1 firstRead.2.2

/-- A read that gets the block of the second one again. -/
def repeatedRead : List IoEvent × Except Int (List UInt8) × Priv := reading 1 secondRead.2.2

def repeatedRecords : List Record :=
  [⟨.init, started.1, outcome started.2.1⟩] ++ [⟨.read 20 true, firstRead.1, firstRead.2.1⟩] ++
    [⟨.read 20 true, secondRead.1, secondRead.2.1⟩] ++
    [⟨.read 20 true, repeatedRead.1, repeatedRead.2.1⟩]

/-- Two reads return the 32 bytes of two blocks; the third one fails on a repeated block. -/
theorem rng_fails_closed_repeated :
    repeatedRecords.map (fun record => record.bytes.length) = [0, 16, 16, 0] ∧
    repeatedRead.2.2.failed = true ∧ FailsClosed repeatedRecords ⟨repeatedRead.2.2, true⟩ := by
  have hstarted : Run [⟨.init, started.1, outcome started.2.1⟩] ⟨started.2.2, true⟩ := by
    have hzero : decide (started.2.1 = 0) = true := by decide +kernel
    rw [← hzero]
    exact .init .start (Prog.trace_run_with (promptAnswer 0) _)
  have hrun : Run repeatedRecords ⟨repeatedRead.2.2, true⟩ :=
    ((hstarted.read (Prog.trace_run_with (promptAnswer 0) _)).read
      (Prog.trace_run_with (promptAnswer 1) _)).read (Prog.trace_run_with (promptAnswer 1) _)
  exact ⟨by decide +kernel, by decide +kernel, rng_fails_closed hrun⟩

end NanoKvm.Rng
