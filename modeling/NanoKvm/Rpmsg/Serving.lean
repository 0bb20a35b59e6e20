import NanoKvm.Rpmsg.Rings

/-!
# The transport between the steps of the driver

What the driver leaves alone from one operation of the transport to the next, and what the parts of
`send` do there: reading a descriptor, filling its buffer, moving the used index over its entry.
-/

namespace NanoKvm.Rpmsg

open Exec

/-! ## What the driver leaves alone -/

/-- A later moment at which only the driver has made steps. -/
structure Rings.Since (s next : Rings) : Prop where
  transport : next.transport = s.transport
  returned : next.returned = s.returned
  posted : ∀ ring, s.posted ring <+: next.posted ring
  kept : ∀ address, s.Kept address → next.memory.byte address = s.memory.byte address
  attached : Started s.memory → ∀ address,
    Within vdevStatusAddress 1 address ∨ Within vdevFeaturesAddress 4 address →
    next.memory.byte address = s.memory.byte address

theorem since_of_host {s next : Rings} (h : s.Valid) (hstep : HostStep s next)
    (hproper : Proper s next) : s.Since next := by
  cases hstep with
  | write hkept _ => exact ⟨rfl, rfl, fun _ => List.prefix_rfl, hkept, hproper.attached⟩
  | @post ring posting _ _ _ _ =>
      refine ⟨rfl, rfl, ?_, ?_, hproper.attached⟩
      · intro other
        by_cases heq : other = ring
        · subst heq
          rw [posted_post_self]
          exact List.prefix_append ..
        · rw [posted_post_other _ heq]
      · intro address hkept
        refine Memory.write_outside _ ?_
        rw [le_bytes_length]
        have heq := avail_index_eq ring
        cases hkept with
        | used other h' =>
            unfold Within ringUsedOffset ringNum at h'
            by_cases hsame : other = ring
            · subst hsame
              omega
            · have hrings := rings_apart hsame
              omega
        | outstanding other index found houtstanding h' =>
            have hfound := h.valid other index found houtstanding.2
            have hentry := avail_entry_bounds other (.ofNat index)
            have hdescriptor := descriptor_bounds other hfound.id
            have hlower := (posting_in_pool hfound).lower
            have hbuffers := ring_below_buffers ring
            unfold ringUsedOffset at hentry
            unfold Posting.Uses Within at h'
            unfold descriptorSize at h' hdescriptor
            by_cases hsame : other = ring
            · subst hsame
              omega
            · have hrings := rings_apart hsame
              omega

/-- The device is started with features that the transport knows. -/
def Online (memory : Memory) : Prop :=
  Started memory ∧ u32 memory vdevFeaturesAddress &&& ~~~rpmsgFeatures = 0

section

variable {s next : Rings}

theorem Rings.Since.online (h : s.Since next) (honline : Online s.memory) : Online next.memory := by
  have hstatus : next.memory.byte vdevStatusAddress = s.memory.byte vdevStatusAddress :=
    h.attached honline.1 _ (.inl ⟨Nat.le_refl _, Nat.lt_succ_self _⟩)
  have hfeatures : u32 next.memory vdevFeaturesAddress = u32 s.memory vdevFeaturesAddress :=
    u32_congr fun target htarget => h.attached honline.1 target (.inr htarget)
  unfold Online Started
  rw [hstatus, hfeatures]
  exact honline

theorem Rings.Since.head (h : s.Since next) {ring : Ring} {posting : Posting}
    (hhead : s.Head ring posting) : next.Head ring posting := by
  obtain ⟨more, hposted⟩ := h.posted ring
  unfold Rings.Head
  rw [h.returned, ← hposted, List.getElem?_append_left (List.getElem?_eq_some_iff.mp hhead).1]
  exact hhead

/-- The buffer of the next descriptor keeps its bytes. -/
theorem Rings.Since.read (h : s.Since next) {ring : Ring} {posting : Posting}
    (hhead : s.Head ring posting) {count : Nat} (hcount : count ≤ posting.length) :
    next.memory.read posting.address count = s.memory.read posting.address count := by
  refine Memory.read_congr fun target hlow hhigh => h.kept target ?_
  exact .outstanding ring _ posting (outstanding_head hhead) (.inr (.inr ⟨hlow, by omega⟩))

/-- The used entries keep their words. -/
theorem Rings.Since.entry (h : s.Since next) (ring : Ring) (cursor : UInt16) {offset : Nat}
    (hoffset : offset ≤ 4) :
    u32 next.memory (usedEntryAddress ring.base cursor + offset)
      = u32 s.memory (usedEntryAddress ring.base cursor + offset) := by
  refine u32_congr fun target htarget => h.kept target (.used ring ?_)
  have hbounds := used_entry_bounds ring cursor
  unfold Within at htarget ⊢
  unfold ringUsedOffset at hbounds ⊢
  omega

end

/-! ## Assertions -/

/-- The echoes on ring 0 are those owed for this many messages of ring 1, all the returned ones and
perhaps the next. -/
structure Answers (answered : Nat) (placed : Ring → List Return) (messages : List Posting) :
    Prop where
  low : (placed .tx).length ≤ answered
  high : answered ≤ (placed .tx).length + 1
  bound : answered ≤ messages.length
  echoes : (placed .rx).filterMap Return.echo = (messages.take answered).filterMap Posting.echo

theorem Answers.extend {answered : Nat} {placed : Ring → List Return} {messages later : List Posting}
    (h : Answers answered placed messages) (hlater : messages <+: later) :
    Answers answered placed later := by
  obtain ⟨more, rfl⟩ := hlater
  refine ⟨h.low, h.high, Nat.le_trans h.bound (by simp), ?_⟩
  rw [List.take_append_of_le_length h.bound]
  exact h.echoes

/-- The transport serves the rings: its fields and what it has returned are known, and so many
buffers on ring 0 and the first messages on ring 1. -/
structure Serving (buffers : Nat) (messages : List Posting) (fields : Transport)
    (placed : Ring → List Return) (s : Rings) : Prop where
  valid : s.Valid
  online : Online s.memory
  transport : s.transport = fields
  returned : s.returned = placed
  messages : messages <+: s.posted .tx
  buffers : buffers ≤ (s.posted .rx).length

/-- The next descriptor of a ring is known, and what was written to its buffer. -/
structure Filled (buffers : Nat) (messages : List Posting) (fields : Transport)
    (placed : Ring → List Return) (ring : Ring) (posting : Posting) (written : List UInt8) (s : Rings) : Prop
    extends Serving buffers messages fields placed s where
  head : s.Head ring posting
  read : s.memory.read posting.address written.length = written
  fits : written.length ≤ posting.length

/-- An assertion that the driver keeps, with the invariant in it. -/
structure Held (assertion : Rings → Prop) : Prop where
  stable : driven.Stable assertion
  valid : ∀ s, assertion s → s.Valid

theorem held_of_since {assertion : Rings → Prop} (hvalid : ∀ s, assertion s → s.Valid)
    (hsince : ∀ s next, assertion s → next.Valid → s.Since next → assertion next) :
    Held assertion where
  stable s next h hstep :=
    hsince s next h (valid_host (hvalid s h) hstep.1 hstep.2)
      (since_of_host (hvalid s h) hstep.1 hstep.2)
  valid := hvalid

section

variable {buffers : Nat} {messages : List Posting} {fields : Transport}
  {placed : Ring → List Return} {ring : Ring} {posting : Posting} {written : List UInt8}

theorem Serving.since {s next : Rings} (h : Serving buffers messages fields placed s)
    (hvalid : next.Valid) (hsince : s.Since next) :
    Serving buffers messages fields placed next where
  valid := hvalid
  online := hsince.online h.online
  transport := hsince.transport.trans h.transport
  returned := hsince.returned.trans h.returned
  messages := h.messages.trans (hsince.posted .tx)
  buffers := Nat.le_trans h.buffers (hsince.posted .rx).length_le

theorem Filled.since {s next : Rings}
    (h : Filled buffers messages fields placed ring posting written s)
    (hvalid : next.Valid) (hsince : s.Since next) :
    Filled buffers messages fields placed ring posting written next where
  toServing := h.toServing.since hvalid hsince
  head := hsince.head h.head
  read := (hsince.read h.head h.fits).trans h.read
  fits := h.fits

theorem held_serving : Held (Serving buffers messages fields placed) :=
  held_of_since (fun _ h => h.valid) fun _ _ h hvalid hsince => h.since hvalid hsince

theorem held_filled : Held (Filled buffers messages fields placed ring posting written) :=
  held_of_since (fun _ h => h.valid) fun _ _ h hvalid hsince => h.since hvalid hsince

end

/-! ## Rules -/

/-- The precondition of a part of the transport; the invariant holds before every operation. -/
abbrev Runs {α : Type} (program : Firmware α) (post : α → Rings → Prop) (s : Rings) : Prop :=
  driven.wp (fun s _ => s.Valid) program post s

section

variable {α β : Type} {assertion : Rings → Prop} {post : α → Rings → Prop} {s : Rings}

theorem runs_pure (hheld : Held assertion) (h : assertion s) {value : α}
    (hpost : ∀ s, assertion s → post value s) : Runs (pure value) post s :=
  fun after hafter => hpost after (hheld.stable.reachable h hafter)

theorem runs_perform (hheld : Held assertion) (h : assertion s) {operation : Op}
    {rest : operation.Ret → Firmware α}
    (hrest : ∀ before result next, assertion before → before.Performs operation result next →
      Runs (rest result) post next) : Runs (perform operation >>= rest) post s :=
  Machine.wp_perform hheld.stable h hheld.valid hrest

/-- An operation that leaves the rings alone. -/
theorem runs_look (hheld : Held assertion) (h : assertion s) {operation : Op}
    {rest : operation.Ret → Firmware α}
    (hsame : ∀ (before : Rings) result next, before.Performs operation result next → next = before)
    (hrest : ∀ before result, assertion before → before.Performs operation result before →
      Runs (rest result) post before) : Runs (perform operation >>= rest) post s :=
  Machine.wp_look hheld.stable h hsame hheld.valid hrest

theorem runs_read_u16 (hheld : Held assertion) (h : assertion s) {address : Nat} {value : UInt16}
    (hvalue : ∀ s, assertion s → u16 s.memory address = value) {rest : UInt16 → Firmware α}
    (hrest : ∀ s, assertion s → Runs (rest value) post s) :
    Runs (perform (.readU16 address) >>= rest) post s := by
  refine runs_look hheld h (fun _ _ _ hread => hread.2) fun before result hbefore hread => ?_
  obtain rfl : result = value := hread.1.trans (hvalue before hbefore)
  exact hrest before hbefore

theorem runs_load (hheld : Held assertion) (h : assertion s) {fields : Transport}
    (hfields : ∀ s, assertion s → s.transport = fields) {rest : Transport → Firmware α}
    (hrest : ∀ s, assertion s → Runs (rest fields) post s) :
    Runs (perform .load >>= rest) post s := by
  refine runs_look hheld h (fun _ _ _ hload => hload.2) fun before result hbefore hload => ?_
  obtain rfl : result = fields := hload.1.trans (hfields before hbefore)
  exact hrest before hbefore

/-- A part whose result is known, with more behind it. -/
theorem runs_then {program : Firmware β} {rest : β → Firmware α} {value : β}
    (h : Runs program (fun result s => result = value ∧ assertion s) s)
    (hrest : ∀ s, assertion s → Runs (rest value) post s) : Runs (program >>= rest) post s := by
  refine Machine.wp_bind (Machine.wp_mono h ?_)
  rintro _ after ⟨rfl, hafter⟩
  exact hrest after hafter

theorem runs_bind {program : Firmware β} {rest : β → Firmware α} {mid : β → Rings → Prop}
    (h : Runs program mid s) (hrest : ∀ value s, mid value s → Runs (rest value) post s) :
    Runs (program >>= rest) post s :=
  Machine.wp_bind (Machine.wp_mono h hrest)

theorem runs_descriptor (hheld : Held assertion) (h : assertion s) {ring : Ring} {index : UInt16}
    {found : Descriptor}
    (hfound : ∀ s, assertion s → descriptorAt s.memory ring.base index = found) :
    Runs (descriptor ring.base index) (fun result s => result = found ∧ assertion s) s := by
  refine runs_look hheld h (fun _ _ _ hread => hread.2) fun first address hfirst hread => ?_
  obtain rfl : address = found.address := hread.1.trans (by rw [← hfound first hfirst]; rfl)
  refine runs_look hheld hfirst (fun _ _ _ hread => hread.2) fun second length hsecond hread => ?_
  obtain rfl : length = found.length := hread.1.trans (by rw [← hfound second hsecond]; rfl)
  refine runs_look hheld hsecond (fun _ _ _ hread => hread.2) fun third flags hthird hread => ?_
  obtain rfl : flags = found.flags := hread.1.trans (by rw [← hfound third hthird]; rfl)
  refine runs_look hheld hthird (fun _ _ _ hread => hread.2) fun last next hlast hread => ?_
  obtain rfl : next = found.next := hread.1.trans (by rw [← hfound last hlast]; rfl)
  exact runs_pure hheld hlast fun _ hafter => ⟨rfl, hafter⟩

theorem runs_read_bytes (hheld : Held assertion) (h : assertion s) {address count : Nat}
    {bytes : List UInt8} (hread : ∀ s, assertion s → s.memory.read address count = bytes) :
    Runs (readBytes address count) (fun result s => result = bytes ∧ assertion s) s := by
  induction count generalizing s address bytes with
  | zero => exact runs_pure hheld h fun after hafter => ⟨hread after hafter, hafter⟩
  | succ count ih =>
      cases bytes with
      | nil => cases hread s h
      | cons first rest =>
          refine runs_look hheld h (fun _ _ _ hbyte => hbyte.2) fun before byte hbefore hbyte => ?_
          obtain rfl : byte = first := hbyte.1.trans (List.cons.inj (hread before hbefore)).1
          have hrest := ih hbefore fun s hs => (List.cons.inj (hread s hs)).2
          exact runs_then hrest fun s hs => runs_pure hheld hs fun _ hafter => ⟨rfl, hafter⟩

end

/-! ## Writing a buffer -/

section

variable {buffers : Nat} {messages : List Posting} {fields : Transport}
  {placed : Ring → List Return} {ring : Ring} {posting : Posting} {written : List UInt8} {s : Rings}

/-- Memory changes that the assertion does not notice. -/
theorem Filled.memory (h : Filled buffers messages fields placed ring posting written s)
    {memory : Memory} (hvalid : Rings.Valid { s with memory := memory })
    (htable : ∀ target, target < resourceTableBase + 64 →
      memory.byte target = s.memory.byte target) {longer : List UInt8}
    (hread : memory.read posting.address longer.length = longer)
    (hfits : longer.length ≤ posting.length) :
    Filled buffers messages fields placed ring posting longer { s with memory := memory } where
  valid := hvalid
  online := by
    have hfeatures : u32 memory vdevFeaturesAddress = u32 s.memory vdevFeaturesAddress := by
      refine u32_congr fun target htarget => htable target ?_
      unfold Within vdevFeaturesAddress at htarget
      omega
    unfold Online Started
    rw [hfeatures, htable vdevStatusAddress (by decide)]
    exact h.online
  transport := h.transport
  returned := h.returned
  messages := h.messages
  buffers := h.buffers
  head := h.head
  read := hread
  fits := hfits

theorem Filled.write_byte (h : Filled buffers messages fields placed .rx posting written s)
    (byte : UInt8) (hfits : written.length + 1 ≤ posting.length) :
    Filled buffers messages fields placed .rx posting (written ++ [byte])
      (s.write (posting.address + written.length) [byte]) := by
  have houtstanding := outstanding_head h.head
  have houtside : ∀ target, target ≠ posting.address + written.length →
      (s.memory.write (posting.address + written.length) [byte]).byte target
        = s.memory.byte target := by
    intro target hne
    refine Memory.write_outside _ ?_
    rw [List.length_singleton]
    omega
  have hlower := (posting_in_pool (h.valid.valid .rx _ posting houtstanding.2)).lower
  have hbuffers := ring_below_buffers .rx
  have htable := table_below_ring .rx
  refine h.memory ?_ ?_ ?_ ?_
  · refine valid_memory h.valid fun target hreserved => houtside target ?_
    rintro rfl
    exact reserved_not_buffer h.valid hreserved houtstanding ⟨by omega, by omega⟩
  · intro target htarget
    exact houtside target (by omega)
  · rw [List.length_append, List.length_singleton, Memory.read_append]
    have hfirst : (s.memory.write (posting.address + written.length) [byte]).read posting.address
        written.length = s.memory.read posting.address written.length :=
      Memory.read_congr fun target _ hhigh => houtside target (by omega)
    have hlast := s.memory.read_write_self (posting.address + written.length) [byte]
    rw [List.length_singleton] at hlast
    rw [hfirst, hlast, h.read]
  · rw [List.length_append]
    exact hfits

theorem runs_write_bytes {rest : List UInt8}
    (h : Filled buffers messages fields placed .rx posting written s)
    (hfits : written.length + rest.length ≤ posting.length) :
    Runs (writeBytes (posting.address + written.length) rest)
      (fun _ => Filled buffers messages fields placed .rx posting (written ++ rest)) s := by
  induction rest generalizing s written with
  | nil =>
      rw [List.append_nil]
      exact runs_pure held_filled h fun _ hafter => hafter
  | cons byte rest ih =>
      rw [List.length_cons] at hfits
      refine runs_perform held_filled h fun before _ next hbefore hnext => ?_
      obtain rfl : next = before.write _ [byte] := hnext
      have hstep := ih (hbefore.write_byte byte (by omega)) (by
        rw [List.length_append, List.length_singleton]
        omega)
      rw [List.length_append, List.append_assoc] at hstep
      exact hstep

end

/-! ## Returning a descriptor -/

/-- The returns of a ring with one more. -/
def placing (placed : Ring → List Return) (ring : Ring) (posting : Posting) (length : UInt32)
    (written : List UInt8) : Ring → List Return :=
  Function.update placed ring (placed ring ++ [⟨posting.id.toUInt32, length, written⟩])

section

variable {buffers : Nat} {messages : List Posting} {fields : Transport}
  {placed : Ring → List Return} {ring : Ring} {posting : Posting} {written : List UInt8} {s : Rings}

theorem Filled.write_entry (h : Filled buffers messages fields placed ring posting written s)
    {address : Nat} {bytes : List UInt8} (hlow : ring.base + 8196 ≤ address)
    (hhigh : address + bytes.length ≤ ring.base + 8196 + ringNum * 8) :
    Filled buffers messages fields placed ring posting written (s.write address bytes) := by
  have houtside : ∀ target, ¬ Within (ring.base + 8196) (ringNum * 8) target →
      (s.memory.write address bytes).byte target = s.memory.byte target := by
    intro target htarget
    refine Memory.write_outside _ ?_
    unfold Within at htarget
    omega
  have htable := table_below_ring ring
  have hbuffers := ring_below_buffers ring
  have hlower := (posting_in_pool (h.valid.valid ring _ posting h.head)).lower
  refine h.memory ?_ ?_ ?_ h.fits
  · exact valid_memory h.valid fun target hreserved =>
      houtside target (reserved_not_entry h.valid hreserved ring)
  · intro target htarget
    refine houtside target ?_
    unfold Within
    omega
  · refine (Memory.read_congr fun target htarget _ => houtside target ?_).trans h.read
    unfold Within ringNum
    omega

/-- What the driver finds when the used index moves over the entry. -/
theorem Filled.hand_back (h : Filled buffers messages fields placed ring posting written s)
    {length : UInt32} (hlength : length.toNat = written.length)
    (hid : u32 s.memory (usedEntryAddress ring.base (.ofNat (placed ring).length))
      = posting.id.toUInt32)
    (hword : u32 s.memory (usedEntryAddress ring.base (.ofNat (placed ring).length) + 4) = length)
    {answered : Nat}
    (hanswers : Answers answered (placing placed ring posting length written) messages) :
    Serving buffers messages fields (placing placed ring posting length written)
      (s.handBack ring) := by
  have houtstanding := outstanding_head h.head
  have hentry : usedEntry s.memory ring (.ofNat (placed ring).length)
      = ⟨posting.id.toUInt32, length, written⟩ := by
    have hfound : descriptorAt s.memory ring.base posting.id = posting.descriptor :=
      (h.valid.offers ring _ posting houtstanding).descriptor
    unfold usedEntry
    rw [hid, hword]
    dsimp only
    rw [UInt16.toUInt16_toUInt32, hfound, hlength]
    exact congrArg (Return.mk posting.id.toUInt32 length) h.read
  have hreturned : (s.handBack ring).returned = placing placed ring posting length written := by
    rw [hand_back_returned h.valid, h.returned, hentry]
    rfl
  have haccounted : (s.handBack ring).Accounted := by
    unfold Rings.Accounted
    rw [hreturned]
    have hafter := hanswers.extend h.messages
    exact ⟨answered, hafter.low, hafter.high, hafter.bound, hafter.echoes⟩
  have hstatus : ∀ target, target < resourceTableBase + 64 →
      (s.handBack ring).memory.byte target = s.memory.byte target := by
    intro target htarget
    refine Memory.write_outside _ ?_
    have heq := used_index_eq ring
    have htable := table_below_ring ring
    omega
  have honline : Online (s.handBack ring).memory := by
    have hfeatures : u32 (s.handBack ring).memory vdevFeaturesAddress
        = u32 s.memory vdevFeaturesAddress := by
      refine u32_congr fun target htarget => hstatus target ?_
      unfold Within vdevFeaturesAddress at htarget
      omega
    unfold Online Started
    rw [hfeatures, hstatus vdevStatusAddress (by decide)]
    exact h.online
  have hid' : u32 s.memory (usedEntryAddress ring.base (.ofNat (s.returned ring).length))
      = posting.id.toUInt32 := by
    rw [h.returned]
    exact hid
  exact {
    valid := valid_hand_back h.valid h.head hid' haccounted
    online := honline
    transport := h.transport
    returned := hreturned
    messages := h.messages
    buffers := h.buffers }

theorem runs_publish_used (h : Filled buffers messages fields placed ring posting written s)
    {length : UInt32} (hlength : length.toNat = written.length) {answered : Nat}
    (hanswers : Answers answered (placing placed ring posting length written) messages) :
    Runs (publishUsed ring.base (.ofNat (placed ring).length) posting.id length)
      (fun _ => Serving buffers messages fields (placing placed ring posting length written)) s := by
  have hbounds := used_entry_bounds ring (.ofNat (placed ring).length)
  unfold ringUsedOffset at hbounds
  -- The entry stays as it is written.
  have hfirst : Held fun s => Filled buffers messages fields placed ring posting written s ∧
      u32 s.memory (usedEntryAddress ring.base (.ofNat (placed ring).length))
        = posting.id.toUInt32 :=
    held_of_since (fun _ hs => hs.1.valid) fun _ _ hs hvalid hsince =>
      ⟨hs.1.since hvalid hsince, (hsince.entry ring _ (Nat.zero_le 4)).trans hs.2⟩
  have hboth : Held fun s => Filled buffers messages fields placed ring posting written s ∧
      u32 s.memory (usedEntryAddress ring.base (.ofNat (placed ring).length))
        = posting.id.toUInt32 ∧
      u32 s.memory (usedEntryAddress ring.base (.ofNat (placed ring).length) + 4) = length :=
    held_of_since (fun _ hs => hs.1.valid) fun _ _ hs hvalid hsince =>
      ⟨hs.1.since hvalid hsince, (hsince.entry ring _ (Nat.zero_le 4)).trans hs.2.1,
        (hsince.entry ring _ (Nat.le_refl 4)).trans hs.2.2⟩
  refine runs_perform held_filled h fun before _ next hbefore hnext => ?_
  obtain rfl : next = before.write _ (leBytes 4 posting.id.toUInt32.toNat) := hnext
  have hentered := hbefore.write_entry (by omega : ring.base + 8196 ≤
    usedEntryAddress ring.base (.ofNat (placed ring).length))
    (by rw [le_bytes_length]; omega : _ + (leBytes 4 posting.id.toUInt32.toNat).length ≤ _)
  refine runs_perform hfirst ⟨hentered, u32_write_self ..⟩ fun before _ next hbefore hnext => ?_
  obtain rfl : next = before.write _ (leBytes 4 length.toNat) := hnext
  have hentered := hbefore.1.write_entry (by omega : ring.base + 8196 ≤
    usedEntryAddress ring.base (.ofNat (placed ring).length) + 4)
    (by rw [le_bytes_length]; omega : _ + (leBytes 4 length.toNat).length ≤ _)
  have hkept : u32 (before.memory.write (usedEntryAddress ring.base (.ofNat (placed ring).length)
      + 4) (leBytes 4 length.toNat)) (usedEntryAddress ring.base (.ofNat (placed ring).length))
      = posting.id.toUInt32 := by
    refine (u32_congr fun target htarget => Memory.write_outside _ ?_).trans hbefore.2
    exact .inl htarget.2
  refine runs_look hboth ⟨hentered, hkept, u32_write_self ..⟩ (fun _ _ _ hclean => hclean)
    fun before _ hbefore _ => ?_
  refine runs_perform hboth hbefore fun before _ next hbefore hnext => ?_
  obtain rfl : next = before.handBack ring := by
    have hcursor : UInt16.ofNat (placed ring).length + 1
        = .ofNat ((before.returned ring).length + 1) := by
      rw [hbefore.1.returned, UInt16.ofNat_add]
      rfl
    rw [hcursor] at hnext
    cases ring with
    | rx => exact hnext
    | tx => exact hnext
  have hserving := hbefore.1.hand_back hlength hbefore.2.1 hbefore.2.2 hanswers
  refine Machine.wp_tail (runs_look held_serving hserving (fun _ _ _ hclean => hclean)
    fun before _ hbefore _ => ?_)
  exact runs_pure held_serving hbefore fun _ hafter => hafter

end

/-! ## Sending -/

/-- The cursors count what was returned. -/
structure Cursors (fields : Transport) (placed : Ring → List Return) : Prop where
  rxAvailable : fields.rxAvailable = .ofNat (placed .rx).length
  rxUsed : fields.rxUsed = .ofNat (placed .rx).length
  txAvailable : fields.txAvailable = .ofNat (placed .tx).length
  txUsed : fields.txUsed = .ofNat (placed .tx).length

/-- The fields after `send` took a buffer. -/
def Transport.sent (fields : Transport) : Transport :=
  { fields with rxAvailable := fields.rxAvailable + 1, rxUsed := fields.rxUsed + 1 }

/-- The bytes of a message on ring 0. -/
def messageBytes (source destination : UInt32) (payload : List UInt8) : List UInt8 :=
  encodeHeader ⟨source, destination, 0, .ofNat payload.length, 0⟩ ++ payload

theorem message_bytes_length (source destination : UInt32) (payload : List UInt8) :
    (messageBytes source destination payload).length = headerBytes + payload.length := by
  rw [messageBytes, List.length_append, encode_header_length]

/-- A buffer that is long enough is long enough for less. -/
theorem descriptor_buffer_shorter {found : Descriptor} {write : Bool} {minimum less buffer : Nat}
    (h : descriptorBuffer found write minimum = some buffer)
    (hless : less % 2 ^ 32 ≤ minimum % 2 ^ 32) :
    descriptorBuffer found write less = some buffer := by
  unfold descriptorBuffer at h ⊢
  split at h
  · cases h
  · rename_i hfields
    simp only [not_or, Nat.not_lt] at hfields
    obtain ⟨hflags, hdirection, hminimum, hmaximum⟩ := hfields
    rw [if_neg]
    · exact h
    · simp only [not_or, Nat.not_lt]
      exact ⟨hflags, hdirection, Nat.le_trans hless hminimum, hmaximum⟩

section

variable {s : Rings} {ring : Ring}

/-- Different cursors leave a descriptor to take. -/
theorem head_of_available (h : s.Valid)
    (hne : UInt16.ofNat (s.returned ring).length ≠ u16 s.memory (availIndexAddress ring.base)) :
    ∃ posting, s.Head ring posting := by
  rw [h.avail ring] at hne
  have hcounts := h.counts ring
  have hlength : (s.returned ring).length < (s.posted ring).length := by
    refine Nat.lt_of_le_of_ne hcounts fun heq => hne ?_
    rw [heq]
  exact ⟨_, List.getElem?_eq_getElem hlength⟩

/-- Equal cursors leave none, however often they wrapped. -/
theorem all_of_available (h : s.Valid)
    (heq : UInt16.ofNat (s.returned ring).length = u16 s.memory (availIndexAddress ring.base)) :
    (s.posted ring).length = (s.returned ring).length := by
  rw [h.avail ring] at heq
  have hcounts := h.counts ring
  have hbound := outstanding_bound h ring
  have hmod := UInt16.toNat_inj.mpr heq
  rw [UInt16.toNat_ofNat', UInt16.toNat_ofNat'] at hmod
  unfold ringNum at hbound
  omega

end

section

variable {buffers : Nat} {messages : List Posting} {fields : Transport}
  {placed : Ring → List Return} {s : Rings}

/-- The fields are no part of the invariant. -/
theorem valid_store {s : Rings} (h : s.Valid) (later : Transport) :
    Rings.Valid { s with transport := later } :=
  ⟨h.counts, h.avail, h.used, h.offers, h.bytes, h.valid, h.ids, h.apart, h.order, h.accounted⟩

theorem Serving.store (h : Serving buffers messages fields placed s) (later : Transport) :
    Serving buffers messages later placed { s with transport := later } where
  valid := valid_store h.valid later
  online := h.online
  transport := rfl
  returned := h.returned
  messages := h.messages
  buffers := h.buffers

theorem runs_store (h : Serving buffers messages fields placed s) {later : Transport} {α : Type}
    {rest : Unit → Firmware α} {post : α → Rings → Prop}
    (hrest : ∀ s, Serving buffers messages later placed s → Runs (rest ()) post s) :
    Runs (perform (.store later) >>= rest) post s := by
  refine runs_perform held_serving h fun before _ next hbefore hnext => ?_
  obtain rfl : next = { before with transport := later } := hnext
  exact hrest _ (hbefore.store later)

/-- The head of a ring as an assertion of the state. -/
theorem Serving.filled (h : Serving buffers messages fields placed s) {ring : Ring}
    {posting : Posting} (hhead : s.Head ring posting) :
    Filled buffers messages fields placed ring posting [] s where
  toServing := h
  head := hhead
  read := rfl
  fits := Nat.zero_le _

theorem Filled.found {ring : Ring} {posting : Posting} {written : List UInt8}
    (h : Filled buffers messages fields placed ring posting written s) :
    Offers s.memory ring (placed ring).length posting := by
  have hoffers := h.valid.offers ring _ posting (outstanding_head h.head)
  rw [h.returned] at hoffers
  exact hoffers

theorem runs_fill {posting : Posting}
    (h : Filled buffers messages fields placed .rx posting [] s) (hcursors : Cursors fields placed)
    {source destination : UInt32} {payload : List UInt8} (hpayload : payload.length ≤ payloadBytes)
    (hlength : bufferBytes ≤ posting.length) {answered : Nat}
    (hanswers : Answers answered (placing placed .rx posting (.ofNat (headerBytes + payload.length))
      (messageBytes source destination payload)) messages) :
    Runs (fill source destination payload posting.id posting.address)
      (fun _ => Serving buffers messages fields.sent
        (placing placed .rx posting (.ofNat (headerBytes + payload.length))
          (messageBytes source destination payload))) s := by
  unfold payloadBytes at hpayload
  unfold bufferBytes at hlength
  have hheader := encode_header_length ⟨source, destination, 0, .ofNat payload.length, 0⟩
  have hbytes := message_bytes_length source destination payload
  unfold headerBytes at hheader hbytes
  refine runs_bind (runs_write_bytes h (by rw [hheader]; simp only [List.length_nil]; omega)) ?_
  intro _ s hs
  rw [List.nil_append] at hs
  have hwrite := @runs_write_bytes _ _ _ _ _ _ _ payload hs (by rw [hheader]; omega)
  rw [hheader] at hwrite
  refine runs_bind hwrite ?_
  intro _ s hs
  refine runs_look held_filled hs (fun _ _ _ hclean => hclean) fun s _ hs _ => ?_
  refine runs_load held_filled hs (fun _ hs => hs.transport) fun s hs => ?_
  rw [hcursors.rxUsed]
  have hsize : (UInt32.ofNat (headerBytes + payload.length)).toNat
      = (messageBytes source destination payload).length := by
    rw [hbytes, UInt32.toNat_ofNat', Nat.mod_eq_of_lt (by unfold headerBytes; omega)]
    rfl
  refine runs_bind (runs_publish_used hs hsize hanswers) fun _ s hs => ?_
  refine runs_load held_serving hs (fun _ hs => hs.transport) fun s hs => ?_
  refine Machine.wp_tail (runs_store hs fun s hs => ?_)
  exact runs_pure held_serving hs fun _ hafter => hafter

/-- `send` places the message, or finds no buffer and changes nothing. -/
theorem runs_send (h : Serving buffers messages fields placed s) (hcursors : Cursors fields placed)
    (source destination : UInt32) {payload : List UInt8} (hpayload : payload.length ≤ payloadBytes)
    {answered : Nat} (hanswers : ∀ posting length, Answers answered
      (placing placed .rx posting length (messageBytes source destination payload)) messages) :
    Runs (send source destination payload) (fun sent s => if sent then
        ∃ posting length, Serving buffers messages fields.sent
          (placing placed .rx posting length (messageBytes source destination payload)) s
      else Serving buffers messages fields placed s ∧ buffers ≤ (placed .rx).length) s := by
  unfold send
  rw [if_neg (Nat.not_lt.mpr hpayload)]
  refine runs_look held_serving h (fun _ _ _ hclean => hclean) fun s _ hs _ => ?_
  refine runs_look held_serving hs (fun _ _ _ hread => hread.2) fun s available hs hread => ?_
  obtain rfl := hread.1
  by_cases heq : fields.rxAvailable = u16 s.memory (availIndexAddress vring0Base)
  · have hnone : buffers ≤ (placed .rx).length := by
      have hcursor : UInt16.ofNat (s.returned .rx).length
          = u16 s.memory (availIndexAddress Ring.rx.base) := by
        rw [hs.returned, ← hcursors.rxAvailable]
        exact heq
      rw [← hs.returned, ← all_of_available hs.valid hcursor]
      exact hs.buffers
    refine runs_load held_serving hs (fun _ hs => hs.transport) fun s hs => ?_
    rw [if_pos heq]
    exact runs_pure held_serving hs fun _ hafter => ⟨hafter, hnone⟩
  · obtain ⟨posting, hhead⟩ : ∃ posting, s.Head .rx posting := by
      refine head_of_available hs.valid ?_
      rw [hs.returned, ← hcursors.rxAvailable]
      exact heq
    have hvalid : posting.Valid .rx := hs.valid.valid .rx _ posting hhead
    have hbuffer : descriptorBuffer posting.descriptor true (headerBytes + payload.length)
        = some posting.address := by
      have hless : (headerBytes + payload.length) % 2 ^ 32 ≤ bufferBytes % 2 ^ 32 := by
        unfold payloadBytes at hpayload
        unfold headerBytes bufferBytes
        omega
      exact descriptor_buffer_shorter hvalid.buffer hless
    refine runs_load held_filled (hs.filled hhead) (fun _ hs => hs.transport) fun s hs => ?_
    rw [if_neg heq, hcursors.rxAvailable]
    refine runs_read_u16 held_filled hs (fun _ hs => hs.found.entry) fun s hs => ?_
    rw [if_neg (Nat.not_le.mpr hvalid.id)]
    have hdescriptor := runs_descriptor held_filled hs fun _ hs => hs.found.descriptor
    refine runs_then hdescriptor fun s hs => ?_
    simp only [hbuffer]
    have hfill := runs_fill hs hcursors hpayload (posting_minimum hvalid) (hanswers posting _)
    refine runs_bind hfill fun _ s hs => ?_
    exact runs_pure held_serving hs fun _ hafter => ⟨posting, _, hafter⟩

end

end NanoKvm.Rpmsg
