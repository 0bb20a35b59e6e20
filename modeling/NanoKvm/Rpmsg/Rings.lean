import Mathlib.Data.Fintype.Card
import NanoKvm.Rpmsg.Host

/-!
# The rings stay consistent

`Valid` is the invariant of the memory and the logs: both indices count the log entries
modulo 2^16, what is outstanding lies in memory as it was posted, and descriptors are
returned in the order in which they were posted. The echoes that were placed on ring 0
account for the messages of ring 1 up to the one that is being answered.

The steps of the driver and the allowed operations of the transport keep the invariant.
-/

namespace NanoKvm.Rpmsg

open Exec

/-! ## Memory -/

theorem u16_congr {memory other : Memory} {address : Nat}
    (h : ∀ target, Within address 2 target → other.byte target = memory.byte target) :
    u16 other address = u16 memory address := by
  unfold u16
  rw [Memory.read_congr fun target hlow hhigh => h target ⟨hlow, hhigh⟩]

theorem u32_congr {memory other : Memory} {address : Nat}
    (h : ∀ target, Within address 4 target → other.byte target = memory.byte target) :
    u32 other address = u32 memory address := by
  unfold u32
  rw [Memory.read_congr fun target hlow hhigh => h target ⟨hlow, hhigh⟩]

theorem u64_congr {memory other : Memory} {address : Nat}
    (h : ∀ target, Within address 8 target → other.byte target = memory.byte target) :
    u64 other address = u64 memory address := by
  unfold u64
  rw [Memory.read_congr fun target hlow hhigh => h target ⟨hlow, hhigh⟩]

theorem descriptor_at_congr {memory other : Memory} {base : Nat} {index : UInt16}
    (h : ∀ target, Within (base + index.toNat * descriptorSize) descriptorSize target →
      other.byte target = memory.byte target) :
    descriptorAt other base index = descriptorAt memory base index := by
  have hfield : ∀ offset count, offset + count ≤ descriptorSize → ∀ target,
      Within (base + index.toNat * descriptorSize + offset) count target →
      other.byte target = memory.byte target := by
    intro offset count hcount target htarget
    obtain ⟨hlow, hhigh⟩ := htarget
    exact h target ⟨by omega, by omega⟩
  have haddress : u64 other (base + index.toNat * descriptorSize) =
      u64 memory (base + index.toNat * descriptorSize) := u64_congr (hfield 0 8 (by decide))
  unfold descriptorAt
  rw [haddress, u32_congr (hfield 8 4 (by decide)),
    u16_congr (hfield 12 2 (by decide)), u16_congr (hfield 14 2 (by decide))]

/-- A written 16-bit index is read back. -/
theorem u16_write_self (memory : Memory) (address value : Nat) :
    u16 (memory.write address (leBytes 2 value)) address = .ofNat value := by
  have hread := memory.read_write_self address (leBytes 2 value)
  rw [le_bytes_length] at hread
  unfold u16
  rw [hread, of_le_bytes_le_bytes]
  apply UInt16.toNat_inj.1
  simp

/-- A written 32-bit word is read back. -/
theorem u32_write_self (memory : Memory) (address : Nat) (value : UInt32) :
    u32 (memory.write address (leBytes 4 value.toNat)) address = value := by
  have hread := memory.read_write_self address (leBytes 4 value.toNat)
  rw [le_bytes_length] at hread
  have hbound : value.toNat < 256 ^ 4 := by
    have hsize := value.toNat_lt
    omega
  unfold u32
  rw [hread, of_le_bytes_le_bytes, Nat.mod_eq_of_lt hbound, UInt32.ofNat_toNat]

/-! ## Regions -/

/-- Both rings end before the buffers. -/
theorem ring_below_buffers (ring : Ring) : ring.base + 0x4000 ≤ bufferBase := by
  cases ring <;> decide

/-- The resource table is before both rings. -/
theorem table_below_ring (ring : Ring) : resourceTableBase + 64 ≤ ring.base := by
  cases ring <;> decide

/-- The rings do not overlap. -/
theorem rings_apart {ring other : Ring} (h : ring ≠ other) :
    ring.base + 0x4000 ≤ other.base ∨ other.base + 0x4000 ≤ ring.base := by
  cases ring <;> cases other <;> first | exact absurd rfl h | decide

/-- The entries of the available ring follow its index and end before the used area. -/
theorem avail_entry_bounds (ring : Ring) (cursor : UInt16) :
    ring.base + 4100 ≤ availEntryAddress ring.base cursor ∧
      availEntryAddress ring.base cursor + 2 ≤ ring.base + ringUsedOffset := by
  unfold availEntryAddress ringNum descriptorSize ringUsedOffset
  omega

theorem avail_index_eq (ring : Ring) : availIndexAddress ring.base = ring.base + 4098 := rfl

theorem used_index_eq (ring : Ring) : usedIndexAddress ring.base = ring.base + 8194 := rfl

/-- The used entries follow the used index. -/
theorem used_entry_bounds (ring : Ring) (cursor : UInt16) :
    ring.base + 8196 ≤ usedEntryAddress ring.base cursor ∧
      usedEntryAddress ring.base cursor + 8 ≤ ring.base + ringUsedOffset + (4 + ringNum * 8) := by
  unfold usedEntryAddress ringNum ringUsedOffset
  omega

/-- A descriptor lies in the table of its ring. -/
theorem descriptor_bounds (ring : Ring) {id : UInt16} (h : id.toNat < ringNum) :
    ring.base + id.toNat * descriptorSize + descriptorSize ≤ ring.base + 4096 := by
  unfold ringNum at h
  unfold descriptorSize
  omega

/-- The buffer of a posting is one slot of the pool. -/
structure Posting.InPool (posting : Posting) : Prop where
  lower : bufferBase ≤ posting.address
  upper : posting.address + posting.length ≤ bufferBase + bufferSize
  aligned : (posting.address - bufferBase) % bufferBytes = 0
  length : posting.length ≤ bufferBytes

theorem posting_in_pool {posting : Posting} {ring : Ring} (h : posting.Valid ring) :
    posting.InPool := by
  obtain ⟨_, _, hlength, hlower, hupper, haligned⟩ := descriptor_buffer_some h.buffer
  exact ⟨hlower, hupper, haligned, hlength⟩

/-- A posting is at least as long as its ring asks for. -/
theorem posting_minimum {posting : Posting} {ring : Ring} (h : posting.Valid ring) :
    ring.minimum ≤ posting.length := by
  have hminimum := (descriptor_buffer_some h.buffer).2.1
  have hsmall : ring.minimum % 2 ^ 32 = ring.minimum := by cases ring <;> rfl
  rw [hsmall] at hminimum
  exact hminimum

/-- Buffers at different addresses do not overlap. -/
theorem postings_apart {posting other : Posting} (h : posting.InPool) (hother : other.InPool)
    (hne : posting.address ≠ other.address) :
    posting.address + posting.length ≤ other.address ∨
      other.address + other.length ≤ posting.address := by
  obtain ⟨hlower, _, haligned, hlength⟩ := h
  obtain ⟨hlower', _, haligned', hlength'⟩ := hother
  unfold bufferBytes at *
  omega

/-! ## The invariant -/

/-- The echoes on ring 0 are those owed for the messages of ring 1 that were returned, and perhaps
for the next one. -/
def Accounts (placed : List Return) (consumed : Nat) (posted : List Posting) : Prop :=
  ∃ answered, consumed ≤ answered ∧ answered ≤ consumed + 1 ∧ answered ≤ posted.length ∧
    placed.filterMap Return.echo = (posted.take answered).filterMap Posting.echo

def Rings.Accounted (s : Rings) : Prop :=
  Accounts (s.returned .rx) (s.returned .tx).length (s.posted .tx)

/-- The invariant of the rings. -/
structure Rings.Valid (s : Rings) : Prop where
  counts : ∀ ring, (s.returned ring).length ≤ (s.posted ring).length
  avail : ∀ ring, u16 s.memory (availIndexAddress ring.base) = .ofNat (s.posted ring).length
  used : ∀ ring, u16 s.memory (usedIndexAddress ring.base) = .ofNat (s.returned ring).length
  offers : ∀ ring index posting, s.Outstanding ring index posting →
    Offers s.memory ring index posting
  bytes : ∀ index posting, s.Outstanding .tx index posting →
    s.memory.read posting.address posting.length = posting.bytes
  valid : ∀ ring (index : Nat) (posting : Posting),
    (s.posted ring)[index]? = some posting → posting.Valid ring
  ids : ∀ ring index posting other posting', s.Outstanding ring index posting →
    s.Outstanding ring other posting' → posting.id = posting'.id → index = other
  apart : ∀ index posting other posting', s.Outstanding .rx index posting →
    s.Outstanding .tx other posting' → posting.address ≠ posting'.address
  order : ∀ ring, (s.returned ring).map Return.id =
    ((s.posted ring).take (s.returned ring).length).map fun posting => posting.id.toUInt32
  accounted : s.Accounted

/-- At most 256 descriptors of a ring are outstanding. -/
theorem outstanding_bound {s : Rings} (h : s.Valid) (ring : Ring) :
    (s.posted ring).length ≤ (s.returned ring).length + ringNum := by
  -- Each outstanding index has an identity below 256 of its own.
  have hcounts := h.counts ring
  have hget : ∀ offset : Fin ((s.posted ring).length - (s.returned ring).length),
      s.Outstanding ring ((s.returned ring).length + offset)
        ((s.posted ring).get ⟨(s.returned ring).length + offset, by omega⟩) := by
    intro offset
    exact ⟨by omega, List.getElem?_eq_getElem (by omega)⟩
  let identity : Fin ((s.posted ring).length - (s.returned ring).length) → Fin ringNum :=
    fun offset => ⟨_, (h.valid ring _ _ (hget offset).2).id⟩
  have hinjective : Function.Injective identity := by
    intro first second heq
    have hid := UInt16.toNat_inj.1 (Fin.mk.inj heq)
    have hindex := h.ids ring _ _ _ _ (hget first) (hget second) hid
    exact Fin.ext (by omega)
  have hcard := Fintype.card_le_of_injective identity hinjective
  rw [Fintype.card_fin, Fintype.card_fin] at hcard
  omega

/-! ## What keeps the invariant -/

/-- The bytes that the invariant speaks of. -/
inductive Rings.Reserved (s : Rings) (address : Nat) : Prop where
  | avail (ring : Ring) (h : Within (availIndexAddress ring.base) 2 address)
  | used (ring : Ring) (h : Within (usedIndexAddress ring.base) 2 address)
  | offer (ring : Ring) (index : Nat) (posting : Posting)
      (houtstanding : s.Outstanding ring index posting)
      (h : Within (availEntryAddress ring.base (.ofNat index)) 2 address ∨
        Within (ring.base + posting.id.toNat * descriptorSize) descriptorSize address)
  | bytes (index : Nat) (posting : Posting) (houtstanding : s.Outstanding .tx index posting)
      (h : Within posting.address posting.length address)

theorem offers_congr {memory other : Memory} {ring : Ring} {index : Nat} {posting : Posting}
    (h : Offers memory ring index posting)
    (hsame : ∀ address, Within (availEntryAddress ring.base (.ofNat index)) 2 address ∨
        Within (ring.base + posting.id.toNat * descriptorSize) descriptorSize address →
      other.byte address = memory.byte address) : Offers other ring index posting := by
  constructor
  · rw [u16_congr fun target htarget => hsame target (.inl htarget)]
    exact h.entry
  · rw [descriptor_at_congr fun target htarget => hsame target (.inr htarget)]
    exact h.descriptor

/-- Memory may change outside the reserved bytes. -/
theorem valid_memory {s : Rings} (h : s.Valid) {memory : Memory}
    (hsame : ∀ address, s.Reserved address → memory.byte address = s.memory.byte address) :
    Rings.Valid { s with memory := memory } where
  counts := h.counts
  avail ring := (u16_congr fun target htarget => hsame target (.avail ring htarget)).trans
    (h.avail ring)
  used ring := (u16_congr fun target htarget => hsame target (.used ring htarget)).trans
    (h.used ring)
  offers ring index posting houtstanding :=
    offers_congr (h.offers ring index posting houtstanding) fun target htarget =>
      hsame target (.offer ring index posting houtstanding htarget)
  bytes index posting houtstanding := by
    refine (Memory.read_congr fun target hlow hhigh => ?_).trans
      (h.bytes index posting houtstanding)
    exact hsame target (.bytes index posting houtstanding ⟨hlow, hhigh⟩)
  valid := h.valid
  ids := h.ids
  apart := h.apart
  order := h.order
  accounted := h.accounted

/-- Reserved bytes are none of the used entries. -/
theorem reserved_not_entry {s : Rings} (h : s.Valid) {address : Nat} (hreserved : s.Reserved address)
    (ring : Ring) : ¬ Within (ring.base + 8196) (ringNum * 8) address := by
  rintro ⟨hlow, hhigh⟩
  have hbuffers := ring_below_buffers ring
  unfold ringNum at hhigh
  have hother : ∀ other : Ring, Within (other.base) 8196 address → False := by
    rintro other ⟨hlow', hhigh'⟩
    by_cases heq : other = ring
    · subst heq
      omega
    · have hrings := rings_apart heq
      omega
  cases hreserved with
  | avail other h' =>
      have heq := avail_index_eq other
      exact hother other ⟨by have := h'.1; omega, by have := h'.2; omega⟩
  | used other h' =>
      have heq := used_index_eq other
      exact hother other ⟨by have := h'.1; omega, by have := h'.2; omega⟩
  | offer other index posting houtstanding h' =>
      have hentry := avail_entry_bounds other (.ofNat index)
      have hdescriptor := descriptor_bounds other (h.valid other index posting houtstanding.2).id
      unfold ringUsedOffset at hentry
      rcases h' with h' | h'
      · exact hother other ⟨by have := h'.1; omega, by have := h'.2; omega⟩
      · exact hother other ⟨by have := h'.1; omega, by have := h'.2; omega⟩
  | bytes index posting houtstanding h' =>
      have hpool := (posting_in_pool (h.valid .tx index posting houtstanding.2)).lower
      have hlow' := h'.1
      omega

/-- Nor are they in a buffer that is outstanding on ring 0. -/
theorem reserved_not_buffer {s : Rings} (h : s.Valid) {address : Nat}
    (hreserved : s.Reserved address) {index : Nat} {posting : Posting}
    (houtstanding : s.Outstanding .rx index posting) :
    ¬ Within posting.address posting.length address := by
  rintro ⟨hlow, hhigh⟩
  have hpool := posting_in_pool (h.valid .rx index posting houtstanding.2)
  have hbase := hpool.lower
  have hother : ∀ ring : Ring, address < ring.base + 8196 → False := by
    intro ring hring
    have hbelow := ring_below_buffers ring
    omega
  cases hreserved with
  | avail ring h' =>
      have heq := avail_index_eq ring
      exact hother ring (by have := h'.2; omega)
  | used ring h' =>
      have heq := used_index_eq ring
      exact hother ring (by have := h'.2; omega)
  | offer ring index' posting' houtstanding' h' =>
      have hentry := avail_entry_bounds ring (.ofNat index')
      have hdescriptor := descriptor_bounds ring (h.valid ring index' posting' houtstanding'.2).id
      unfold ringUsedOffset at hentry
      rcases h' with h' | h'
      · exact hother ring (by have := h'.2; omega)
      · exact hother ring (by have := h'.2; omega)
  | bytes index' posting' houtstanding' h' =>
      have hapart := postings_apart hpool
        (posting_in_pool (h.valid .tx index' posting' houtstanding'.2))
        (h.apart index posting index' posting' houtstanding houtstanding')
      have hlow' := h'.1
      have hhigh' := h'.2
      omega

/-! ## Posting -/

theorem posted_post_self (s : Rings) (ring : Ring) (posting : Posting) :
    (s.post ring posting).posted ring = s.posted ring ++ [posting] :=
  Function.update_self ..

theorem posted_post_other (s : Rings) {ring other : Ring} (h : other ≠ ring) (posting : Posting) :
    (s.post ring posting).posted other = s.posted other :=
  Function.update_of_ne h ..

theorem outstanding_post {s : Rings} {ring : Ring} {posting : Posting} {other : Ring} {index : Nat}
    {found : Posting} (h : (s.post ring posting).Outstanding other index found) :
    s.Outstanding other index found ∨
      (other = ring ∧ index = (s.posted ring).length ∧ found = posting) := by
  obtain ⟨hlow, hget⟩ := h
  by_cases heq : other = ring
  · subst heq
    rw [posted_post_self, List.getElem?_append] at hget
    split at hget
    · exact .inl ⟨hlow, hget⟩
    · rename_i hlength
      have hindex := List.getElem?_eq_some_iff.mp hget
      obtain ⟨hone, hfound⟩ := hindex
      rw [List.length_singleton] at hone
      simp only [List.getElem_singleton] at hfound
      exact .inr ⟨rfl, by omega, hfound.symm⟩
  · rw [posted_post_other _ heq] at hget
    exact .inl ⟨hlow, hget⟩

/-- Posting a buffer keeps the invariant. -/
theorem valid_post {s : Rings} (h : s.Valid) {ring : Ring} {posting : Posting}
    (hoffers : Offers s.memory ring (s.posted ring).length posting)
    (hbytes : s.memory.read posting.address posting.length = posting.bytes)
    (hvalid : posting.Valid ring)
    (hid : ∀ index other, s.Outstanding ring index other → other.id ≠ posting.id)
    (haddress : ∀ ring index other, s.Outstanding ring index other →
      other.address ≠ posting.address) : (s.post ring posting).Valid := by
  -- Only the available index of the ring is written.
  have houtside : ∀ target, ¬ Within (availIndexAddress ring.base) 2 target →
      (s.post ring posting).memory.byte target = s.memory.byte target := by
    intro target htarget
    refine Memory.write_outside _ ?_
    rw [le_bytes_length]
    unfold Within at htarget
    omega
  have hoffered : ∀ other index found, found.Valid other → Offers s.memory other index found →
      Offers (s.post ring posting).memory other index found := by
    intro other index found hfound hold
    refine offers_congr hold fun target htarget => houtside target ?_
    rintro ⟨hlow, hhigh⟩
    have heq := avail_index_eq ring
    have hentry := avail_entry_bounds other (.ofNat index)
    have hdescriptor := descriptor_bounds other hfound.id
    unfold ringUsedOffset at hentry
    unfold Within descriptorSize at htarget
    unfold descriptorSize at hdescriptor
    by_cases hsame : other = ring
    · subst hsame
      omega
    · have hrings := rings_apart hsame
      omega
  have hread : ∀ found : Posting, found.InPool →
      (s.post ring posting).memory.read found.address found.length
        = s.memory.read found.address found.length := by
    intro found hfound
    refine Memory.read_congr fun target hlow hhigh => houtside target ?_
    rintro ⟨_, hhigh'⟩
    have heq := avail_index_eq ring
    have hbuffers := ring_below_buffers ring
    have hlower := hfound.lower
    omega
  have hlength : ∀ other, (s.posted other).length ≤ ((s.post ring posting).posted other).length := by
    intro other
    by_cases heq : other = ring
    · subst heq
      rw [posted_post_self, List.length_append]
      omega
    · rw [posted_post_other _ heq]
  have htake : ∀ other count, count ≤ (s.posted other).length →
      ((s.post ring posting).posted other).take count = (s.posted other).take count := by
    intro other count hcount
    by_cases heq : other = ring
    · subst heq
      rw [posted_post_self, List.take_append_of_le_length hcount]
    · rw [posted_post_other _ heq]
  refine ⟨fun other => Nat.le_trans (h.counts other) (hlength other), ?_, ?_, ?_, ?_, ?_, ?_, ?_,
    ?_, ?_⟩
  · intro other
    by_cases heq : other = ring
    · subst heq
      rw [posted_post_self, List.length_append]
      exact u16_write_self ..
    · rw [posted_post_other _ heq]
      refine (u16_congr fun target htarget => houtside target ?_).trans (h.avail other)
      have hrings := rings_apart heq
      have hfirst := avail_index_eq ring
      have hsecond := avail_index_eq other
      unfold Within at htarget ⊢
      omega
  · intro other
    refine (u16_congr fun target htarget => houtside target ?_).trans (h.used other)
    have hfirst := avail_index_eq ring
    have hsecond := used_index_eq other
    unfold Within at htarget ⊢
    by_cases heq : other = ring
    · subst heq
      omega
    · have hrings := rings_apart heq
      omega
  · intro other index found houtstanding
    rcases outstanding_post houtstanding with hold | ⟨rfl, rfl, rfl⟩
    · exact hoffered other index found (h.valid other index found hold.2) (h.offers _ _ _ hold)
    · exact hoffered _ _ _ hvalid hoffers
  · intro index found houtstanding
    rcases outstanding_post houtstanding with hold | ⟨rfl, rfl, rfl⟩
    · exact (hread found (posting_in_pool (h.valid _ _ _ hold.2))).trans (h.bytes _ _ hold)
    · exact (hread _ (posting_in_pool hvalid)).trans hbytes
  · intro other index found hget
    by_cases hlow : (s.returned other).length ≤ index
    · rcases outstanding_post ⟨hlow, hget⟩ with hold | ⟨rfl, rfl, rfl⟩
      · exact h.valid _ _ _ hold.2
      · exact hvalid
    · refine h.valid other index found ?_
      have hcounts := h.counts other
      by_cases heq : other = ring
      · subst heq
        rwa [posted_post_self, List.getElem?_append_left (by omega)] at hget
      · rwa [posted_post_other _ heq] at hget
  · intro other index found index' found' houtstanding houtstanding' hsame
    rcases outstanding_post houtstanding with hold | ⟨rfl, rfl, rfl⟩
    · rcases outstanding_post houtstanding' with hold' | ⟨rfl, rfl, rfl⟩
      · exact h.ids _ _ _ _ _ hold hold' hsame
      · exact absurd hsame (hid _ _ hold)
    · rcases outstanding_post houtstanding' with hold' | ⟨_, rfl, rfl⟩
      · exact absurd hsame.symm (hid _ _ hold')
      · rfl
  · intro index found index' found' houtstanding houtstanding'
    rcases outstanding_post houtstanding with hold | ⟨hring, rfl, rfl⟩
    · rcases outstanding_post houtstanding' with hold' | ⟨hring', rfl, rfl⟩
      · exact h.apart _ _ _ _ hold hold'
      · exact haddress _ _ _ hold
    · rcases outstanding_post houtstanding' with hold' | ⟨hring', rfl, rfl⟩
      · exact (haddress _ _ _ hold').symm
      · exact absurd (hring.trans hring'.symm) (by decide)
  · intro other
    refine (h.order other).trans ?_
    rw [← htake other _ (h.counts other)]
    rfl
  · obtain ⟨answered, hlow, hhigh, hbound, haccounts⟩ := h.accounted
    exact ⟨answered, hlow, hhigh, Nat.le_trans hbound (hlength .tx),
      haccounts.trans (by rw [htake .tx _ hbound])⟩

/-- The steps of the driver keep the invariant. -/
theorem valid_host {s next : Rings} (h : s.Valid) (hstep : HostStep s next)
    (hproper : Proper s next) : next.Valid := by
  cases hstep with
  | write hkept havail =>
      refine valid_memory h fun address hreserved => ?_
      cases hreserved with
      | avail ring h' => exact havail ring address h'
      | used ring h' =>
          refine hkept address (.used ring ?_)
          have heq := used_index_eq ring
          unfold Within ringNum ringUsedOffset at *
          omega
      | offer ring index posting houtstanding h' =>
          exact hkept address (.outstanding ring index posting houtstanding (by tauto))
      | bytes index posting houtstanding h' =>
          exact hkept address (.outstanding .tx index posting houtstanding (.inr (.inr h')))
  | @post ring posting hoffers hbytes hid haddress =>
      have hvalid : posting.Valid ring := by
        refine hproper.valid ring posting ?_
        rw [posted_post_self]
        exact List.mem_append_right _ List.mem_cons_self
      exact valid_post h hoffers hbytes hvalid hid haddress

/-! ## Returning -/

section

variable {s : Rings} {ring : Ring} {posting : Posting}

/-- The next descriptor to return. -/
def Rings.Head (s : Rings) (ring : Ring) (posting : Posting) : Prop :=
  (s.posted ring)[(s.returned ring).length]? = some posting

theorem outstanding_head (h : s.Head ring posting) :
    s.Outstanding ring (s.returned ring).length posting :=
  ⟨Nat.le_refl _, h⟩

/-- The rings after the used index has moved over one entry. -/
def Rings.handBack (s : Rings) (ring : Ring) : Rings :=
  s.publish ring (.ofNat ((s.returned ring).length + 1))

theorem hand_back_returned (h : s.Valid) : (s.handBack ring).returned =
    Function.update s.returned ring (s.returned ring ++
      [usedEntry s.memory ring (.ofNat (s.returned ring).length)]) := by
  have hone : UInt16.ofNat ((s.returned ring).length + 1) - .ofNat (s.returned ring).length = 1 := by
    rw [UInt16.ofNat_add, UInt16.add_comm, UInt16.add_sub_cancel]
    rfl
  have hzero : UInt16.ofNat (s.returned ring).length + .ofNat 0 = .ofNat (s.returned ring).length :=
    UInt16.add_zero _
  show Function.update s.returned ring (s.returned ring ++ List.map _ (List.range
    (UInt16.ofNat ((s.returned ring).length + 1) - u16 s.memory (usedIndexAddress ring.base)).toNat))
    = _
  rw [h.used ring, hone, UInt16.toNat_one, List.range_one, List.map_singleton, hzero]

theorem outstanding_hand_back {other : Ring} {index : Nat} {found : Posting} (h : s.Valid)
    (houtstanding : (s.handBack ring).Outstanding other index found) :
    s.Outstanding other index found := by
  obtain ⟨hlow, hget⟩ := houtstanding
  refine ⟨Nat.le_trans ?_ hlow, hget⟩
  rw [hand_back_returned h]
  by_cases heq : other = ring
  · subst heq
    rw [Function.update_self, List.length_append]
    omega
  · rw [Function.update_of_ne heq]

/-- Returning the head keeps the invariant when the echoes still account for the messages. -/
theorem valid_hand_back (h : s.Valid) (hhead : s.Head ring posting)
    (hid : u32 s.memory (usedEntryAddress ring.base (.ofNat (s.returned ring).length))
      = posting.id.toUInt32)
    (haccounted : (s.handBack ring).Accounted) : (s.handBack ring).Valid := by
  have hlength : (s.returned ring).length < (s.posted ring).length :=
    (List.getElem?_eq_some_iff.mp hhead).1
  have houtside : ∀ target, ¬ Within (usedIndexAddress ring.base) 2 target →
      (s.handBack ring).memory.byte target = s.memory.byte target := by
    intro target htarget
    refine Memory.write_outside _ ?_
    rw [le_bytes_length]
    unfold Within at htarget
    omega
  have hring : ∀ (other : Ring) (target : Nat), Within other.base 8194 target →
      ¬ Within (usedIndexAddress ring.base) 2 target := by
    rintro other target ⟨hlow, hhigh⟩ ⟨hlow', hhigh'⟩
    have heq := used_index_eq ring
    by_cases hsame : other = ring
    · subst hsame
      omega
    · have hrings := rings_apart hsame
      omega
  refine ⟨?_, ?_, ?_, ?_, ?_, h.valid, ?_, ?_, ?_, haccounted⟩
  · intro other
    rw [hand_back_returned h]
    by_cases heq : other = ring
    · subst heq
      rw [Function.update_self, List.length_append]
      exact hlength
    · rw [Function.update_of_ne heq]
      exact h.counts other
  · intro other
    refine (u16_congr fun target htarget => houtside target (hring other target ?_)).trans
      (h.avail other)
    have heq := avail_index_eq other
    unfold Within at htarget ⊢
    omega
  · intro other
    rw [hand_back_returned h]
    by_cases heq : other = ring
    · subst heq
      rw [Function.update_self, List.length_append]
      exact (u16_write_self ..).trans (UInt16.toNat_inj.mp (by simp))
    · rw [Function.update_of_ne heq]
      refine (u16_congr fun target htarget => houtside target ?_).trans (h.used other)
      have hfirst := used_index_eq other
      have hsecond := used_index_eq ring
      have hrings := rings_apart heq
      unfold Within at htarget ⊢
      omega
  · intro other index found houtstanding
    have hold := outstanding_hand_back h houtstanding
    refine offers_congr (h.offers other index found hold) fun target htarget =>
      houtside target (hring other target ?_)
    have hentry := avail_entry_bounds other (.ofNat index)
    have hdescriptor := descriptor_bounds other (h.valid other index found hold.2).id
    unfold ringUsedOffset at hentry
    unfold Within at htarget ⊢
    unfold descriptorSize at htarget hdescriptor
    omega
  · intro index found houtstanding
    have hold := outstanding_hand_back h houtstanding
    refine (Memory.read_congr fun target hlow _ => houtside target ?_).trans (h.bytes index found hold)
    rintro ⟨_, hhigh⟩
    have heq := used_index_eq ring
    have hbuffers := ring_below_buffers ring
    have hlower := (posting_in_pool (h.valid .tx index found hold.2)).lower
    omega
  · intro other index found index' found' houtstanding houtstanding' hsame
    exact h.ids other index found index' found' (outstanding_hand_back h houtstanding)
      (outstanding_hand_back h houtstanding') hsame
  · intro index found index' found' houtstanding houtstanding'
    exact h.apart index found index' found' (outstanding_hand_back h houtstanding)
      (outstanding_hand_back h houtstanding')
  · intro other
    rw [hand_back_returned h]
    by_cases heq : other = ring
    · subst heq
      rw [Function.update_self, List.length_append, List.length_singleton, List.map_append,
        h.order other]
      show _ = ((s.posted other).take ((s.returned other).length + 1)).map _
      rw [List.take_add_one, hhead, List.map_append, List.map_singleton]
      exact congrArg (_ ++ [·]) hid
    · rw [Function.update_of_ne heq]
      exact h.order other

end

end NanoKvm.Rpmsg
