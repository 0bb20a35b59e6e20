import Mathlib.Tactic.Common
import NanoKvm.Exec.LittleEndian
import NanoKvm.Exec.Registers
import NanoKvm.Exec.Traces
import NanoKvm.Text.Numerals

/-!
# The eFuse driver

`sg2002_efuse_read` serves bytes at any offset by reading whole words of the shadow aperture. The
keepout table hides what is not public: the NVMEM core fills those parts of a request with zeros
and calls the driver for the others. `public_reads` says that nothing else gets out.
-/

namespace NanoKvm.Efuse

open Exec

/-! ## The driver -/

/-- `SG2002_EFUSE_SHADOW`, `SG2002_EFUSE_SIZE`, `SG2002_EFUSE_UID` and `SG2002_EFUSE_UID_SIZE` -/
def shadow : Nat := 0x100
def size : Nat := 0x100
def uid : Nat := 0x0c
def uidSize : Nat := 8

/-- `ETH_ALEN` -/
def ethAlen : Nat := 6

/-- What the driver asks of the kernel and of the hardware. -/
inductive Op where
  | mutexLock | mutexUnlock | clkEnable | clkDisable
  | readl (address : Nat)
  deriving DecidableEq, Repr

/-- `clk_bulk_prepare_enable` returns zero or an error code. -/
abbrev Ret : Op → Type
  | .clkEnable => Int
  | .readl _ => Word
  | _ => Unit

/-- `struct nvmem_keepout` -/
structure Keepout where
  start : Nat
  stop : Nat
  deriving DecidableEq, Repr

/-- `sg2002_efuse_keepout` -/
def keepout : List Keepout := [
  ⟨0x00, 0x0c⟩, ⟨0x14, 0x40⟩, ⟨0x44, 0x48⟩, ⟨0x4c, 0x50⟩, ⟨0x54, 0x58⟩, ⟨0x5c, 0x60⟩,
  ⟨0x64, 0x68⟩, ⟨0x6c, 0x70⟩, ⟨0x74, 0x78⟩, ⟨0x7c, 0x80⟩, ⟨0x84, 0x88⟩, ⟨0x94, size⟩]

/-- The loop of `sg2002_efuse_read`, which takes what it needs of one word at a time. -/
def readWords (offset bytes : Nat) : Prog Op Ret (List UInt8) :=
  if _hdone : bytes = 0 then pure []
  else do
    let skip := offset % 4
    let count := min bytes (4 - skip)
    let word ← .perform (.readl (shadow + (offset - offset % 4)))
    let rest ← readWords (offset + count) (bytes - count)
    return (((leBytes 4 word.toNat).drop skip).take count) ++ rest
termination_by bytes
decreasing_by
  have : offset % 4 < 4 := Nat.mod_lt _ (by decide)
  omega

/-- `sg2002_efuse_read` -/
def efuseRead (offset bytes : Nat) : Prog Op Ret (Except Int (List UInt8)) := do
  .perform Op.mutexLock
  let ret ← .perform .clkEnable
  if ret ≠ 0 then
    .perform Op.mutexUnlock
    return .error ret
  else
    let buf ← readWords offset bytes
    .perform Op.clkDisable
    .perform Op.mutexUnlock
    return .ok buf

/-- `sha512` fills a digest of `SHA512_DIGEST_SIZE` bytes. -/
abbrev Sha512 : Type := List UInt8 → Vector UInt8 64

/-- `EINVAL` -/
def einval : Int := 22

/-- `sg2002_efuse_mac_pp` -/
def macPp (sha512 : Sha512) (data : List UInt8) : Except Int (List UInt8) :=
  if data.length ≠ uidSize then .error (-einval)
  else
    let low := ofLeBytes (data.take 4)
    let high := ofLeBytes ((data.drop 4).take 4)
    let text := "UID: ".toList ++ Text.fixedDigits 16 8 low ++ "_".toList
      ++ Text.fixedDigits 16 8 high ++ "\n".toList
    let digest := (sha512 (Text.utf8Bytes text)).toList
    let buf := [0x48, 0xda, 0x35, 0x6f] ++ digest.take (ethAlen - 4)
    .ok (buf ++ data.drop buf.length)

/-- `struct nvmem_cell_info`, as far as the driver reads or sets it; `node` is the name of `np`. -/
structure Cell where
  node : String
  offset : Nat
  bytes : Nat
  nbits : Nat
  rawLen : Nat
  readPostProcess : Option (List UInt8 → Except Int (List UInt8))

/-- `sg2002_efuse_fixup_dt_cell_info` -/
def fixupDtCellInfo (sha512 : Sha512) (cell : Cell) : Cell :=
  if cell.node ≠ "mac-address" ∨ cell.offset ≠ uid ∨ cell.bytes ≠ uidSize ∨ cell.nbits ≠ 0 then cell
  else { cell with rawLen := uidSize, bytes := ethAlen, readPostProcess := some (macPp sha512) }

/-! ## The NVMEM core -/

/-- The offset is inside a keepout. -/
def Kept (keepouts : List Keepout) (offset : Nat) : Prop :=
  ∃ zone ∈ keepouts, zone.start ≤ offset ∧ offset < zone.stop

instance (keepouts : List Keepout) (offset : Nat) : Decidable (Kept keepouts offset) :=
  inferInstanceAs (Decidable (∃ _ ∈ _, _))

/-- A part of a request: filled with zeros or read from the driver. -/
inductive Part where
  | zeros (count : Nat)
  | regRead (count : Nat)
  deriving DecidableEq, Repr

/-- How the core divides a request from `offset` up to `stop`: what is inside a keepout is filled
with zeros, and every maximal run outside them is one call of the driver. -/
inductive Divides (keepouts : List Keepout) : Nat → Nat → List Part → Prop where
  | done (stop : Nat) : Divides keepouts stop stop []
  | zeros {offset count stop : Nat} {rest : List Part} (hsome : 0 < count)
      (hkept : ∀ inside < count, Kept keepouts (offset + inside))
      (hrest : Divides keepouts (offset + count) stop rest) :
      Divides keepouts offset stop (.zeros count :: rest)
  | regRead {offset count stop : Nat} {rest : List Part} (hsome : 0 < count)
      (hopen : ∀ inside < count, ¬ Kept keepouts (offset + inside))
      (hmaximal : offset + count = stop ∨ Kept keepouts (offset + count))
      (hrest : Divides keepouts (offset + count) stop rest) :
      Divides keepouts offset stop (.regRead count :: rest)

/-- `nvmem_reg_read` over the parts of a request. -/
def regRead : List Part → Nat → Prog Op Ret (Except Int (List UInt8))
  | [], _ => pure (.ok [])
  | .zeros count :: parts, offset => do
      match ← regRead parts (offset + count) with
      | .error ret => return .error ret
      | .ok bytes => return .ok (List.replicate count 0 ++ bytes)
  | .regRead count :: parts, offset => do
      match ← efuseRead offset count with
      | .error ret => return .error ret
      | .ok bytes =>
          match ← regRead parts (offset + count) with
          | .error ret => return .error ret
          | .ok rest => return .ok (bytes ++ rest)

/-- `nvmem_cell_read`: the raw bytes, shifted when the cell is a bit field, then post-processed. -/
def cellRead (shift : Cell → List UInt8 → List UInt8) (cell : Cell) (parts : List Part) :
    Prog Op Ret (Except Int (List UInt8)) := do
  match ← regRead parts cell.offset with
  | .error ret => return .error ret
  | .ok raw =>
      let buf := if cell.nbits ≠ 0 then shift cell raw else raw
      match cell.readPostProcess with
      | none => return .ok (buf.take cell.bytes)
      | some postProcess =>
          match postProcess buf with
          | .error ret => return .error ret
          | .ok buf => return .ok (buf.take cell.bytes)

/-- The length of what the core reads for a cell. -/
def Cell.rawBytes (cell : Cell) : Nat := if cell.rawLen = 0 then cell.bytes else cell.rawLen

/-! ## What is public -/

/-- The UID, ten user words with gaps of a word, and the device ID. -/
def Public (offset : Nat) : Prop :=
  (0x0c ≤ offset ∧ offset < 0x14) ∨
  (∃ word < 10, 0x40 + 8 * word ≤ offset ∧ offset < 0x44 + 8 * word) ∨
  (0x8c ≤ offset ∧ offset < 0x94)

instance (offset : Nat) : Decidable (Public offset) :=
  inferInstanceAs (Decidable (_ ∨ _))

/-- The byte of the shadow at an offset. -/
def byteAt (regs : RegisterFile) (offset : Nat) : UInt8 :=
  .ofNat ((regs (shadow + (offset - offset % 4))).toNat / 256 ^ (offset % 4))

/-- The public bytes of a request, with zeros for the others. -/
def publicBytes (regs : RegisterFile) (offset count : Nat) : List UInt8 :=
  (List.range' offset count).map fun offset => if Public offset then byteAt regs offset else 0

theorem kept_iff {offset : Nat} (h : offset < size) : Kept keepout offset ↔ ¬ Public offset := by
  revert offset
  show ∀ offset < 256, _
  decide +kernel

/-! ## What a read leaves -/

/-- The registers answered what the file holds. -/
def Answered (regs : RegisterFile) (events : List (Event Op Ret)) : Prop :=
  ∀ address word, (⟨.readl address, word⟩ : Event Op Ret) ∈ events → word = regs address

/-- Every register word that was touched is allowed. -/
def Touches (allowed : Nat → Prop) (events : List (Event Op Ret)) : Prop :=
  ∀ address word, (⟨.readl address, word⟩ : Event Op Ret) ∈ events → allowed address

/-- The word of a public byte. -/
def PublicWord (address : Nat) : Prop :=
  ∃ offset, Public offset ∧ address = shadow + (offset - offset % 4)

/-- The clocks did not start, and their error is the result. -/
def ClockFailed (events : List (Event Op Ret)) (result : Except Int (List UInt8)) : Prop :=
  ∃ ret : Int, ret ≠ 0 ∧ (⟨.clkEnable, ret⟩ : Event Op Ret) ∈ events ∧ result = .error ret

section

variable {regs : RegisterFile} {first second events : List (Event Op Ret)} {allowed : Nat → Prop}

theorem answered_append :
    Answered regs (first ++ second) ↔ Answered regs first ∧ Answered regs second := by
  constructor
  · intro h
    exact ⟨fun address word hmem => h address word (List.mem_append_left _ hmem),
      fun address word hmem => h address word (List.mem_append_right _ hmem)⟩
  · intro h address word hmem
    rcases List.mem_append.mp hmem with hfirst | hsecond
    · exact h.1 address word hfirst
    · exact h.2 address word hsecond

theorem touches_append (hfirst : Touches allowed first) (hsecond : Touches allowed second) :
    Touches allowed (first ++ second) := by
  intro address word hmem
  rcases List.mem_append.mp hmem with hfirst' | hsecond'
  · exact hfirst address word hfirst'
  · exact hsecond address word hsecond'

theorem ClockFailed.mono {result : Except Int (List UInt8)} (h : ClockFailed events result)
    (hsubset : events ⊆ first) : ClockFailed first result := by
  obtain ⟨ret, hne, hmem, hresult⟩ := h
  exact ⟨ret, hne, hsubset hmem, hresult⟩

theorem not_clock_failed_ok {bytes : List UInt8} : ¬ ClockFailed events (.ok bytes) := by
  intro h
  obtain ⟨ret, _, _, hresult⟩ := h
  cases hresult

theorem touches_nil : Touches allowed [] := fun _ _ hmem => absurd hmem List.not_mem_nil

/-- A slice of a word. -/
theorem slice_word (word : Nat) {skip count : Nat} (h : skip + count ≤ 4) :
    ((leBytes 4 word).drop skip).take count
      = (List.range' skip count).map fun index => .ofNat (word / 256 ^ index) := by
  apply List.ext_getElem?
  intro index
  rw [List.getElem?_take, List.getElem?_map]
  by_cases hlt : index < count
  · rw [if_pos hlt, List.getElem?_drop, le_bytes_get (by omega), List.getElem?_range' hlt]
    simp
  · rw [if_neg hlt, List.getElem?_eq_none (by simpa using hlt)]
    rfl

theorem slice_bytes (regs : RegisterFile) {offset count : Nat} (h : offset % 4 + count ≤ 4) :
    ((leBytes 4 (regs (shadow + (offset - offset % 4))).toNat).drop (offset % 4)).take count
      = (List.range' offset count).map (byteAt regs) := by
  rw [slice_word _ h]
  apply List.ext_getElem?
  intro index
  rw [List.getElem?_map, List.getElem?_map]
  by_cases hlt : index < count
  · have hrest : (offset + index) % 4 = offset % 4 + index := by omega
    have hword : offset + index - (offset % 4 + index) = offset - offset % 4 := by omega
    rw [List.getElem?_range' hlt, List.getElem?_range' hlt]
    simp only [Nat.one_mul, Option.map_some, byteAt, hrest, hword]
  · rw [List.getElem?_eq_none (by simpa using hlt), List.getElem?_eq_none (by simpa using hlt)]
    rfl

/-- The loop returns the bytes of the shadow, whatever the alignment, and touches their words. -/
theorem read_words_trace {offset bytes : Nat} {result : List UInt8}
    (h : (readWords offset bytes).Trace events result) :
    Touches (fun address => ∃ inside < bytes,
        address = shadow + (offset + inside - (offset + inside) % 4)) events ∧
      (Answered regs events → result = (List.range' offset bytes).map (byteAt regs)) := by
  induction bytes using Nat.strong_induction_on generalizing offset events result with
  | _ bytes ih =>
      rw [readWords] at h
      split at h
      · rename_i hzero
        obtain ⟨rfl, rfl⟩ := Prog.trace_pure.mp h
        subst hzero
        exact ⟨touches_nil, fun _ => rfl⟩
      · rename_i hsome
        obtain ⟨word, later, rfl, hlater⟩ := Prog.trace_perform.mp h
        obtain ⟨rest, last, value, rfl, hrest, hlast⟩ := Prog.trace_bind.mp hlater
        obtain ⟨rfl, rfl⟩ := Prog.trace_pure.mp hlast
        have hskip : offset % 4 < 4 := Nat.mod_lt _ (by decide)
        -- at least a byte and at most the rest of the word
        generalize hcount : min bytes (4 - offset % 4) = count at *
        have hpos : 0 < count := by omega
        have hle : count ≤ bytes := by omega
        obtain ⟨htouched, hvalue⟩ := ih (bytes - count) (by omega) hrest
        refine ⟨?_, ?_⟩
        · intro address found hmem
          rw [List.append_nil] at hmem
          rcases List.mem_cons.mp hmem with hfirst | hmem
          · cases hfirst
            exact ⟨0, by omega, rfl⟩
          · obtain ⟨inside, hinside, rfl⟩ := htouched address found hmem
            exact ⟨count + inside, by omega, by rw [← Nat.add_assoc]⟩
        · intro hanswered
          rw [List.append_nil] at hanswered
          have hword := hanswered _ _ List.mem_cons_self
          have hbytes := hvalue fun address found hmem =>
            hanswered address found (List.mem_cons_of_mem _ hmem)
          have hsplit : bytes = count + (bytes - count) := by omega
          rw [hword, hbytes, slice_bytes regs (by omega : offset % 4 + count ≤ 4),
            ← List.map_append, List.range'_append_1, ← hsplit]

/-- A call of the driver fails with its clocks or returns the bytes. -/
theorem efuse_read_trace {offset bytes : Nat} {result : Except Int (List UInt8)}
    (h : (efuseRead offset bytes).Trace events result) :
    Touches (fun address => ∃ inside < bytes,
        address = shadow + (offset + inside - (offset + inside) % 4)) events ∧
      (ClockFailed events result ∨ (Answered regs events →
        result = .ok ((List.range' offset bytes).map (byteAt regs)))) := by
  obtain ⟨_, clocked, rfl, hlocked⟩ := Prog.trace_perform.mp h
  obtain ⟨ret, later, rfl, hclocked⟩ := Prog.trace_perform.mp hlocked
  split at hclocked
  · rename_i hfailed
    obtain ⟨_, last, rfl, hlast⟩ := Prog.trace_perform.mp hclocked
    obtain ⟨rfl, rfl⟩ := Prog.trace_pure.mp hlast
    refine ⟨?_, .inl ⟨ret, hfailed, by simp, rfl⟩⟩
    intro address word hmem
    simp at hmem
  · obtain ⟨first, later, value, rfl, hloop, hdisable⟩ := Prog.trace_bind.mp hclocked
    obtain ⟨_, later, rfl, hunlock⟩ := Prog.trace_perform.mp hdisable
    obtain ⟨_, later, rfl, hlast⟩ := Prog.trace_perform.mp hunlock
    obtain ⟨rfl, rfl⟩ := Prog.trace_pure.mp hlast
    obtain ⟨htouched, hvalue⟩ := @read_words_trace regs _ _ _ _ hloop
    refine ⟨?_, .inr ?_⟩
    · intro address word hmem
      exact htouched address word (by simpa using hmem)
    · intro hanswered
      rw [hvalue fun address word hmem => hanswered address word (by simp [hmem])]

/-! ## Requests -/

theorem divides_le {keepouts : List Keepout} {offset stop : Nat} {parts : List Part}
    (h : Divides keepouts offset stop parts) : offset ≤ stop := by
  induction h with
  | done stop => exact Nat.le_refl stop
  | zeros hsome hkept hrest ih => omega
  | regRead hsome hopen hmaximal hrest ih => omega

theorem public_bytes_append (regs : RegisterFile) (offset first second : Nat) :
    publicBytes regs offset (first + second)
      = publicBytes regs offset first ++ publicBytes regs (offset + first) second := by
  unfold publicBytes
  rw [← List.range'_append_1, List.map_append]

/-- A run inside the keepouts shows zeros. -/
theorem public_bytes_kept (regs : RegisterFile) {offset count : Nat} (hsize : offset + count ≤ size)
    (h : ∀ inside < count, Kept keepout (offset + inside)) :
    publicBytes regs offset count = List.replicate count 0 := by
  rw [List.eq_replicate_iff]
  refine ⟨by simp [publicBytes], ?_⟩
  intro byte hmem
  obtain ⟨at', hat, rfl⟩ := List.mem_map.mp hmem
  obtain ⟨hge, hlt⟩ := List.mem_range'_1.mp hat
  have hkept := h (at' - offset) (by omega)
  rw [Nat.add_sub_cancel' hge] at hkept
  exact if_neg ((kept_iff (by omega)).mp hkept)

/-- A run outside them shows the shadow. -/
theorem public_bytes_open (regs : RegisterFile) {offset count : Nat} (hsize : offset + count ≤ size)
    (h : ∀ inside < count, ¬ Kept keepout (offset + inside)) :
    publicBytes regs offset count = (List.range' offset count).map (byteAt regs) := by
  refine List.map_congr_left fun at' hat => ?_
  obtain ⟨hge, hlt⟩ := List.mem_range'_1.mp hat
  have hopen := h (at' - offset) (by omega)
  rw [Nat.add_sub_cancel' hge, kept_iff (by omega), Decidable.not_not] at hopen
  exact if_pos hopen

/-- However the request is divided, public words are touched and public bytes are returned. -/
theorem reg_read_trace {offset stop : Nat} {parts : List Part} {result : Except Int (List UInt8)}
    (hparts : Divides keepout offset stop parts) (hstop : stop ≤ size)
    (h : (regRead parts offset).Trace events result) :
    Touches PublicWord events ∧ (ClockFailed events result ∨
      (Answered regs events → result = .ok (publicBytes regs offset (stop - offset)))) := by
  induction hparts generalizing events result with
  | done stop =>
      obtain ⟨rfl, rfl⟩ := Prog.trace_pure.mp h
      refine ⟨touches_nil, .inr fun _ => ?_⟩
      rw [Nat.sub_self]
      rfl
  | @zeros offset count stop rest hsome hkept hrest ih =>
      have hle := divides_le hrest
      obtain ⟨first, last, value, rfl, hread, hlast⟩ := Prog.trace_bind.mp h
      obtain ⟨htouched, hvalue⟩ := ih hstop hread
      have hsplit : stop - offset = count + (stop - (offset + count)) := by omega
      rw [hsplit, public_bytes_append, public_bytes_kept regs (by omega) hkept]
      cases value with
      | error ret =>
          obtain ⟨rfl, rfl⟩ := Prog.trace_pure.mp hlast
          rw [List.append_nil]
          refine ⟨htouched, hvalue.imp_right fun hok hanswered => ?_⟩
          cases hok hanswered
      | ok bytes =>
          obtain ⟨rfl, rfl⟩ := Prog.trace_pure.mp hlast
          rw [List.append_nil]
          refine ⟨htouched, .inr fun hanswered => ?_⟩
          rw [Except.ok.inj (hvalue.resolve_left not_clock_failed_ok hanswered)]
  | @regRead offset count stop rest hsome hopen hmaximal hrest ih =>
      have hle := divides_le hrest
      obtain ⟨first, later, value, rfl, hdriver, hlater⟩ := Prog.trace_bind.mp h
      obtain ⟨htouched, hvalue⟩ := @efuse_read_trace regs _ _ _ _ hdriver
      have hpublic : Touches PublicWord first := by
        intro address word hmem
        obtain ⟨inside, hinside, hword⟩ := htouched address word hmem
        have := hopen inside hinside
        rw [kept_iff (by omega), Decidable.not_not] at this
        exact ⟨_, this, hword⟩
      have hsplit : stop - offset = count + (stop - (offset + count)) := by omega
      rw [hsplit, public_bytes_append, public_bytes_open regs (by omega) hopen]
      cases value with
      | error ret =>
          obtain ⟨rfl, rfl⟩ := Prog.trace_pure.mp hlater
          rw [List.append_nil]
          refine ⟨hpublic, hvalue.imp_right fun hok hanswered => ?_⟩
          cases hok hanswered
      | ok bytes =>
          obtain ⟨second, last, value, rfl, hread, hlast⟩ := Prog.trace_bind.mp hlater
          obtain ⟨htouched', hvalue'⟩ := ih hstop hread
          cases value with
          | error ret =>
              obtain ⟨rfl, rfl⟩ := Prog.trace_pure.mp hlast
              rw [List.append_nil]
              refine ⟨touches_append hpublic htouched', hvalue'.imp ?_ ?_⟩
              · exact fun hfailed => hfailed.mono (List.subset_append_right _ _)
              · intro hok hanswered
                cases hok (answered_append.mp hanswered).2
          | ok rest =>
              obtain ⟨rfl, rfl⟩ := Prog.trace_pure.mp hlast
              rw [List.append_nil]
              refine ⟨touches_append hpublic htouched', .inr fun hanswered => ?_⟩
              obtain ⟨hfirst, hsecond⟩ := answered_append.mp hanswered
              rw [Except.ok.inj (hvalue.resolve_left not_clock_failed_ok hfirst),
                Except.ok.inj (hvalue'.resolve_left not_clock_failed_ok hsecond)]

/-! ## What gets out -/

/-- `48:da:35:6f` followed by the first two bytes of `SHA-512("UID: %08x_%08x\n")`, for the two
words of the UID. -/
def macAddress (sha512 : Sha512) (low high : Word) : List UInt8 :=
  [0x48, 0xda, 0x35, 0x6f] ++ (sha512 (Text.utf8Bytes ("UID: ".toList
    ++ Text.fixedDigits 16 8 low.toNat ++ "_".toList ++ Text.fixedDigits 16 8 high.toNat
    ++ "\n".toList))).toList.take 2

/-- The UID is two words of the shadow. -/
theorem public_bytes_uid (regs : RegisterFile) :
    publicBytes regs uid uidSize
      = leBytes 4 (regs (shadow + uid)).toNat ++ leBytes 4 (regs (shadow + uid + 4)).toNat := by
  have hpublic : ∀ offset ∈ List.range' uid uidSize, Public offset := by decide
  have hshown : publicBytes regs uid uidSize = (List.range' uid uidSize).map (byteAt regs) :=
    List.map_congr_left fun offset hmem => if_pos (hpublic offset hmem)
  rw [hshown]
  simp [uid, uidSize, shadow, List.range', byteAt, leBytes, Nat.div_div_eq_div_mul]

/-- The post-processing sees the two words. -/
theorem mac_pp_words (sha512 : Sha512) (low high : Word) :
    ∃ rest, macPp sha512 (leBytes 4 low.toNat ++ leBytes 4 high.toNat)
      = .ok (macAddress sha512 low high ++ rest) := by
  have hlength : (leBytes 4 low.toNat ++ leBytes 4 high.toNat).length = uidSize := by
    rw [List.length_append, le_bytes_length, le_bytes_length]
    rfl
  have hlow : ofLeBytes ((leBytes 4 low.toNat ++ leBytes 4 high.toNat).take 4) = low.toNat := by
    rw [List.take_left' (le_bytes_length 4 _), of_le_bytes_le_bytes]
    exact Nat.mod_eq_of_lt low.isLt
  have hhigh : ofLeBytes (((leBytes 4 low.toNat ++ leBytes 4 high.toNat).drop 4).take 4)
      = high.toNat := by
    rw [List.drop_left' (le_bytes_length 4 _), List.take_of_length_le (by simp),
      of_le_bytes_le_bytes]
    exact Nat.mod_eq_of_lt high.isLt
  unfold macPp
  rw [if_neg (not_not_intro hlength), hlow, hhigh]
  exact ⟨_, rfl⟩

theorem mac_address_length (sha512 : Sha512) (low high : Word) :
    (macAddress sha512 low high).length = ethAlen := by
  simp [macAddress, ethAlen]

/-- A cell that the driver post-processes is the UID. -/
theorem fixup_uid {sha512 : Sha512} {cell : Cell} (hplain : cell.readPostProcess = none)
    (h : (fixupDtCellInfo sha512 cell).readPostProcess ≠ none) :
    cell.offset = uid ∧ fixupDtCellInfo sha512 cell = { cell with
      rawLen := uidSize, bytes := ethAlen, readPostProcess := some (macPp sha512) } ∧
    cell.nbits = 0 := by
  unfold fixupDtCellInfo at h ⊢
  split at h
  · exact absurd hplain h
  · rename_i hmatch
    obtain ⟨hnode, hoffset, hbytes, hnbits⟩ := not_or.mp hmatch |>.imp_right fun h =>
      not_or.mp h |>.imp_right not_or.mp
    exact ⟨Decidable.not_not.mp hoffset, if_neg hmatch, Decidable.not_not.mp hnbits⟩

/-- What a read of the MAC address cell returns. -/
theorem cell_read_mac {sha512 : Sha512} {shift : Cell → List UInt8 → List UInt8} {cell : Cell}
    {parts : List Part} {result : Except Int (List UInt8)} (hplain : cell.readPostProcess = none)
    (hmac : (fixupDtCellInfo sha512 cell).readPostProcess ≠ none)
    (hparts : Divides keepout cell.offset
      (cell.offset + (fixupDtCellInfo sha512 cell).rawBytes) parts)
    (h : (cellRead shift (fixupDtCellInfo sha512 cell) parts).Trace events result)
    (hanswered : Answered regs events) :
    ClockFailed events result ∨ result
      = .ok (macAddress sha512 (regs (shadow + uid)) (regs (shadow + uid + 4))) := by
  obtain ⟨hoffset, hfixed, hnbits⟩ := fixup_uid hplain hmac
  rw [hfixed] at h hparts
  rw [hoffset] at hparts
  change Divides keepout uid (uid + uidSize) parts at hparts
  obtain ⟨first, last, value, rfl, hread, hlast⟩ := Prog.trace_bind.mp h
  have hread : (regRead parts cell.offset).Trace first value := hread
  rw [hoffset] at hread
  obtain ⟨_, hvalue⟩ := @reg_read_trace regs _ _ _ _ _ hparts (by decide) hread
  obtain ⟨hfirst, _⟩ := answered_append.mp hanswered
  cases value with
  | error ret =>
      obtain ⟨rfl, rfl⟩ := Prog.trace_pure.mp hlast
      rw [List.append_nil]
      refine hvalue.imp_right fun hok => ?_
      cases hok hfirst
  | ok raw =>
      refine .inr ?_
      have hraw := Except.ok.inj (hvalue.resolve_left not_clock_failed_ok hfirst)
      change raw = publicBytes regs uid uidSize at hraw
      obtain ⟨rest, hprocessed⟩ :=
        mac_pp_words sha512 (regs (shadow + uid)) (regs (shadow + uid + 4))
      rw [public_bytes_uid] at hraw
      dsimp only at hlast
      rw [if_neg (not_not_intro hnbits), hraw, hprocessed] at hlast
      obtain ⟨_, rfl⟩ := Prog.trace_pure.mp hlast
      rw [List.take_left' (mac_address_length ..)]

/-- Shadows that agree on the public words. -/
def AgreePublic (regs other : RegisterFile) : Prop :=
  ∀ address, PublicWord address → other address = regs address

theorem public_bytes_congr {other : RegisterFile} (h : AgreePublic regs other)
    (offset count : Nat) : publicBytes other offset count = publicBytes regs offset count := by
  refine List.map_congr_left fun at' _ => ?_
  by_cases hpublic : Public at'
  · rw [if_pos hpublic, if_pos hpublic, byteAt, byteAt, h _ ⟨at', hpublic, rfl⟩]
  · rw [if_neg hpublic, if_neg hpublic]

/-- A run that touches public words is a run over every shadow that agrees on them. -/
theorem answered_congr {other : RegisterFile} (h : AgreePublic regs other)
    (htouched : Touches PublicWord events) (hanswered : Answered regs events) :
    Answered other events := by
  intro address word hmem
  rw [h address (htouched address word hmem)]
  exact hanswered address word hmem

end

/-- A read inside the device touches public words only and returns, unless its clocks fail, the
public bytes with zeros between them; a shadow that agrees on the public words gives the same run
and the same bytes. The MAC address is that of the two words of the UID. -/
theorem public_reads (sha512 : Sha512) (shift : Cell → List UInt8 → List UInt8)
    {regs : RegisterFile} {offset count : Nat} {parts : List Part} {events : List (Event Op Ret)}
    {result : Except Int (List UInt8)} (hinside : offset + count ≤ size)
    (hparts : Divides keepout offset (offset + count) parts)
    (h : (regRead parts offset).Trace events result) (hanswered : Answered regs events) :
    Touches PublicWord events ∧
      (ClockFailed events result ∨ result = .ok (publicBytes regs offset count)) ∧
      (∀ other, AgreePublic regs other → Answered other events ∧
        publicBytes other offset count = publicBytes regs offset count) ∧
      ∀ cell, cell.readPostProcess = none →
        (fixupDtCellInfo sha512 cell).readPostProcess ≠ none → ∀ parts events result,
        Divides keepout cell.offset (cell.offset + (fixupDtCellInfo sha512 cell).rawBytes) parts →
        (cellRead shift (fixupDtCellInfo sha512 cell) parts).Trace events result →
        Answered regs events → ClockFailed events result ∨ result
          = .ok (macAddress sha512 (regs (shadow + uid)) (regs (shadow + uid + 4))) := by
  obtain ⟨htouched, hvalue⟩ := @reg_read_trace regs _ _ _ _ _ hparts hinside h
  rw [Nat.add_sub_cancel_left] at hvalue
  refine ⟨htouched, hvalue.imp_right fun hok => hok hanswered, ?_, ?_⟩
  · intro other hagree
    exact ⟨answered_congr hagree htouched hanswered, public_bytes_congr hagree offset count⟩
  · intro cell hplain hmac parts events result hparts h hanswered
    exact cell_read_mac hplain hmac hparts h hanswered

/-- A shadow in which every byte is its offset. -/
def countingShadow : RegisterFile := fun address =>
  .ofNat 32 (ofLeBytes ((List.range' (address - shadow) 4).map .ofNat))

/-- The digest of `"UID: 0f0e0d0c_13121110\n"`. -/
def countingDigest : Vector UInt8 64 := #v[
  0xa9, 0xee, 0x69, 0xf3, 0x7f, 0x0e, 0x19, 0xe0, 0x1b, 0x6d, 0xf0, 0xfc, 0x15, 0xbb, 0x24, 0x5a,
  0x2f, 0x02, 0xe0, 0x9b, 0x56, 0xcb, 0x65, 0xff, 0x5d, 0x8a, 0xaf, 0x12, 0x5f, 0x3b, 0x5e, 0xc2,
  0x5a, 0xf5, 0x7e, 0xaf, 0x3a, 0x11, 0xa4, 0x8a, 0x64, 0x1c, 0x88, 0xad, 0x0c, 0xe6, 0x62, 0xad,
  0x02, 0x89, 0x73, 0x81, 0xf9, 0xc8, 0x57, 0x8c, 0x26, 0x8b, 0x38, 0xcd, 0x04, 0x2d, 0xd8, 0x35]

/-- The answers of that shadow, with clocks that start. -/
def countingAnswer : ∀ operation, Ret operation
  | .clkEnable => 0
  | .readl address => countingShadow address
  | .mutexLock | .mutexUnlock | .clkDisable => ()

/-- Twelve bytes around the UID. -/
theorem around_uid_divided : Divides keepout 0x0a 0x16 [.zeros 2, .regRead 8, .zeros 2] :=
  .zeros (by decide) (by decide) (.regRead (by decide) (by decide) (.inr (by decide))
    (.zeros (by decide) (by decide) (.done 0x16)))

section

variable (program : Prog Op Ret (Except Int (List UInt8)))

theorem counting_answered : Answered countingShadow (program.runWith countingAnswer).1 :=
  fun _ _ hmem => Prog.run_with_answers countingAnswer _ _ hmem

theorem counting_clocks (result : Except Int (List UInt8)) :
    ¬ ClockFailed (program.runWith countingAnswer).1 result := by
  rintro ⟨ret, hne, hmem, -⟩
  exact hne (Prog.run_with_answers countingAnswer _ _ hmem)

end

/-- The cell of the MAC address in the device tree. -/
def macCell : Cell := ⟨"mac-address", uid, uidSize, 0, 0, none⟩

theorem mac_cell_divided : Divides keepout uid (uid + uidSize) [.regRead uidSize] :=
  .regRead (by decide) (by decide) (.inl rfl) (.done (uid + uidSize))

/-- Only the bytes of the UID come out of it, and the MAC address is made of them. -/
theorem public_reads_around_uid :
    ((regRead [.zeros 2, .regRead 8, .zeros 2] 0x0a).runWith countingAnswer).2 =
      .ok [0, 0, 0x0c, 0x0d, 0x0e, 0x0f, 0x10, 0x11, 0x12, 0x13, 0, 0] ∧
    ((cellRead (fun _ bytes => bytes) (fixupDtCellInfo (fun _ => countingDigest) macCell)
        [.regRead uidSize]).runWith countingAnswer).2 =
      .ok (macAddress (fun _ => countingDigest) 0x0f0e0d0c 0x13121110) := by
  have hbytes : publicBytes countingShadow 0x0a 12 =
      [0, 0, 0x0c, 0x0d, 0x0e, 0x0f, 0x10, 0x11, 0x12, 0x13, 0, 0] := by decide +kernel
  have hwords : countingShadow (shadow + uid) = 0x0f0e0d0c ∧
      countingShadow (shadow + uid + 4) = 0x13121110 := by decide +kernel
  obtain ⟨-, hread, -, hmac⟩ := @public_reads (fun _ => countingDigest) (fun _ bytes => bytes)
    countingShadow 0x0a 12 _ _ _ (by decide) around_uid_divided
    (Prog.trace_run_with countingAnswer _) (counting_answered _)
  have hcell := (hmac macCell rfl (fun hnone => by cases hnone) [.regRead uidSize] _ _
    mac_cell_divided (Prog.trace_run_with countingAnswer _) (counting_answered _)).resolve_left
      (counting_clocks _ _)
  rw [hwords.1, hwords.2] at hcell
  rw [← hbytes]
  exact ⟨hread.resolve_left (counting_clocks _ _), hcell⟩

end NanoKvm.Efuse
