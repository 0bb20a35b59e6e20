import Mathlib.Algebra.Ring.Int.Defs
import Mathlib.Data.List.Forall2
import NanoKvm.Exec.LittleEndian
import NanoKvm.Exec.Traces

/-!
# The hardware random number generator

The SG2002 driver runs five commands for a block of four words, compares it with the block before
and hands it out in pieces. The registers may answer anything. `generate_trace` says what a
generation has done when it succeeds and what it leaves when it fails.
-/

namespace NanoKvm.Rng

open Exec

/-! ## The registers -/

/-- `SG2002_RNG_CTRL` and the registers after it. -/
def ctrl : Nat := 0x00
def mode : Nat := 0x04
def smode : Nat := 0x08
def stat : Nat := 0x0c
def ie : Nat := 0x10
def istat : Nat := 0x14
def alarm : Nat := 0x18
def data : Nat := 0x24

/-- `SG2002_RNG_BUSY`, `SG2002_RNG_DONE`, `SG2002_RNG_ALARMS` and `SG2002_RNG_ZEROIZED` -/
def busy : UInt32 := 0x80000000
def done : UInt32 := 0x10
def alarms : UInt32 := 0x8
def zeroized : UInt32 := 0x1

/-- `SG2002_RNG_NOISE` and the other commands. -/
def noise : UInt32 := 1
def createState : UInt32 := 3
def generateCommand : UInt32 := 6
def zeroize : UInt32 := 15

/-- `EIO` and `ETIMEDOUT` -/
def eio : Int := 5
def etimedout : Int := 110

/-- What the driver asks of its surroundings: register accesses, clocks, how many polls fit in a
timeout, and whether a message is let through by its rate limit. -/
inductive Op where
  | readl (offset : Nat)
  | writel (offset : Nat) (value : UInt32)
  | clkEnable | clkDisable
  | timeout | ratelimit
  deriving DecidableEq, Repr

abbrev Ret : Op → Type
  | .readl _ => UInt32
  | .clkEnable => Int
  | .timeout => Nat
  | .ratelimit => Bool
  | _ => Unit

abbrev IoEvent : Type := Event Op Ret

/-! ## The driver -/

/-- A block, `u32 data[4]`. -/
abbrev Block : Type := Vector UInt32 4

/-- `memzero_explicit` of a block. -/
def zeros : Block := Vector.replicate 4 0

/-- The bytes of a block in memory. -/
def bytesOf (words : List UInt32) : List UInt8 := words.flatMap fun word => leBytes 4 word.toNat

/-- `struct sg2002_rng`, as far as the driver changes it. -/
structure Priv where
  data : Block
  previous : Block
  available : Nat
  havePrevious : Bool
  failed : Bool
  deriving DecidableEq, Repr

/-- `devm_kzalloc` -/
def allocated : Priv where
  data := zeros
  previous := zeros
  available := 0
  havePrevious := false
  failed := false

/-- The loop of `readl_poll_timeout`. Behind the last poll that fits, the register is read once
more. -/
def pollLoop (offset : Nat) (cond : UInt32 → Bool) : Nat → Prog Op Ret UInt32
  | 0 => do
      let val ← .perform (.readl offset)
      if cond val then return val
      else
        let val ← .perform (.readl offset)
        return val
  | polls + 1 => do
      let val ← .perform (.readl offset)
      if cond val then return val
      else pollLoop offset cond polls

/-- `readl_poll_timeout`: the result and the last value that was read. -/
def readlPollTimeout (offset : Nat) (cond : UInt32 → Bool) : Prog Op Ret (Int × UInt32) := do
  let polls ← .perform .timeout
  let val ← pollLoop offset cond polls
  return (if cond val then 0 else -etimedout, val)

/-- The bit that reports the completion of a command. -/
def doneOf (command : UInt32) : UInt32 := if command = zeroize then zeroized else done

/-- `sg2002_rng_command` -/
def command (command : UInt32) : Prog Op Ret Int := do
  let (ret, _) ← readlPollTimeout stat fun status => status &&& busy = 0
  if ret ≠ 0 then return ret
  else
    -- a completion left by firmware or a previous command is not ours
    Prog.perform (Op.writel istat (doneOf command))
    Prog.perform (Op.writel ctrl command)
    let (ret, status) ← readlPollTimeout istat fun status =>
      status &&& (doneOf command ||| alarms) ≠ 0
    if status &&& alarms ≠ 0 then
      let allowed ← Prog.perform .ratelimit
      if allowed then
        let _ ← Prog.perform (.readl alarm)
        return -eio
      else return -eio
    else if ret = 0 then
      Prog.perform (Op.writel istat (doneOf command))
      return ret
    else return ret

/-- The reads of the data registers. -/
def readData : Prog Op Ret Block := do
  let zero ← Prog.perform (.readl (data + 0 * 4))
  let one ← Prog.perform (.readl (data + 1 * 4))
  let two ← Prog.perform (.readl (data + 2 * 4))
  let three ← Prog.perform (.readl (data + 3 * 4))
  return #v[zero, one, two, three]

/-- The label `fail` of `sg2002_rng_generate`. -/
def Priv.fail (priv : Priv) : Priv :=
  { priv with failed := true, available := 0, data := zeros }

/-- The commands one after the other, up to the first that fails. -/
def commands : List UInt32 → Prog Op Ret Int
  | [] => return 0
  | first :: rest => do
      let ret ← command first
      if ret ≠ 0 then return ret else commands rest

/-- `sg2002_rng_generate` -/
def generate (priv : Priv) : Prog Op Ret (Int × Priv) := do
  let ret ← commands [zeroize, noise, createState, generateCommand]
  if ret ≠ 0 then return (ret, priv.fail)
  else
    let block ← readData
    let ret ← command zeroize
    if ret ≠ 0 then return (ret, priv.fail)
    else if priv.havePrevious ∧ priv.previous = block then return (-eio, priv.fail)
    else return (0, { priv with
      data := block, previous := block, havePrevious := true, available := 16 })

/-- `sg2002_rng_init` -/
def init (priv : Priv) : Prog Op Ret (Int × Priv) := do
  let ret ← .perform .clkEnable
  if ret ≠ 0 then return (ret, priv)
  else
    Prog.perform (Op.writel ie 0)
    Prog.perform (Op.writel alarm 0x1f)
    Prog.perform (Op.writel istat 0x1f)
    Prog.perform (Op.writel mode 0)
    Prog.perform (Op.writel smode ((10 : UInt32) <<< 2 ||| 2))
    let (ret, priv) ← generate { priv with failed := false, havePrevious := false, available := 0 }
    if ret ≠ 0 then
      Prog.perform Op.clkDisable
      return (ret, priv)
    else return (ret, priv)

/-- `sg2002_rng_cleanup` -/
def cleanup (priv : Priv) : Prog Op Ret Priv := do
  if priv.failed then
    Prog.perform Op.clkDisable
    return { priv with available := 0, data := zeros, previous := zeros }
  else
    let _ ← command zeroize
    Prog.perform Op.clkDisable
    return { priv with available := 0, data := zeros, previous := zeros }

/-- `memcpy` of the unread bytes of the block, and what is left. -/
def Priv.take (priv : Priv) (max : Nat) : List UInt8 × Priv :=
  let count := min max priv.available
  (((bytesOf priv.data.toList).drop (16 - priv.available)).take count,
    { priv with available := priv.available - count })

/-- `sg2002_rng_read`: a negative result, or the bytes that were copied. -/
def read (priv : Priv) (max : Nat) (wait : Bool) : Prog Op Ret (Except Int (List UInt8) × Priv) := do
  if priv.failed then return (.error (-eio), priv)
  else if max = 0 then return (.ok [], priv)
  else if priv.available = 0 then
    if !wait then return (.ok [], priv)
    else
      let (ret, priv) ← generate priv
      if ret ≠ 0 then return (.error ret, priv)
      else
        let (bytes, priv) := priv.take max
        return (.ok bytes, priv)
  else
    let (bytes, priv) := priv.take max
    return (.ok bytes, priv)

/-! ## What is seen of a run -/

/-- The words that were read from the data registers. -/
def wordsRead (events : List IoEvent) : List UInt32 :=
  events.filterMap fun event =>
    match event with
    | ⟨.readl offset, value⟩ => if data ≤ offset then some value else none
    | _ => none

/-- How often the clocks were enabled, less how often they were disabled. -/
def clocks (events : List IoEvent) : Int :=
  (events.map fun event =>
    match event with
    | ⟨.clkEnable, ret⟩ => if ret = 0 then 1 else 0
    | ⟨.clkDisable, _⟩ => -1
    | _ => (0 : Int)).sum

/-- Polls of a register, none of which saw these bits. -/
def Polls (offset : Nat) (without : UInt32) (events : List IoEvent) : Prop :=
  ∀ event ∈ events, event.operation = .timeout ∨
    ∃ value, event = ⟨.readl offset, value⟩ ∧ value &&& without = 0

/-- The command was issued behind a write that cleared its completion bit, and then the bit was
seen without an alarm. -/
def Completed (command : UInt32) (events : List IoEvent) : Prop :=
  ∃ idle polls status, events = idle ++ (⟨.writel istat (doneOf command), ()⟩
      :: ⟨.writel ctrl command, ()⟩ :: (polls
        ++ [⟨.readl istat, status⟩, ⟨.writel istat (doneOf command), ()⟩])) ∧
    Polls stat 0 idle ∧ Polls istat (doneOf command ||| alarms) polls ∧
    status &&& doneOf command ≠ 0 ∧ status &&& alarms = 0

/-- The reads of a block. -/
def dataReads (block : Block) : List IoEvent := [
  ⟨.readl (data + 0 * 4), block[0]⟩, ⟨.readl (data + 1 * 4), block[1]⟩,
  ⟨.readl (data + 2 * 4), block[2]⟩, ⟨.readl (data + 3 * 4), block[3]⟩]

/-- The five commands completed in their order, and the block was read behind the fourth. -/
def Generation (events : List IoEvent) (block : Block) : Prop :=
  ∃ first second third fourth last,
    events = first ++ (second ++ (third ++ (fourth ++ (dataReads block ++ last)))) ∧
    Completed zeroize first ∧ Completed noise second ∧ Completed createState third ∧
    Completed generateCommand fourth ∧ Completed zeroize last

/-! ## One command -/

/-- Neither a data register nor a clock was touched. -/
def Quiet (events : List IoEvent) : Prop := wordsRead events = [] ∧ clocks events = 0

section

variable {first second events : List IoEvent} {ret : Int}

@[simp] theorem words_read_append :
    wordsRead (first ++ second) = wordsRead first ++ wordsRead second :=
  List.filterMap_append

@[simp] theorem clocks_append : clocks (first ++ second) = clocks first + clocks second := by
  simp [clocks]

theorem quiet_nil : Quiet [] := ⟨rfl, rfl⟩

theorem Quiet.append (hfirst : Quiet first) (hsecond : Quiet second) : Quiet (first ++ second) := by
  refine ⟨?_, ?_⟩
  · rw [words_read_append, hfirst.1, hsecond.1, List.append_nil]
  · rw [clocks_append, hfirst.2, hsecond.2]
    rfl

theorem quiet_writel (offset : Nat) (value : UInt32) (result : Unit) :
    Quiet [⟨.writel offset value, result⟩] :=
  ⟨rfl, rfl⟩

theorem quiet_readl {offset : Nat} (value : UInt32) (h : offset < data) :
    Quiet [⟨.readl offset, value⟩] := by
  refine ⟨?_, rfl⟩
  simp [wordsRead, Nat.not_le.mpr h]

theorem quiet_timeout (polls : Nat) : Quiet [⟨.timeout, polls⟩] := ⟨rfl, rfl⟩

theorem quiet_ratelimit (allowed : Bool) : Quiet [⟨.ratelimit, allowed⟩] := ⟨rfl, rfl⟩

theorem quiet_cons {event : IoEvent} (hevent : Quiet [event]) (hrest : Quiet events) :
    Quiet (event :: events) :=
  hevent.append hrest

theorem Polls.quiet {offset : Nat} {without : UInt32} (h : Polls offset without events)
    (hoffset : offset < data) : Quiet events := by
  induction events with
  | nil => exact quiet_nil
  | cons event events ih =>
      refine quiet_cons ?_ (ih fun event hmem => h event (List.mem_cons_of_mem _ hmem))
      rcases h event List.mem_cons_self with htimeout | hread
      · obtain ⟨operation, result⟩ := event
        cases htimeout
        exact quiet_timeout result
      · obtain ⟨value, rfl, _⟩ := hread
        exact quiet_readl value hoffset

theorem Polls.append {offset : Nat} {without : UInt32} (hfirst : Polls offset without first)
    (hsecond : Polls offset without second) : Polls offset without (first ++ second) := by
  intro event hmem
  rcases List.mem_append.mp hmem with hmem | hmem
  · exact hfirst event hmem
  · exact hsecond event hmem

/-- A poll loop reads the register until the condition holds. -/
theorem poll_loop_trace {offset : Nat} {cond : UInt32 → Bool} {polls : Nat} {val : UInt32}
    (h : (pollLoop offset cond polls).Trace events val) :
    ∃ before, events = before ++ [⟨.readl offset, val⟩] ∧
      ∀ event ∈ before, ∃ value, event = ⟨.readl offset, value⟩ ∧ cond value = false := by
  induction polls generalizing events with
  | zero =>
      obtain ⟨value, rest, rfl, hrest⟩ := Prog.trace_perform.mp h
      split at hrest
      · obtain ⟨rfl, rfl⟩ := Prog.trace_pure.mp hrest
        exact ⟨[], rfl, fun _ hmem => absurd hmem List.not_mem_nil⟩
      · rename_i hcond
        obtain ⟨last, rest, rfl, hlast⟩ := Prog.trace_perform.mp hrest
        obtain ⟨rfl, rfl⟩ := Prog.trace_pure.mp hlast
        refine ⟨[⟨.readl offset, value⟩], rfl, fun event hmem => ?_⟩
        exact ⟨value, List.mem_singleton.mp hmem, Bool.eq_false_iff.mpr hcond⟩
  | succ polls ih =>
      obtain ⟨value, rest, rfl, hrest⟩ := Prog.trace_perform.mp h
      split at hrest
      · obtain ⟨rfl, rfl⟩ := Prog.trace_pure.mp hrest
        exact ⟨[], rfl, fun _ hmem => absurd hmem List.not_mem_nil⟩
      · rename_i hcond
        obtain ⟨before, rfl, hbefore⟩ := ih hrest
        refine ⟨⟨.readl offset, value⟩ :: before, rfl, fun event hmem => ?_⟩
        rcases List.mem_cons.mp hmem with rfl | hmem
        · exact ⟨value, rfl, Bool.eq_false_iff.mpr hcond⟩
        · exact hbefore event hmem

theorem poll_timeout_trace {offset : Nat} {cond : UInt32 → Bool} {val : UInt32}
    (h : (readlPollTimeout offset cond).Trace events (ret, val)) :
    (∃ before, events = before ++ [⟨.readl offset, val⟩] ∧
      ∀ event ∈ before, event.operation = .timeout ∨
        ∃ value, event = ⟨.readl offset, value⟩ ∧ cond value = false) ∧
      (ret = 0 ↔ cond val = true) := by
  obtain ⟨polls, rest, rfl, hrest⟩ := Prog.trace_perform.mp h
  obtain ⟨reads, last, value, rfl, hreads, hlast⟩ := Prog.trace_bind.mp hrest
  obtain ⟨rfl, hpair⟩ := Prog.trace_pure.mp hlast
  obtain ⟨before, rfl, hbefore⟩ := poll_loop_trace hreads
  obtain ⟨hret, rfl⟩ := Prod.mk.inj hpair
  refine ⟨⟨⟨.timeout, polls⟩ :: before, by simp, fun event hmem => ?_⟩, ?_⟩
  · rcases List.mem_cons.mp hmem with rfl | hmem
    · exact .inl rfl
    · exact .inr (hbefore event hmem)
  · rw [hret]
    cases cond val <;> simp [etimedout]

theorem and_or_word (word left right : UInt32) :
    word &&& (left ||| right) = word &&& left ||| word &&& right := by
  apply UInt32.toBitVec_inj.mp
  apply BitVec.eq_of_getLsbD_eq
  intro bit _
  simp [Bool.and_or_distrib_left]

/-- A command that succeeds completed, and one that fails touched neither data nor clocks. -/
theorem command_trace {code : UInt32} (h : (command code).Trace events ret) :
    (ret = 0 → Completed code events) ∧ Quiet events := by
  obtain ⟨idle, later, ⟨busyRet, busyVal⟩, rfl, hidle, hlater⟩ := Prog.trace_bind.mp h
  obtain ⟨⟨before, rfl, hbefore⟩, hbusy⟩ := poll_timeout_trace hidle
  have hpolls : Polls stat 0 (before ++ [⟨.readl stat, busyVal⟩]) := by
    intro event hmem
    rcases List.mem_append.mp hmem with hmem | hmem
    · refine (hbefore event hmem).imp_right fun hread => ?_
      obtain ⟨value, hvalue, _⟩ := hread
      exact ⟨value, hvalue, UInt32.and_zero⟩
    · exact .inr ⟨busyVal, List.mem_singleton.mp hmem, UInt32.and_zero⟩
  have hquiet := hpolls.quiet (by decide : stat < data)
  dsimp only at hlater
  split at hlater
  · rename_i hfailed
    obtain ⟨rfl, rfl⟩ := Prog.trace_pure.mp hlater
    rw [List.append_nil]
    exact ⟨fun hret => absurd hret hfailed, hquiet⟩
  · obtain ⟨_, issued, rfl, hissued⟩ := Prog.trace_perform.mp hlater
    obtain ⟨_, waited, rfl, hwaited⟩ := Prog.trace_perform.mp hissued
    obtain ⟨polled, last, ⟨ret', status⟩, rfl, hpolled, hlast⟩ := Prog.trace_bind.mp hwaited
    obtain ⟨⟨polls, rfl, hwaits⟩, hret⟩ := poll_timeout_trace hpolled
    have hseen : Polls istat (doneOf code ||| alarms) polls := by
      intro event hmem
      refine (hwaits event hmem).imp_right fun hread => ?_
      obtain ⟨value, hvalue, hnone⟩ := hread
      exact ⟨value, hvalue, by simpa using hnone⟩
    have hstatus := quiet_readl status (by decide : istat < data)
    have hissue : ∀ {rest}, Quiet rest → Quiet (before ++ [⟨.readl stat, busyVal⟩]
        ++ ⟨.writel istat (doneOf code), ()⟩ :: ⟨.writel ctrl code, ()⟩
          :: (polls ++ [⟨.readl istat, status⟩] ++ rest)) := by
      intro rest hrest
      exact hquiet.append (quiet_cons (quiet_writel ..) (quiet_cons (quiet_writel ..)
        (((hseen.quiet (by decide)).append hstatus).append hrest)))
    dsimp only at hlast
    split at hlast
    · -- an alarm: at most its register is read
      obtain ⟨allowed, reported, rfl, hreported⟩ := Prog.trace_perform.mp hlast
      split at hreported
      · obtain ⟨found, nothing, rfl, hnothing⟩ := Prog.trace_perform.mp hreported
        obtain ⟨rfl, rfl⟩ := Prog.trace_pure.mp hnothing
        exact ⟨fun hzero => absurd hzero (by decide), hissue (quiet_cons (quiet_ratelimit _)
          (quiet_readl found (by decide)))⟩
      · obtain ⟨rfl, rfl⟩ := Prog.trace_pure.mp hreported
        exact ⟨fun hzero => absurd hzero (by decide), hissue (quiet_ratelimit _)⟩
    · rename_i halarm
      split at hlast
      · rename_i hzero
        obtain ⟨_, nothing, rfl, hnothing⟩ := Prog.trace_perform.mp hlast
        obtain ⟨rfl, rfl⟩ := Prog.trace_pure.mp hnothing
        have hcond := hret.mp hzero
        have hnone : status &&& alarms = 0 := not_ne_iff.mp halarm
        refine ⟨fun _ => ⟨before ++ [⟨.readl stat, busyVal⟩], polls, status, by simp, hpolls, hseen,
          ?_, hnone⟩, hissue (quiet_writel ..)⟩
        intro hdone
        rw [and_or_word, hdone, hnone] at hcond
        exact absurd hcond (by decide)
      · rename_i hnonzero
        obtain ⟨rfl, rfl⟩ := Prog.trace_pure.mp hlast
        exact ⟨fun hzero => absurd hzero hnonzero, hissue quiet_nil⟩

/-! ## A generation -/

/-- Commands that all succeed completed one after the other. -/
theorem commands_trace {codes : List UInt32} (h : (commands codes).Trace events ret) :
    (ret = 0 → ∃ parts, events = parts.flatten ∧ List.Forall₂ Completed codes parts) ∧
      Quiet events := by
  induction codes generalizing events with
  | nil =>
      obtain ⟨rfl, rfl⟩ := Prog.trace_pure.mp h
      exact ⟨fun _ => ⟨[], rfl, .nil⟩, quiet_nil⟩
  | cons code codes ih =>
      obtain ⟨issued, later, value, rfl, hissued, hlater⟩ := Prog.trace_bind.mp h
      obtain ⟨hcompleted, hquiet⟩ := command_trace hissued
      split at hlater
      · rename_i hfailed
        obtain ⟨rfl, rfl⟩ := Prog.trace_pure.mp hlater
        rw [List.append_nil]
        exact ⟨fun hzero => absurd hzero hfailed, hquiet⟩
      · rename_i hzero
        obtain ⟨hrest, hquiet'⟩ := ih hlater
        refine ⟨fun hret => ?_, hquiet.append hquiet'⟩
        obtain ⟨parts, rfl, hparts⟩ := hrest hret
        exact ⟨issued :: parts, rfl, .cons (hcompleted (not_ne_iff.mp hzero)) hparts⟩

theorem read_data_trace {block : Block} (h : readData.Trace events block) :
    events = dataReads block := by
  obtain ⟨zero, rest, rfl, h0⟩ := Prog.trace_perform.mp h
  obtain ⟨one, rest, rfl, h1⟩ := Prog.trace_perform.mp h0
  obtain ⟨two, rest, rfl, h2⟩ := Prog.trace_perform.mp h1
  obtain ⟨three, rest, rfl, h3⟩ := Prog.trace_perform.mp h2
  obtain ⟨rfl, rfl⟩ := Prog.trace_pure.mp h3
  rfl

theorem data_reads_words (block : Block) :
    wordsRead (dataReads block) = block.toList ∧ clocks (dataReads block) = 0 := by
  obtain ⟨⟨words⟩, hsize⟩ := block
  match words, hsize with
  | [_, _, _, _], _ => exact ⟨rfl, rfl⟩

/-- A generation completes its five commands and fills the block with words that differ from those
before, or it closes the driver. -/
theorem generate_trace {priv after : Priv} (h : (generate priv).Trace events (ret, after)) :
    clocks events = 0 ∧
      ((ret = 0 ∧ ∃ block, Generation events block ∧ wordsRead events = block.toList ∧
        (priv.havePrevious = true → priv.previous ≠ block) ∧ after = { priv with
          data := block, previous := block, havePrevious := true, available := 16 }) ∨
      (ret ≠ 0 ∧ after = priv.fail)) := by
  obtain ⟨issued, later, value, rfl, hissued, hlater⟩ := Prog.trace_bind.mp h
  obtain ⟨hcompleted, hquiet⟩ := commands_trace hissued
  split at hlater
  · rename_i hfailed
    obtain ⟨rfl, hpair⟩ := Prog.trace_pure.mp hlater
    obtain ⟨rfl, rfl⟩ := Prod.mk.inj hpair
    rw [List.append_nil]
    exact ⟨hquiet.2, .inr ⟨hfailed, rfl⟩⟩
  · rename_i hzero
    obtain ⟨reads, last, block, rfl, hreads, hlast⟩ := Prog.trace_bind.mp hlater
    obtain ⟨final, rest, ret', rfl, hfinal, hrest⟩ := Prog.trace_bind.mp hlast
    obtain rfl := read_data_trace hreads
    obtain ⟨hzeroized, hquiet'⟩ := command_trace hfinal
    obtain ⟨hwords, hclocks⟩ := data_reads_words block
    have hsum : clocks (issued ++ (dataReads block ++ (final ++ []))) = 0 := by
      simp only [clocks_append, hquiet.2, hclocks, hquiet'.2]
      rfl
    split at hrest
    · rename_i hfailed
      obtain ⟨rfl, hpair⟩ := Prog.trace_pure.mp hrest
      obtain ⟨rfl, rfl⟩ := Prod.mk.inj hpair
      exact ⟨hsum, .inr ⟨hfailed, rfl⟩⟩
    · rename_i hlastZero
      split at hrest
      · obtain ⟨rfl, hpair⟩ := Prog.trace_pure.mp hrest
        obtain ⟨rfl, rfl⟩ := Prod.mk.inj hpair
        exact ⟨hsum, .inr ⟨by decide, rfl⟩⟩
      · rename_i hfresh
        obtain ⟨rfl, hpair⟩ := Prog.trace_pure.mp hrest
        obtain ⟨rfl, rfl⟩ := Prod.mk.inj hpair
        obtain ⟨parts, rfl, hparts⟩ := hcompleted (not_ne_iff.mp hzero)
        refine ⟨hsum, .inl ⟨rfl, block, ?_, ?_, not_and.mp hfresh, rfl⟩⟩
        · obtain _ | ⟨hfirst, hparts⟩ := hparts
          obtain _ | ⟨hsecond, hparts⟩ := hparts
          obtain _ | ⟨hthird, hparts⟩ := hparts
          obtain _ | ⟨hfourth, hparts⟩ := hparts
          obtain _ | _ := hparts
          refine ⟨_, _, _, _, final, ?_, hfirst, hsecond, hthird, hfourth,
            hzeroized (not_ne_iff.mp hlastZero)⟩
          simp
        · simp only [words_read_append, hquiet.1, hwords, hquiet'.1, List.nil_append]
          simp [wordsRead]

/-! ## The calls of the core -/

/-- A start ends with the clocks on and a fresh block, or with the clocks off. -/
theorem init_trace {priv after : Priv} (h : (init priv).Trace events (ret, after)) :
    (ret = 0 ∧ clocks events = 1 ∧ ∃ setup rest block, events = setup ++ rest ∧
      Generation rest block ∧ wordsRead events = block.toList ∧ after = {
        data := block, previous := block, available := 16, havePrevious := true
        failed := false }) ∨
    (ret ≠ 0 ∧ clocks events = 0 ∧ (after = priv ∨ after.data = zeros)) := by
  obtain ⟨clk, rest, rfl, hrest⟩ := Prog.trace_perform.mp h
  split at hrest
  · rename_i hfailed
    obtain ⟨rfl, hpair⟩ := Prog.trace_pure.mp hrest
    obtain ⟨rfl, rfl⟩ := Prod.mk.inj hpair
    refine .inr ⟨hfailed, ?_, .inl rfl⟩
    show (if ret = 0 then 1 else 0) + 0 = (0 : Int)
    rw [if_neg hfailed]
    rfl
  · rename_i hzero
    obtain ⟨_, rest, rfl, h1⟩ := Prog.trace_perform.mp hrest
    obtain ⟨_, rest, rfl, h2⟩ := Prog.trace_perform.mp h1
    obtain ⟨_, rest, rfl, h3⟩ := Prog.trace_perform.mp h2
    obtain ⟨_, rest, rfl, h4⟩ := Prog.trace_perform.mp h3
    obtain ⟨_, rest, rfl, h5⟩ := Prog.trace_perform.mp h4
    obtain ⟨generated, last, ⟨ret', after'⟩, rfl, hgenerated, hlast⟩ := Prog.trace_bind.mp h5
    obtain ⟨hclocks, hresult⟩ := generate_trace hgenerated
    have hclk : clk = 0 := not_ne_iff.mp hzero
    have hsum : ∀ tail, clocks (⟨.clkEnable, clk⟩ :: ⟨.writel ie 0, ()⟩ :: ⟨.writel alarm 0x1f, ()⟩
        :: ⟨.writel istat 0x1f, ()⟩ :: ⟨.writel mode 0, ()⟩
        :: ⟨.writel smode ((10 : UInt32) <<< 2 ||| 2), ()⟩ :: (generated ++ tail))
        = 1 + clocks tail := by
      intro tail
      show (if clk = 0 then 1 else 0) + (0 + (0 + (0 + (0 + (0 + clocks (generated ++ tail)))))) = _
      rw [clocks_append, hclocks, if_pos hclk]
      omega
    dsimp only at hlast
    split at hlast
    · rename_i hfailed
      obtain ⟨_, nothing, rfl, hnothing⟩ := Prog.trace_perform.mp hlast
      obtain ⟨rfl, hpair⟩ := Prog.trace_pure.mp hnothing
      obtain ⟨rfl, rfl⟩ := Prod.mk.inj hpair
      refine .inr ⟨hfailed, hsum _, .inr ?_⟩
      rw [(hresult.resolve_left fun hok => hfailed hok.1).2]
      rfl
    · rename_i hok
      obtain ⟨rfl, hpair⟩ := Prog.trace_pure.mp hlast
      obtain ⟨rfl, rfl⟩ := Prod.mk.inj hpair
      obtain ⟨hret, block, hgeneration, hwords, _, rfl⟩ :=
        hresult.resolve_right fun hfailed => hok hfailed.1
      rw [List.append_nil]
      refine .inl ⟨hret, ?_, [_, _, _, _, _, _], generated, block, rfl, hgeneration, hwords, rfl⟩
      have := hsum []
      rwa [List.append_nil] at this

/-- What a read does: nothing, a piece of the block, or a generation and then a piece. -/
theorem read_trace {priv after : Priv} {max : Nat} {wait : Bool}
    {result : Except Int (List UInt8)} (h : (read priv max wait).Trace events (result, after)) :
    clocks events = 0 ∧
      ((priv.failed = true ∧ events = [] ∧ after = priv ∧ result = .error (-eio)) ∨
      (priv.failed = false ∧ events = [] ∧ after = priv ∧ result = .ok []) ∨
      (priv.failed = false ∧ events = [] ∧ after = (priv.take max).2 ∧
        result = .ok (priv.take max).1) ∨
      (priv.failed = false ∧ priv.available = 0 ∧ ∃ block, Generation events block ∧
        wordsRead events = block.toList ∧ (priv.havePrevious = true → priv.previous ≠ block) ∧
        (.ok (Priv.take { priv with
          data := block, previous := block, havePrevious := true, available := 16 } max).1,
        (Priv.take { priv with
          data := block, previous := block, havePrevious := true, available := 16 } max).2)
          = (result, after)) ∨
      (priv.failed = false ∧ after = priv.fail ∧ ∃ ret, result = .error ret)) := by
  unfold read at h
  split at h
  · rename_i hfailed
    obtain ⟨rfl, hpair⟩ := Prog.trace_pure.mp h
    obtain ⟨rfl, rfl⟩ := Prod.mk.inj hpair
    exact ⟨rfl, .inl ⟨hfailed, rfl, rfl, rfl⟩⟩
  · rename_i hfailed
    have hopen : priv.failed = false := Bool.eq_false_iff.mpr hfailed
    split at h
    · obtain ⟨rfl, hpair⟩ := Prog.trace_pure.mp h
      obtain ⟨rfl, rfl⟩ := Prod.mk.inj hpair
      exact ⟨rfl, .inr (.inl ⟨hopen, rfl, rfl, rfl⟩)⟩
    · split at h
      · rename_i hempty
        split at h
        · obtain ⟨rfl, hpair⟩ := Prog.trace_pure.mp h
          obtain ⟨rfl, rfl⟩ := Prod.mk.inj hpair
          exact ⟨rfl, .inr (.inl ⟨hopen, rfl, rfl, rfl⟩)⟩
        · obtain ⟨generated, last, ⟨ret', after'⟩, rfl, hgenerated, hlast⟩ :=
            Prog.trace_bind.mp h
          obtain ⟨hclocks, hresult⟩ := generate_trace hgenerated
          dsimp only at hlast
          split at hlast
          · rename_i hnonzero
            obtain ⟨rfl, hpair⟩ := Prog.trace_pure.mp hlast
            obtain ⟨rfl, rfl⟩ := Prod.mk.inj hpair
            rw [List.append_nil]
            have hfail := (hresult.resolve_left fun hok => hnonzero hok.1).2
            exact ⟨hclocks, .inr (.inr (.inr (.inr ⟨hopen, hfail, ret', rfl⟩)))⟩
          · rename_i hok
            obtain ⟨rfl, hpair⟩ := Prog.trace_pure.mp hlast
            rw [List.append_nil]
            obtain ⟨_, block, hgeneration, hwords, hfresh, rfl⟩ :=
              hresult.resolve_right fun hfailed => hok hfailed.1
            exact ⟨hclocks, .inr (.inr (.inr (.inl ⟨hopen, hempty, block, hgeneration, hwords,
              hfresh, hpair.symm⟩)))⟩
      · obtain ⟨rfl, hpair⟩ := Prog.trace_pure.mp h
        obtain ⟨rfl, rfl⟩ := Prod.mk.inj hpair
        exact ⟨rfl, .inr (.inr (.inl ⟨hopen, rfl, rfl, rfl⟩))⟩

/-- A clean-up clears the block and gives the clocks back. -/
theorem cleanup_trace {priv after : Priv} (h : (cleanup priv).Trace events after) :
    clocks events = -1 ∧ wordsRead events = [] ∧ after.data = zeros := by
  unfold cleanup at h
  split at h
  · obtain ⟨_, rest, rfl, hrest⟩ := Prog.trace_perform.mp h
    obtain ⟨rfl, rfl⟩ := Prog.trace_pure.mp hrest
    exact ⟨rfl, rfl, rfl⟩
  · obtain ⟨issued, later, value, rfl, hissued, hlater⟩ := Prog.trace_bind.mp h
    obtain ⟨_, rest, rfl, hrest⟩ := Prog.trace_perform.mp hlater
    obtain ⟨rfl, rfl⟩ := Prog.trace_pure.mp hrest
    obtain ⟨_, hwords, hclocks⟩ := command_trace hissued
    refine ⟨?_, ?_, rfl⟩
    · rw [clocks_append, hclocks]
      rfl
    · rw [words_read_append, hwords]
      rfl

end

end NanoKvm.Rng
