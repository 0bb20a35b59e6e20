import Mathlib.Tactic.ByContra
import NanoKvm.Peripherals.Spi

/-!
# What calls of the SPI driver leave

Every trace of `stream` and `transfer`, and what a session of calls keeps: between calls the
control register of a configured driver is that of byte transactions. `spi_session` has the
whole, with the bound on the transmit FIFO from the machine `fifo`.
-/

namespace NanoKvm.Spi

open Exec

/-! ## What is seen of a trace -/

def wordOf : IoEvent → Option UInt16
  | ⟨.writeWord word, _⟩ => some word
  | _ => none

def sentByteOf : IoEvent → Option UInt8
  | ⟨.write byte, _⟩ => some byte
  | _ => none

def receivedByteOf : IoEvent → Option UInt8
  | ⟨.read, byte⟩ => some byte
  | _ => none

/-- The words written to the FIFO. -/
def sentWords (events : List IoEvent) : List UInt16 := events.filterMap wordOf

/-- The bytes written to the FIFO. -/
def sentBytes (events : List IoEvent) : List UInt8 := events.filterMap sentByteOf

/-- The bytes read from the FIFO. -/
def received (events : List IoEvent) : List UInt8 := events.filterMap receivedByteOf

/-- The controller was enabled. -/
def enables : IoEvent → Bool
  | ⟨.enable value, _⟩ => value == 1
  | _ => false

/-- The words of the list are those of the iterator from its position on. -/
def Follows (words : Nat → Option UInt16) (position : Nat) (list : List UInt16) : Prop :=
  ∀ k, k < list.length → words (position + k) = list[k]?

/-- The registers that a halt leaves. -/
structure Registers where
  enable : UInt32
  select : UInt32
  control : UInt32
  deriving DecidableEq, Repr

/-- A write of one of them. -/
def Registers.write (registers : Registers) : IoEvent → Registers
  | ⟨.enable value, _⟩ => { registers with enable := value }
  | ⟨.select value, _⟩ => { registers with select := value }
  | ⟨.control value, _⟩ => { registers with control := value }
  | _ => registers

def Registers.after (registers : Registers) (events : List IoEvent) : Registers :=
  events.foldl Registers.write registers

/-- The controller is disabled with no slave selected and in byte mode, and the last that was done
was to clear the interrupts. -/
structure Halted (modeBits : UInt32) (registers : Registers) (events : List IoEvent) : Prop where
  enable : registers.enable = 0
  select : registers.select = 0
  control : registers.control = control8BitDuplex ||| modeBits
  cleared : ∃ before, events = before ++ [⟨.clear, ()⟩]

section

variable {events first second : List IoEvent} {words : Nat → Option UInt16}

theorem sent_words_append : sentWords (first ++ second) = sentWords first ++ sentWords second :=
  List.filterMap_append

theorem sent_bytes_append : sentBytes (first ++ second) = sentBytes first ++ sentBytes second :=
  List.filterMap_append

theorem received_append : received (first ++ second) = received first ++ received second :=
  List.filterMap_append

theorem after_append (registers : Registers) :
    registers.after (first ++ second) = (registers.after first).after second :=
  List.foldl_append

theorem follows_nil (position : Nat) : Follows words position [] :=
  fun _ h => (by cases h)

theorem Follows.append {position : Nat} {list rest : List UInt16} (h : Follows words position list)
    (hrest : Follows words (position + list.length) rest) : Follows words position (list ++ rest) := by
  intro k hk
  by_cases hinside : k < list.length
  · rw [List.getElem?_append_left hinside]
    exact h k hinside
  · have hbehind : list.length ≤ k := Nat.le_of_not_lt hinside
    rw [List.getElem?_append_right hbehind]
    rw [List.length_append] at hk
    have hword := hrest (k - list.length) (by omega)
    rw [show position + list.length + (k - list.length) = position + k by omega] at hword
    exact hword

theorem Follows.cons {position : Nat} {word : UInt16} {rest : List UInt16}
    (h : words position = some word) (hrest : Follows words (position + 1) rest) :
    Follows words position (word :: rest) := by
  have hfirst : Follows words position [word] := by
    intro k hk
    obtain rfl : k = 0 := Nat.lt_one_iff.mp hk
    exact h
  exact hfirst.append hrest

/-! ## Streams -/

theorem wait_room_trace {polls : Nat} {result : Except Error Nat}
    (h : (waitRoom polls).Trace events result) :
    sentWords events = [] ∧ ∀ room, result = .ok room → room ≠ 0 := by
  induction polls generalizing events with
  | zero =>
      obtain ⟨rfl, rfl⟩ := Prog.trace_pure.mp h
      exact ⟨rfl, fun room hok => (by cases hok)⟩
  | succ polls ih =>
      obtain ⟨level, later, rfl, hlater⟩ := Prog.trace_perform.mp h
      split at hlater
      · rename_i hroom
        obtain ⟨rfl, rfl⟩ := Prog.trace_pure.mp hlater
        refine ⟨rfl, fun room hok => ?_⟩
        rw [← Except.ok.inj hok]
        exact hroom
      · obtain ⟨hquiet, hroom⟩ := ih hlater
        exact ⟨hquiet, hroom⟩

theorem burst_trace {room position : Nat} {done : Nat × Bool}
    (h : (burst words room position).Trace events done) :
    done.1 = position + (sentWords events).length ∧ Follows words position (sentWords events) ∧
      (done.2 = true → (sentWords events).length = room) ∧
      (done.2 = false → words done.1 = none) := by
  induction room generalizing events position with
  | zero =>
      obtain ⟨rfl, rfl⟩ := Prog.trace_pure.mp h
      exact ⟨rfl, follows_nil position, fun _ => rfl, fun hused => (Bool.false_ne_true hused.symm).elim⟩
  | succ room ih =>
      unfold burst at h
      split at h
      · rename_i hnone
        obtain ⟨rfl, rfl⟩ := Prog.trace_pure.mp h
        exact ⟨rfl, follows_nil position, fun hused => (Bool.false_ne_true hused).elim, fun _ => hnone⟩
      · rename_i word hword
        obtain ⟨answer, later, rfl, hlater⟩ := Prog.trace_perform.mp h
        obtain ⟨hposition, hfollows, hused, hended⟩ := ih hlater
        have hsent : sentWords (⟨.writeWord word, answer⟩ :: later) = word :: sentWords later := rfl
        rw [hsent, List.length_cons]
        refine ⟨by omega, hfollows.cons hword, fun hdone => ?_, hended⟩
        rw [hused hdone]

/-- What a number of bursts does. -/
theorem fill_trace {polls : UInt32} {fuel position : Nat} {selected : Bool}
    {result : Option (Except Error Unit)}
    (h : (fill words polls fuel selected position).Trace events result) :
    Follows words position (sentWords events) ∧
      (result = some (.ok ()) → words (position + (sentWords events).length) = none) ∧
      (∀ n, position ≤ n → n < position + fuel → words n = none → result ≠ none) := by
  induction fuel generalizing events selected position with
  | zero =>
      obtain ⟨rfl, rfl⟩ := Prog.trace_pure.mp h
      refine ⟨follows_nil position, fun hok => (by cases hok), fun n hn hfuel => ?_⟩
      omega
  | succ fuel ih =>
      obtain ⟨waited, later, room, rfl, hwait, hlater⟩ := Prog.trace_bind.mp h
      obtain ⟨hquiet, hroom⟩ := wait_room_trace hwait
      cases room with
      | error error =>
          obtain ⟨rfl, rfl⟩ := Prog.trace_pure.mp hlater
          rw [List.append_nil, hquiet]
          exact ⟨follows_nil position, fun hok => (by cases hok), fun _ _ _ _ => (by simp)⟩
      | ok room =>
          obtain ⟨written, ordered, done, rfl, hburst, hfenced⟩ := Prog.trace_bind.mp hlater
          obtain ⟨position', used⟩ := done
          obtain ⟨hposition, hfollows, hused, hended⟩ := burst_trace hburst
          dsimp only at hposition hused hended
          obtain ⟨fenced, selecting, rfl, hselecting⟩ := Prog.trace_perform.mp hfenced
          -- with or without the selection the loop goes on, or ends
          have hgoes : ∃ selection last, selecting = selection ++ last ∧ sentWords selection = [] ∧
              (if used then fill words polls fuel true position' else
                Pure.pure (some (.ok ()))).Trace last result := by
            cases selected with
            | false =>
                obtain ⟨answer, last, rfl, hlast⟩ := Prog.trace_perform.mp hselecting
                exact ⟨[⟨.select 1, answer⟩], last, rfl, rfl, hlast⟩
            | true => exact ⟨[], selecting, rfl, rfl, hselecting⟩
          obtain ⟨selection, last, rfl, hselection, hlast⟩ := hgoes
          have hsent : sentWords (waited ++ (written ++ ⟨.fence, fenced⟩ :: (selection ++ last))) =
              sentWords written ++ sentWords last := by
            rw [sent_words_append, sent_words_append, hquiet, List.nil_append]
            show sentWords written ++ sentWords (selection ++ last) = _
            rw [sent_words_append, hselection, List.nil_append]
          rw [hsent, List.length_append]
          cases used with
          | true =>
              obtain ⟨hfollows', hwhole, hreturns⟩ := ih hlast
              have hroom' := hroom room rfl
              have hfull := hused rfl
              rw [hposition] at hfollows' hwhole
              refine ⟨hfollows.append hfollows', fun hok => ?_, fun n hn hfuel hnone => ?_⟩
              · rw [← Nat.add_assoc]
                exact hwhole hok
              · -- a word that is not there lies behind the burst
                refine hreturns n ?_ (by omega) hnone
                by_contra hinside
                have hword := hfollows (n - position) (by omega)
                rw [show position + (n - position) = n by omega, hnone,
                  List.getElem?_eq_getElem (by omega)] at hword
                cases hword
          | false =>
              obtain ⟨rfl, rfl⟩ := Prog.trace_pure.mp hlast
              refine ⟨?_, fun _ => ?_, fun _ _ _ _ => (by simp)⟩
              · show Follows words position (sentWords written ++ [])
                rw [List.append_nil]
                exact hfollows
              · show words (position + ((sentWords written).length + 0)) = none
                rw [Nat.add_zero, ← hposition]
                exact hended rfl

theorem drain_trace {polls : Nat} {result : Except Error Unit}
    (h : (drain polls).Trace events result) :
    sentWords events = [] ∧ (result = .ok () → ∃ before status,
      events = before ++ [⟨.errors, (0 : UInt32)⟩, ⟨.status, status⟩] ∧ status &&& 5 = (4 : UInt32)) := by
  induction polls generalizing events with
  | zero =>
      obtain ⟨rfl, rfl⟩ := Prog.trace_pure.mp h
      exact ⟨rfl, fun hok => (by cases hok)⟩
  | succ polls ih =>
      obtain ⟨errors, later, rfl, hlater⟩ := Prog.trace_perform.mp h
      split at hlater
      · obtain ⟨rfl, rfl⟩ := Prog.trace_pure.mp hlater
        exact ⟨rfl, fun hok => (by cases hok)⟩
      rename_i herrors
      obtain ⟨status, last, rfl, hlast⟩ := Prog.trace_perform.mp hlater
      split at hlast
      · rename_i hstatus
        obtain ⟨rfl, rfl⟩ := Prog.trace_pure.mp hlast
        obtain rfl : errors = (0 : UInt32) := not_not.mp herrors
        exact ⟨rfl, fun _ => ⟨[], status, rfl, hstatus⟩⟩
      · obtain ⟨hquiet, hobserved⟩ := ih hlast
        refine ⟨hquiet, fun hok => ?_⟩
        obtain ⟨before, status', rfl, hstatus⟩ := hobserved hok
        exact ⟨⟨.errors, errors⟩ :: ⟨.status, status⟩ :: before, status', rfl, hstatus⟩

theorem pump_trace {polls : UInt32} {fuel : Nat} {result : Option (Except Error Unit)}
    (h : (pump words polls fuel).Trace events result) :
    Follows words 0 (sentWords events) ∧
      (result = some (.ok ()) → words (sentWords events).length = none ∧ ∃ before status,
        events = before ++ [⟨.errors, (0 : UInt32)⟩, ⟨.status, status⟩] ∧
          status &&& 5 = (4 : UInt32)) ∧
      (∀ n < fuel, words n = none → result ≠ none) := by
  obtain ⟨filled, draining, value, rfl, hfill, hdraining⟩ := Prog.trace_bind.mp h
  obtain ⟨hfollows, hwhole, hreturns⟩ := fill_trace hfill
  rw [Nat.zero_add] at hwhole
  have hreturns' : ∀ n < fuel, words n = none → value ≠ none := fun n hn =>
    hreturns n (Nat.zero_le n) (by omega)
  rcases value with _ | error | _
  · obtain ⟨rfl, rfl⟩ := Prog.trace_pure.mp hdraining
    rw [List.append_nil]
    exact ⟨hfollows, fun hok => (by cases hok), hreturns'⟩
  · obtain ⟨rfl, rfl⟩ := Prog.trace_pure.mp hdraining
    rw [List.append_nil]
    exact ⟨hfollows, fun hok => (by cases hok), hreturns'⟩
  · obtain ⟨drained, nothing, drainResult, rfl, hdrain, hpure⟩ := Prog.trace_bind.mp hdraining
    obtain ⟨rfl, rfl⟩ := Prog.trace_pure.mp hpure
    obtain ⟨hquiet, hobserved⟩ := drain_trace hdrain
    rw [List.append_nil, sent_words_append, hquiet, List.append_nil]
    refine ⟨hfollows, fun hok => ⟨hwhole rfl, ?_⟩, fun _ _ _ => (by simp)⟩
    obtain ⟨before, status, rfl, hstatus⟩ := hobserved (Option.some.inj hok)
    exact ⟨filled ++ before, status, (List.append_assoc _ _ _).symm, hstatus⟩

/-- What a stream does. -/
structure Streamed (driver : Driver) (words : Nat → Option UInt16) (polls : UInt32) (fuel : Nat)
    (registers : Registers) (events : List IoEvent) (result : Option (Except Error Unit)) :
    Prop where
  order : Follows words 0 (sentWords events)
  whole : result = some (.ok ()) → words (sentWords events).length = none
  observed : result = some (.ok ()) → ∃ before status halt,
    events = before ++ ⟨.errors, (0 : UInt32)⟩ :: ⟨.status, status⟩ :: halt ∧
      status &&& 5 = (4 : UInt32) ∧ sentWords halt = []
  halted : events.any enables = true → result ≠ none →
    Halted driver.modeBits (registers.after events) events
  refused : driver.configured = false ∨ polls = 0 → events = [] ∧ result ≠ some (.ok ())
  quiet : events = [] ∨ events.any enables = true
  returns : ∀ n < fuel, words n = none → result ≠ none

theorem stream_trace {driver : Driver} {polls : UInt32} {fuel : Nat}
    {result : Option (Except Error Unit)} (registers : Registers)
    (h : (stream driver words polls fuel).Trace events result) :
    Streamed driver words polls fuel registers events result := by
  unfold stream at h
  split at h
  · obtain ⟨rfl, rfl⟩ := Prog.trace_pure.mp h
    exact ⟨follows_nil 0, fun hok => (by cases hok), fun hok => (by cases hok),
      fun hany => (Bool.false_ne_true hany).elim, fun _ => ⟨rfl, by simp⟩, .inl rfl,
      fun _ _ _ => (by simp)⟩
  rename_i hconfigured
  split at h
  · obtain ⟨rfl, rfl⟩ := Prog.trace_pure.mp h
    exact ⟨follows_nil 0, fun hok => (by cases hok), fun hok => (by cases hok),
      fun hany => (Bool.false_ne_true hany).elim, fun _ => ⟨rfl, by simp⟩, .inl rfl,
      fun _ _ _ => (by simp)⟩
  rename_i hpolls
  obtain ⟨⟨⟩, moded, rfl, hmoded⟩ := Prog.trace_perform.mp h
  obtain ⟨⟨⟩, cleared, rfl, hcleared⟩ := Prog.trace_perform.mp hmoded
  obtain ⟨⟨⟩, enabled, rfl, henabled⟩ := Prog.trace_perform.mp hcleared
  obtain ⟨pumped, halting, value, rfl, hpump, hhalt⟩ := Prog.trace_bind.mp henabled
  obtain ⟨hfollows, hended, hreturns⟩ := pump_trace hpump
  have hrefused : ∀ {P : Prop}, driver.configured = false ∨ polls = 0 → P := by
    rintro P (hunconfigured | hzero)
    · rw [hunconfigured] at hconfigured
      exact absurd rfl hconfigured
    · exact absurd hzero hpolls
  cases value with
  | none =>
      obtain ⟨rfl, rfl⟩ := Prog.trace_pure.mp hhalt
      rw [List.append_nil]
      exact ⟨hfollows, fun hok => (by cases hok), fun hok => (by cases hok),
        fun _ hne => absurd rfl hne, fun h => hrefused h, .inr rfl, hreturns⟩
  | some value =>
      obtain ⟨⟨⟩, deselected, rfl, hdeselected⟩ := Prog.trace_perform.mp hhalt
      obtain ⟨⟨⟩, restored, rfl, hrestored⟩ := Prog.trace_perform.mp hdeselected
      obtain ⟨⟨⟩, clearing, rfl, hclearing⟩ := Prog.trace_perform.mp hrestored
      obtain ⟨⟨⟩, nothing, rfl, hpure⟩ := Prog.trace_perform.mp hclearing
      obtain ⟨rfl, rfl⟩ := Prog.trace_pure.mp hpure
      have hsent : ∀ rest, sentWords rest = [] →
          sentWords (⟨.control (control16BitTxOnly ||| driver.modeBits), ()⟩ :: ⟨.clear, ()⟩ ::
            ⟨.enable 1, ()⟩ :: (pumped ++ rest)) = sentWords pumped := by
        intro rest hrest
        show sentWords (pumped ++ rest) = _
        rw [sent_words_append, hrest, List.append_nil]
      refine ⟨?_, fun hok => ?_, fun hok => ?_, fun _ _ => ?_, fun h => hrefused h, .inr rfl,
        fun _ _ _ => (by simp)⟩
      · rw [hsent _ rfl]
        exact hfollows
      · rw [hsent _ rfl]
        exact (hended hok).1
      · obtain ⟨before, status, rfl, hstatus⟩ := (hended hok).2
        exact ⟨_ :: _ :: _ :: before, status, _, by rw [List.append_assoc]; rfl, hstatus, rfl⟩
      · have hafter : ∀ registers : Registers, registers.after [⟨.enable 0, ()⟩, ⟨.select 0, ()⟩,
            ⟨.control (control8BitDuplex ||| driver.modeBits), ()⟩, ⟨.clear, ()⟩] =
            ⟨0, 0, control8BitDuplex ||| driver.modeBits⟩ := fun _ => rfl
        have hend : ∀ start : List IoEvent, registers.after (start ++ (pumped ++
            [⟨.enable 0, ()⟩, ⟨.select 0, ()⟩,
              ⟨.control (control8BitDuplex ||| driver.modeBits), ()⟩, ⟨.clear, ()⟩])) =
            ⟨0, 0, control8BitDuplex ||| driver.modeBits⟩ := by
          intro start
          rw [after_append, after_append, hafter]
        have hend' := hend [⟨.control (control16BitTxOnly ||| driver.modeBits), ()⟩, ⟨.clear, ()⟩,
          ⟨.enable 1, ()⟩]
        refine ⟨congrArg Registers.enable hend', congrArg Registers.select hend',
          congrArg Registers.control hend', ⟨.control (control16BitTxOnly ||| driver.modeBits), ()⟩ ::
            ⟨.clear, ()⟩ :: ⟨.enable 1, ()⟩ :: (pumped ++ [⟨.enable 0, ()⟩, ⟨.select 0, ()⟩,
              ⟨.control (control8BitDuplex ||| driver.modeBits), ()⟩]), ?_⟩
        simp

end

/-! ## Byte transactions -/

/-- The control register is left alone. -/
def Calm (events : List IoEvent) : Prop :=
  ∀ registers : Registers, (registers.after events).control = registers.control

section

variable {events first second : List IoEvent}

theorem calm_nil : Calm [] := fun _ => rfl

theorem Calm.append (hfirst : Calm first) (hsecond : Calm second) : Calm (first ++ second) := by
  intro registers
  rw [after_append, hsecond, hfirst]

theorem Calm.cons {event : IoEvent} (h : Calm events)
    (hevent : ∀ registers : Registers, (registers.write event).control = registers.control) :
    Calm (event :: events) := by
  intro registers
  show ((registers.write event).after events).control = registers.control
  rw [h, hevent]

theorem preload_trace {bytes : List UInt8} {result : Except Error Unit}
    (h : (preload bytes).Trace events result) :
    Calm events ∧ received events = [] ∧ (result = .ok () → sentBytes events = bytes) := by
  induction bytes generalizing events with
  | nil =>
      obtain ⟨rfl, rfl⟩ := Prog.trace_pure.mp h
      exact ⟨calm_nil, rfl, fun _ => rfl⟩
  | cons byte bytes ih =>
      obtain ⟨status, later, rfl, hlater⟩ := Prog.trace_perform.mp h
      split at hlater
      · obtain ⟨rfl, rfl⟩ := Prog.trace_pure.mp hlater
        exact ⟨calm_nil.cons fun _ => rfl, rfl, fun hok => (by cases hok)⟩
      · obtain ⟨⟨⟩, written, rfl, hwritten⟩ := Prog.trace_perform.mp hlater
        obtain ⟨hcalm, hreceived, hsent⟩ := ih hwritten
        refine ⟨(hcalm.cons fun _ => rfl).cons fun _ => rfl, hreceived, fun hok => ?_⟩
        show byte :: sentBytes written = byte :: bytes
        rw [hsent hok]

theorem take_byte_trace {status : UInt32} {got rest : List UInt8} {done : List UInt8 × List UInt8}
    (h : (takeByte status got rest).Trace events done) :
    Calm events ∧ sentBytes events = [] ∧ done.1 = got ++ received events ∧
      done.1.length + done.2.length = got.length + rest.length := by
  unfold takeByte at h
  split at h
  · obtain ⟨rfl, rfl⟩ := Prog.trace_pure.mp h
    exact ⟨calm_nil, rfl, (List.append_nil got).symm, rfl⟩
  · split at h
    · obtain ⟨taken, nothing, rfl, hpure⟩ := Prog.trace_perform.mp h
      obtain ⟨rfl, rfl⟩ := Prog.trace_pure.mp hpure
      refine ⟨calm_nil.cons fun _ => rfl, rfl, rfl, ?_⟩
      show (got ++ [_]).length + _ = _
      rw [List.length_append]
      show got.length + 1 + _ = got.length + (_ + 1)
      exact Nat.add_right_comm _ _ _
    · obtain ⟨rfl, rfl⟩ := Prog.trace_pure.mp h
      exact ⟨calm_nil, rfl, (List.append_nil got).symm, rfl⟩

theorem receive_trace {polls : Nat} {got rest : List UInt8} {done : Except Error Unit × List UInt8}
    (h : (receive polls got rest).Trace events done) :
    Calm events ∧ sentBytes events = [] ∧ (done.1 = .ok () → done.2 = got ++ received events) ∧
      done.2.length = got.length + rest.length := by
  induction polls generalizing events got rest with
  | zero =>
      obtain ⟨rfl, rfl⟩ := Prog.trace_pure.mp h
      exact ⟨calm_nil, rfl, fun hok => (by cases hok), List.length_append⟩
  | succ polls ih =>
      obtain ⟨errors, later, rfl, hlater⟩ := Prog.trace_perform.mp h
      split at hlater
      · obtain ⟨rfl, rfl⟩ := Prog.trace_pure.mp hlater
        exact ⟨calm_nil.cons fun _ => rfl, rfl, fun hok => (by cases hok), List.length_append⟩
      obtain ⟨status, last, rfl, hlast⟩ := Prog.trace_perform.mp hlater
      obtain ⟨taking, going, value, rfl, htake, hgoing⟩ := Prog.trace_bind.mp hlast
      obtain ⟨got', rest'⟩ := value
      obtain ⟨hcalm, hnone, hgot, hlength⟩ := take_byte_trace htake
      dsimp only at hgot hlength hgoing
      split at hgoing
      · rename_i hdone
        obtain ⟨rfl, rfl⟩ := Prog.trace_pure.mp hgoing
        obtain ⟨hempty, -⟩ := Bool.and_eq_true_iff.mp hdone
        rw [List.isEmpty_iff] at hempty
        subst hempty
        rw [List.append_nil]
        refine ⟨(hcalm.cons fun _ => rfl).cons fun _ => rfl, hnone, fun _ => ?_, ?_⟩
        · rw [List.append_nil]
          exact hgot
        · rw [List.append_nil]
          exact hlength
      · obtain ⟨hcalm', hnone', hwhole, hlength'⟩ := ih hgoing
        refine ⟨((hcalm.append hcalm').cons fun _ => rfl).cons fun _ => rfl, ?_, fun hok => ?_, ?_⟩
        · show sentBytes (taking ++ going) = []
          rw [sent_bytes_append, hnone, hnone']
          rfl
        · rw [hwhole hok, hgot, List.append_assoc]
          show got ++ (received taking ++ received going) = got ++ received (taking ++ going)
          rw [received_append]
        · rw [hlength', hlength]

theorem exchange_trace {bytes : List UInt8} {polls : UInt32} {done : Except Error Unit × List UInt8}
    (h : (exchange bytes polls).Trace events done) :
    Calm events ∧ (done.1 = .ok () → sentBytes events = bytes ∧ done.2 = received events) ∧
      done.2.length = bytes.length := by
  obtain ⟨status, later, rfl, hlater⟩ := Prog.trace_perform.mp h
  split at hlater
  · obtain ⟨rfl, rfl⟩ := Prog.trace_pure.mp hlater
    exact ⟨calm_nil.cons fun _ => rfl, fun hok => (by cases hok), rfl⟩
  obtain ⟨loading, selecting, value, rfl, hload, hselecting⟩ := Prog.trace_bind.mp hlater
  obtain ⟨hcalm, hreceived, hsent⟩ := preload_trace hload
  cases value with
  | error error =>
      obtain ⟨rfl, rfl⟩ := Prog.trace_pure.mp hselecting
      exact ⟨(hcalm.append calm_nil).cons fun _ => rfl, fun hok => (by cases hok), rfl⟩
  | ok _ =>
      obtain ⟨⟨⟩, receiving, rfl, hreceiving⟩ := Prog.trace_perform.mp hselecting
      obtain ⟨hcalm', hnone, hwhole, hlength⟩ := receive_trace hreceiving
      refine ⟨(hcalm.append (hcalm'.cons fun _ => rfl)).cons fun _ => rfl, fun hok => ⟨?_, ?_⟩, ?_⟩
      · show sentBytes (loading ++ _) = bytes
        rw [sent_bytes_append, hsent rfl]
        show bytes ++ sentBytes receiving = bytes
        rw [hnone, List.append_nil]
      · rw [hwhole hok]
        show received receiving = received (loading ++ _)
        rw [received_append, hreceived]
        rfl
      · rw [hlength]
        exact Nat.zero_add _

/-- What a byte transaction does. -/
structure Exchanged (driver : Driver) (bytes : List UInt8) (polls : UInt32) (registers : Registers)
    (events : List IoEvent) (result : Except Error Unit) (slice : List UInt8) : Prop where
  sent : result = .ok () → sentBytes events = bytes
  filled : result = .ok () → bytes ≠ [] → slice = received events
  length : slice.length = bytes.length
  halted : events.any enables = true → Halted driver.modeBits (registers.after events) events
  refused : driver.configured = false ∨ bytes.length > 8 ∨ bytes = [] ∨ polls = 0 → events = []
  calm : Calm events

theorem transfer_trace {driver : Driver} {bytes slice : List UInt8} {polls : UInt32}
    {result : Except Error Unit} {registers : Registers}
    (hregisters : driver.configured = true →
      registers.control = control8BitDuplex ||| driver.modeBits)
    (h : (transfer driver bytes polls).Trace events (result, slice)) :
    Exchanged driver bytes polls registers events result slice := by
  unfold transfer at h
  split at h
  · obtain ⟨rfl, heq⟩ := Prog.trace_pure.mp h
    obtain ⟨rfl, rfl⟩ := Prod.mk.inj heq
    exact ⟨fun hok => (by cases hok), fun hok => (by cases hok), rfl,
      fun hany => (Bool.false_ne_true hany).elim, fun _ => rfl, calm_nil⟩
  rename_i hconfigured
  split at h
  · obtain ⟨rfl, heq⟩ := Prog.trace_pure.mp h
    obtain ⟨rfl, rfl⟩ := Prod.mk.inj heq
    exact ⟨fun hok => (by cases hok), fun hok => (by cases hok), rfl,
      fun hany => (Bool.false_ne_true hany).elim, fun _ => rfl, calm_nil⟩
  rename_i hshort
  split at h
  · rename_i hempty
    obtain ⟨rfl, heq⟩ := Prog.trace_pure.mp h
    obtain ⟨rfl, rfl⟩ := Prod.mk.inj heq
    rw [List.isEmpty_iff] at hempty
    exact ⟨fun _ => hempty.symm, fun _ hne => absurd hempty hne, rfl,
      fun hany => (Bool.false_ne_true hany).elim, fun _ => rfl, calm_nil⟩
  rename_i hsome
  split at h
  · obtain ⟨rfl, heq⟩ := Prog.trace_pure.mp h
    obtain ⟨rfl, rfl⟩ := Prod.mk.inj heq
    exact ⟨fun hok => (by cases hok), fun hok => (by cases hok), rfl,
      fun hany => (Bool.false_ne_true hany).elim, fun _ => rfl, calm_nil⟩
  rename_i hpolls
  obtain ⟨⟨⟩, enabled, rfl, henabled⟩ := Prog.trace_perform.mp h
  obtain ⟨exchanging, halting, value, rfl, hexchange, hhalt⟩ := Prog.trace_bind.mp henabled
  obtain ⟨hcalm, hwhole, hlength⟩ := exchange_trace hexchange
  obtain ⟨⟨⟩, deselected, rfl, hdeselected⟩ := Prog.trace_perform.mp hhalt
  obtain ⟨⟨⟩, clearing, rfl, hclearing⟩ := Prog.trace_perform.mp hdeselected
  obtain ⟨⟨⟩, nothing, rfl, hpure⟩ := Prog.trace_perform.mp hclearing
  obtain ⟨rfl, rfl⟩ := Prog.trace_pure.mp hpure
  have hconfigured' : driver.configured = true := by simpa using hconfigured
  have hends : Calm [⟨.enable 0, ()⟩, ⟨.select 0, ()⟩, ⟨.clear, ()⟩] := fun _ => rfl
  have hall : Calm (⟨.enable 1, ()⟩ :: (exchanging ++
      [⟨.enable 0, ()⟩, ⟨.select 0, ()⟩, ⟨.clear, ()⟩])) :=
    (hcalm.append hends).cons fun _ => rfl
  refine ⟨fun hok => ?_, fun hok _ => ?_, hlength, fun _ => ?_, ?_, hall⟩
  · show sentBytes (exchanging ++ _) = bytes
    rw [sent_bytes_append, (hwhole hok).1]
    exact List.append_nil _
  · show slice = received (exchanging ++ _)
    rw [received_append]
    exact (hwhole hok).2.trans (List.append_nil _).symm
  · have hafter : ∀ start : Registers, (start.after [⟨.enable 0, ()⟩, ⟨.select 0, ()⟩,
        ⟨.clear, ()⟩]).enable = 0 ∧ (start.after [⟨.enable 0, ()⟩, ⟨.select 0, ()⟩,
        ⟨.clear, ()⟩]).select = 0 := fun _ => ⟨rfl, rfl⟩
    have hsplit : registers.after (⟨.enable 1, ()⟩ :: (exchanging ++
        [⟨.enable 0, ()⟩, ⟨.select 0, ()⟩, ⟨.clear, ()⟩])) =
        ((registers.write ⟨.enable 1, ()⟩).after exchanging).after
          [⟨.enable 0, ()⟩, ⟨.select 0, ()⟩, ⟨.clear, ()⟩] := after_append _
    refine ⟨?_, ?_, (hall registers).trans (hregisters hconfigured'),
      ⟨.enable 1, ()⟩ :: (exchanging ++ [⟨.enable 0, ()⟩, ⟨.select 0, ()⟩]), by simp⟩
    · rw [hsplit]
      exact (hafter _).1
    · rw [hsplit]
      exact (hafter _).2
  · rintro (hnot | hlong | hnone | hzero)
    · rw [hnot] at hconfigured'
      exact absurd hconfigured' Bool.false_ne_true
    · exact absurd hlong hshort
    · exact absurd (List.isEmpty_iff.mpr hnone) hsome
    · exact absurd hzero hpolls

end

/-! ## The transmit FIFO -/

/-- A word is written only where the FIFO has room. -/
def HasRoom (level : Nat) : Op → Prop
  | .writeWord _ => level < fifoDepth
  | _ => True

section

variable {words : Nat → Option UInt16}

/-- The level only falls by itself. -/
theorem fifo_stable (bound : Nat) : fifo.Stable (· ≤ bound) :=
  fun _ _ h hless => Nat.le_trans hless h

theorem fifo_stable_true : fifo.Stable fun _ => True := fun _ _ _ _ => trivial

/-- Other operations need no room. -/
theorem wp_other {α : Type} {operation : Op} (hother : ∀ level, HasRoom level operation)
    {next : operation.Ret → Io α} {post : α → Nat → Prop} {level : Nat}
    (hnext : ∀ result after, fifo.wp HasRoom (next result) post after) :
    fifo.wp HasRoom (io operation >>= next) post level :=
  Machine.wp_perform fifo_stable_true trivial (fun before _ => hother before)
    fun _ result after _ _ => hnext result after

theorem wp_wait_room (polls level : Nat) :
    fifo.wp HasRoom (waitRoom polls)
      (fun result level => ∀ room, result = .ok room → level + room ≤ fifoDepth) level := by
  induction polls generalizing level with
  | zero => exact fun _ _ room hok => (by cases hok)
  | succ polls ih =>
      refine Machine.wp_perform fifo_stable_true trivial (fun _ _ => trivial) ?_
      rintro before result after - ⟨hlevel, rfl⟩
      split
      · rename_i hroom
        refine Machine.wp_pure ?_ ?_
        · intro state next h hless room hok
          exact Nat.le_trans (Nat.add_le_add_right hless room) (h room hok)
        · intro room hok
          rw [← Except.ok.inj hok]
          omega
      · exact ih after

theorem wp_burst (room position level : Nat) (hroom : level + room ≤ fifoDepth) :
    fifo.wp HasRoom (burst words room position) (fun _ _ => True) level := by
  induction room generalizing position level with
  | zero => exact fun _ _ => trivial
  | succ room ih =>
      unfold burst
      split
      · exact fun _ _ => trivial
      · refine Machine.wp_perform (fifo_stable level) (Nat.le_refl level) ?_ ?_
        · intro before hbefore
          show before < fifoDepth
          omega
        · rintro before result after hbefore rfl
          exact ih _ _ (by omega)

theorem wp_fill (polls : UInt32) (fuel : Nat) (selected : Bool) (position level : Nat) :
    fifo.wp HasRoom (fill words polls fuel selected position) (fun _ _ => True) level := by
  induction fuel generalizing selected position level with
  | zero => exact fun _ _ => trivial
  | succ fuel ih =>
      refine Machine.wp_bind (Machine.wp_mono (wp_wait_room polls.toNat level) ?_)
      intro result level hroom
      cases result with
      | error error => exact fun _ _ => trivial
      | ok room =>
          refine Machine.wp_bind (Machine.wp_mono (wp_burst room position level (hroom room rfl)) ?_)
          rintro ⟨position, used⟩ level -
          refine wp_other (by exact fun _ => trivial) fun _ level => ?_
          have hgoes : ∀ level, fifo.wp HasRoom (if used then fill words polls fuel true position
              else pure (some (.ok ()))) (fun _ _ => True) level := by
            intro level
            cases used with
            | true => exact ih true position level
            | false => exact fun _ _ => trivial
          cases selected with
          | false => exact wp_other (by exact fun _ => trivial) fun _ level => hgoes level
          | true => exact hgoes level

theorem wp_drain (polls level : Nat) :
    fifo.wp HasRoom (drain polls) (fun _ _ => True) level := by
  induction polls generalizing level with
  | zero => exact fun _ _ => trivial
  | succ polls ih =>
      refine wp_other (by exact fun _ => trivial) fun errors level => ?_
      split
      · exact fun _ _ => trivial
      · refine wp_other (by exact fun _ => trivial) fun status level => ?_
        split
        · exact fun _ _ => trivial
        · exact ih level

theorem wp_pump (polls : UInt32) (fuel level : Nat) :
    fifo.wp HasRoom (pump words polls fuel) (fun _ _ => True) level := by
  refine Machine.wp_bind (Machine.wp_mono (wp_fill polls fuel false 0 level) ?_)
  rintro (_ | error | _) level -
  · exact fun _ _ => trivial
  · exact fun _ _ => trivial
  · refine Machine.wp_bind (Machine.wp_mono (wp_drain polls.toNat level) ?_)
    exact fun _ _ _ _ _ => trivial

theorem wp_stream (driver : Driver) (polls : UInt32) (fuel level : Nat) :
    fifo.wp HasRoom (stream driver words polls fuel) (fun _ _ => True) level := by
  unfold stream
  split
  · exact fun _ _ => trivial
  split
  · exact fun _ _ => trivial
  refine wp_other (by exact fun _ => trivial) fun _ level => ?_
  refine wp_other (by exact fun _ => trivial) fun _ level => ?_
  refine wp_other (by exact fun _ => trivial) fun _ level => ?_
  refine Machine.wp_bind (Machine.wp_mono (wp_pump polls fuel level) ?_)
  rintro (_ | result) level -
  · exact fun _ _ => trivial
  · refine wp_other (by exact fun _ => trivial) fun _ level => ?_
    refine wp_other (by exact fun _ => trivial) fun _ level => ?_
    refine wp_other (by exact fun _ => trivial) fun _ level => ?_
    exact wp_other (by exact fun _ => trivial) fun _ level => fun _ _ => trivial

end

/-! ## Sessions -/

/-- A call of the driver. -/
inductive Call where
  | configure (divider : Divider) (mode : Mode)
  | stream (words : Nat → Option UInt16) (polls : UInt32) (fuel : Nat)
  | transfer (bytes : List UInt8) (polls : UInt32)

/-- What a call leaves; a stream that goes on has no result. -/
structure Done where
  result : Option (Except Error Unit)
  slice : List UInt8
  driver : Driver

/-- The program of a call. -/
def Call.run (driver : Driver) : Call → Io Done
  | .configure divider mode => do
      let driver ← Spi.configure divider mode
      pure ⟨some (.ok ()), [], driver⟩
  | .stream words polls fuel => do
      let result ← Spi.stream driver words polls fuel
      pure ⟨result, [], driver⟩
  | .transfer bytes polls => do
      let (result, slice) ← Spi.transfer driver bytes polls
      pure ⟨some result, slice, driver⟩

/-- A call that was made: the driver before it, what it did and what it left. -/
structure CallRecord where
  call : Call
  driver : Driver
  registers : Registers
  events : List IoEvent
  done : Done

/-- One call after another, from a driver and the contents of the registers. -/
inductive Session : Driver → Registers → List CallRecord → Prop where
  | nil (driver : Driver) (registers : Registers) : Session driver registers []
  | last {record : CallRecord}
      (h : (record.call.run record.driver).Trace record.events record.done) :
      Session record.driver record.registers [record]
  | cons {record : CallRecord} {rest : List CallRecord}
      (h : (record.call.run record.driver).Trace record.events record.done)
      (hreturned : record.done.result ≠ none)
      (hrest : Session record.done.driver (record.registers.after record.events) rest) :
      Session record.driver record.registers (record :: rest)

/-- A call did what it should. -/
def CallRecord.Sound (record : CallRecord) : Prop :=
  match record.call with
  | .configure _ _ => True
  | .stream words polls fuel => Streamed record.driver words polls fuel record.registers
      record.events record.done.result
  | .transfer bytes polls => ∃ result, record.done.result = some result ∧
      Exchanged record.driver bytes polls record.registers record.events result record.done.slice

/-- Between calls the control register of a configured driver is the one of byte transactions. -/
def ByteMode (driver : Driver) (registers : Registers) : Prop :=
  driver.configured = true → registers.control = control8BitDuplex ||| driver.modeBits

theorem configure_byte_mode {divider : Divider} {mode : Mode} {events : List IoEvent}
    {driver : Driver} (h : (configure divider mode).Trace events driver) (registers : Registers) :
    ByteMode driver (registers.after events) := by
  obtain ⟨⟨⟩, _, rfl, hselect⟩ := Prog.trace_perform.mp h
  obtain ⟨⟨⟩, _, rfl, hmask⟩ := Prog.trace_perform.mp hselect
  obtain ⟨⟨⟩, _, rfl, hdma⟩ := Prog.trace_perform.mp hmask
  obtain ⟨⟨⟩, _, rfl, hbaud⟩ := Prog.trace_perform.mp hdma
  obtain ⟨⟨⟩, _, rfl, hcontrol⟩ := Prog.trace_perform.mp hbaud
  obtain ⟨⟨⟩, _, rfl, hclear⟩ := Prog.trace_perform.mp hcontrol
  obtain ⟨⟨⟩, _, rfl, hpure⟩ := Prog.trace_perform.mp hclear
  obtain ⟨rfl, rfl⟩ := Prog.trace_pure.mp hpure
  exact fun _ => rfl

/-- A call does what it should and leaves byte mode behind, if it returns. -/
theorem call_trace {record : CallRecord}
    (h : (record.call.run record.driver).Trace record.events record.done)
    (hmode : ByteMode record.driver record.registers) :
    record.Sound ∧ (record.done.result ≠ none →
      ByteMode record.done.driver (record.registers.after record.events)) := by
  obtain ⟨call, driver, registers, events, done⟩ := record
  dsimp only at h hmode
  cases call with
  | configure divider mode =>
      obtain ⟨first, second, value, rfl, hconfigure, hpure⟩ := Prog.trace_bind.mp h
      obtain ⟨rfl, rfl⟩ := Prog.trace_pure.mp hpure
      rw [List.append_nil]
      exact ⟨trivial, fun _ => configure_byte_mode hconfigure registers⟩
  | stream words polls fuel =>
      obtain ⟨first, second, value, rfl, hstream, hpure⟩ := Prog.trace_bind.mp h
      obtain ⟨rfl, rfl⟩ := Prog.trace_pure.mp hpure
      rw [List.append_nil]
      have hstreamed := stream_trace registers hstream
      refine ⟨hstreamed, fun hreturned hconfigured => ?_⟩
      rcases hstreamed.quiet with hnothing | henabled
      · rw [hnothing]
        exact hmode hconfigured
      · exact (hstreamed.halted henabled hreturned).control
  | transfer bytes polls =>
      obtain ⟨first, second, value, rfl, htransfer, hpure⟩ := Prog.trace_bind.mp h
      obtain ⟨result, slice⟩ := value
      obtain ⟨rfl, rfl⟩ := Prog.trace_pure.mp hpure
      rw [List.append_nil]
      have hexchanged := transfer_trace hmode htransfer
      refine ⟨⟨result, rfl, hexchanged⟩, fun _ hconfigured => ?_⟩
      exact (hexchanged.calm registers).trans (hmode hconfigured)

theorem session_sound {driver : Driver} {registers : Registers} {log : List CallRecord}
    (h : Session driver registers log) (hmode : ByteMode driver registers) :
    ∀ record ∈ log, record.Sound := by
  induction h with
  | nil driver registers => exact fun record hrecord => (by cases hrecord)
  | last hrun =>
      intro record hrecord
      rw [List.mem_singleton.mp hrecord]
      exact (call_trace hrun hmode).1
  | cons hrun hreturned _ ih =>
      obtain ⟨hsound, hafter⟩ := call_trace hrun hmode
      exact List.forall_mem_cons.mpr ⟨hsound, ih (hafter hreturned)⟩

/-- Every stream and every transfer of a session does as it should and halts the controller, and a
stream never writes into a full FIFO. -/
theorem spi_session {registers : Registers} {log : List CallRecord}
    (h : Session .fresh registers log) :
    (∀ record ∈ log, record.Sound) ∧
    ∀ driver words polls fuel level word
      (rest : Op.Ret (.writeWord word) → Io (Option (Except Error Unit))) after,
      Relation.ReflTransGen fifo.Step (stream driver words polls fuel, level)
        (.op (.writeWord word) rest, after) → after < fifoDepth := by
  refine ⟨session_sound h fun hconfigured => (Bool.false_ne_true hconfigured).elim, ?_⟩
  intro driver words polls fuel level word rest after hrun
  have hroom : HasRoom after (.writeWord word) :=
    Machine.wp_guard (Machine.wp_run (wp_stream driver polls fuel level) hrun)
  exact hroom

/-- Mode 0 at a quarter of the clock. -/
def mode0 : CallRecord where
  call := .configure ⟨4, by decide⟩ ⟨false, false⟩
  driver := .fresh
  registers := ⟨1, 1, 0⟩
  events := [⟨.enable 0, ()⟩, ⟨.select 0, ()⟩, ⟨.mask 0, ()⟩, ⟨.dma 0, ()⟩, ⟨.baud 4, ()⟩,
    ⟨.control 7, ()⟩, ⟨.clear, ()⟩]
  done := ⟨some (.ok ()), [], ⟨true, 0⟩⟩

/-- The FIFO is empty at first, then full, and then drained to five entries. -/
def draining (history : List IoEvent) : (operation : Op) → operation.Ret
  | .txLevel =>
      match history.countP fun event => event.operation = .txLevel with
      | 0 => (0 : UInt32)
      | 1 => (8 : UInt32)
      | _ => (5 : UInt32)
  | .status => (4 : UInt32)
  | .errors => (0 : UInt32)
  | .read => (0 : UInt8)
  | .select _ | .mask _ | .dma _ | .baud _ | .control _ | .clear | .enable _ | .writeWord _
  | .write _ | .fence => ()

/-- The call that streams ten words. -/
def tenWordsCall : Call :=
  .stream (fun n => if n < 10 then some (.ofNat (0x8000 + n)) else none) 2 4

/-- Ten words streamed through the FIFO of eight entries. -/
def tenWords : CallRecord where
  call := tenWordsCall
  driver := mode0.done.driver
  registers := mode0.registers.after mode0.events
  events := (Prog.runOver draining [] (tenWordsCall.run mode0.done.driver)).1
  done := (Prog.runOver draining [] (tenWordsCall.run mode0.done.driver)).2

/-- The words are sent in two bursts with a wait for room between them. -/
theorem spi_session_refill :
    sentWords tenWords.events =
      [0x8000, 0x8001, 0x8002, 0x8003, 0x8004, 0x8005, 0x8006, 0x8007, 0x8008, 0x8009] ∧
    (tenWords.events.countP fun event => event.operation = .txLevel) = 3 ∧
    tenWords.done.result = some (.ok ()) ∧ tenWords.Sound := by
  have hmode : (mode0.call.run mode0.driver).Trace mode0.events mode0.done := by
    iterate 7 refine .op ?_
    exact .pure _
  have hstream : (tenWords.call.run tenWords.driver).Trace tenWords.events tenWords.done :=
    Prog.trace_run_over draining [] _
  have hsession : Session .fresh mode0.registers [mode0, tenWords] :=
    .cons hmode (by simp [mode0]) (.last hstream)
  exact ⟨by decide +kernel, by decide +kernel, rfl,
    (spi_session hsession).1 tenWords (List.mem_cons_of_mem _ List.mem_cons_self)⟩

end NanoKvm.Spi
