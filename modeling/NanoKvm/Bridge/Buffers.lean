import NanoKvm.Bridge.Live
import NanoKvm.Exec.Ledger

/-!
# Who has which buffer

The four queues of `live_bridge_vpss` between which its buffers go round, read off the calls, and
`Owned`: the variables `mid_state`, `free_mid` and `held_capture` say where every buffer is. One
lemma says what each movement of a buffer keeps.
-/

namespace NanoKvm.Bridge

open Exec

/-- The queues that the capture and middle buffers wait in. -/
inductive Waiting where
  | captureQueue
  | scalerOutput
  | scalerCapture
  | encoderOutput
deriving DecidableEq

/-- The device and type of a queue. -/
def Waiting.side : Waiting → Device × BufType
  | .captureQueue => (.capture, .capture)
  | .scalerOutput => (.scaler, .output)
  | .scalerCapture => (.scaler, .capture)
  | .encoderOutput => (.encoder, .output)

theorem side_inj {first second : Waiting} (h : first.side = second.side) : first = second := by
  cases first <;> cases second <;> first | rfl | cases h

/-- A queue other than the one of the call. -/
theorem side_other {first second : Waiting} (h : first ≠ second) : second.side ≠ first.side :=
  fun hside => h (side_inj hside).symm

/-- The buffers that a queue is given and those that it returns. -/
def Waiting.ledger (queue : Waiting) : Ledger (Event Call Call.Ret) UInt32 where
  gains
    | ⟨.qbuf device type _ index _ _, true⟩ =>
        if (device, type) = queue.side then some index else none
    | _ => none
  returns
    | ⟨.dqbuf device type _, .buffer buffer⟩ =>
        if (device, type) = queue.side then some buffer.index else none
    | _ => none

/-- Each queue returns only buffers that it has. -/
def Returning (events : List (Event Call Call.Ret)) : Prop :=
  ∀ queue : Waiting, queue.ledger.settle events 0 ≠ none

/-- The buffers in a queue. -/
def waiting (events : List (Event Call Call.Ret)) (queue : Waiting) : Multiset UInt32 :=
  (queue.ledger.settle events 0).getD 0

/-- `free_mid` counts the free middle buffers; every middle buffer is free, queued once to the
scaler or queued once to the encoder, as its state says; every capture buffer is in the capture
queue, held, or queued to the scaler, and only once; and no queue has any other buffer. -/
structure Owned (queues : Waiting → Multiset UInt32) (live : Live) : Prop where
  freeMid : live.freeMid.toNat = live.midState.count .free
  states : live.midState.length = live.mid.count.toNat
  scaled : ∀ index, (queues .scalerCapture).count index =
    if index < live.mid.count ∧ live.midStateAt index = .atVpss then 1 else 0
  encoding : ∀ index, (queues .encoderOutput).count index =
    if index < live.mid.count ∧ live.midStateAt index = .atEncoder then 1 else 0
  captured : ∀ index, (queues .captureQueue).count index + (queues .scalerOutput).count index +
    (if live.heldCapture = index ∧ index ≠ uint32Max then 1 else 0) =
      if index < live.captureQueue.count then 1 else 0

namespace Owned

variable {queues : Waiting → Multiset UInt32} {live : Live} {index : UInt32}

theorem inside (h : Owned queues live) (hindex : index < live.mid.count) :
    index.toNat < live.midState.length := by
  rw [h.states]
  exact UInt32.lt_iff_toNat_lt.mp hindex

theorem state_at (h : Owned queues live) (hindex : index < live.mid.count) :
    live.midStateAt index = live.midState.get ⟨index.toNat, h.inside hindex⟩ := by
  rw [Live.midStateAt, List.getElem?_eq_getElem (h.inside hindex), Option.getD_some,
    List.get_eq_getElem]

/-- The states after one is stored. -/
theorem state_set (h : Owned queues live) (hindex : index < live.mid.count) (state : MidState)
    (other : UInt32) : (live.setMid index state).midStateAt other =
      if other = index then state else live.midStateAt other := by
  unfold Live.midStateAt Live.setMid
  dsimp only
  by_cases heq : other = index
  · subst heq
    rw [List.getElem?_set_self (h.inside hindex), if_pos rfl, Option.getD_some]
  · have hne : index.toNat ≠ other.toNat := fun hsame => heq (UInt32.toNat_inj.mp hsame).symm
    rw [List.getElem?_set_ne hne, if_neg heq]

/-- The free buffers after a state is stored. -/
theorem free_set (h : Owned queues live) (hindex : index < live.mid.count) (state : MidState) :
    (live.setMid index state).midState.count .free =
      live.midState.count .free - (if live.midStateAt index = .free then 1 else 0) +
        if state = .free then 1 else 0 := by
  rw [Live.setMid, List.count_set (h.inside hindex), h.state_at hindex]
  simp only [beq_iff_eq, List.get_eq_getElem]

/-- A buffer in the encoder's queue. -/
theorem at_encoder (h : Owned queues live) (hmem : index ∈ queues .encoderOutput) :
    index < live.mid.count ∧ live.midStateAt index = .atEncoder := by
  have hcount := h.encoding index
  have hpos := Multiset.count_pos.mpr hmem
  split at hcount
  · assumption
  · omega

/-- A middle buffer in the scaler's queue. -/
theorem at_vpss (h : Owned queues live) (hmem : index ∈ queues .scalerCapture) :
    index < live.mid.count ∧ live.midStateAt index = .atVpss := by
  have hcount := h.scaled index
  have hpos := Multiset.count_pos.mpr hmem
  split at hcount
  · assumption
  · omega

/-- A capture buffer in the scaler's queue. -/
theorem at_scaler (h : Owned queues live) (hmem : index ∈ queues .scalerOutput) :
    index < live.captureQueue.count := by
  have hcaptured := h.captured index
  have hpos := Multiset.count_pos.mpr hmem
  by_contra hout
  rw [if_neg hout] at hcaptured
  omega

/-- The encoder is done with a middle buffer. -/
theorem encoder_done (h : Owned queues live) (hmem : index ∈ queues .encoderOutput) :
    Owned (Function.update queues .encoderOutput ((queues .encoderOutput).erase index))
      { live.setMid index .free with freeMid := live.freeMid + 1 } := by
  obtain ⟨hindex, hstate⟩ := h.at_encoder hmem
  have hstates := h.state_set hindex .free
  refine ⟨?_, (List.length_set ..).trans h.states, fun other => ?_, fun other => ?_, h.captured⟩
  · have hfree := h.free_set hindex .free
    have hle : (live.setMid index .free).midState.count .free ≤ live.mid.count.toNat := by
      rw [← h.states]
      exact List.count_le_length.trans_eq (List.length_set ..)
    have hlt := live.mid.count.toNat_lt
    rw [hstate, if_neg (by decide), if_pos rfl, Nat.sub_zero] at hfree
    show (live.freeMid + 1).toNat = (live.setMid index .free).midState.count .free
    rw [hfree, ← h.freeMid] at hle ⊢
    rw [UInt32.toNat_add, UInt32.toNat_one]
    exact Nat.mod_eq_of_lt (by omega)
  · have hscaled := h.scaled other
    show Multiset.count other (queues .scalerCapture) =
      if other < live.mid.count ∧ (live.setMid index .free).midStateAt other = .atVpss then 1 else 0
    rw [hscaled, hstates]
    by_cases heq : other = index
    · simp [heq, hstate]
    · simp [heq]
  · have hencoding := h.encoding other
    show Multiset.count other ((queues .encoderOutput).erase index) =
      if other < live.mid.count ∧ (live.setMid index .free).midStateAt other = .atEncoder then 1
      else 0
    rw [hstates]
    by_cases heq : other = index
    · subst heq
      rw [Multiset.count_erase_self, hencoding]
      simp [hindex, hstate]
    · rw [Multiset.count_erase_of_ne heq, hencoding]
      simp [heq]

/-- The scaler has filled a middle buffer, which goes to the encoder. -/
theorem scaler_filled (h : Owned queues live) (hmem : index ∈ queues .scalerCapture) :
    Owned (Function.update
        (Function.update queues .scalerCapture ((queues .scalerCapture).erase index))
        .encoderOutput (queues .encoderOutput + {index}))
      (live.setMid index .atEncoder) := by
  obtain ⟨hindex, hstate⟩ := h.at_vpss hmem
  have hstates := h.state_set hindex .atEncoder
  refine ⟨?_, (List.length_set ..).trans h.states, fun other => ?_, fun other => ?_, h.captured⟩
  · have hfree := h.free_set hindex .atEncoder
    rw [hstate, if_neg (by decide), if_neg (by decide), Nat.sub_zero, Nat.add_zero] at hfree
    exact h.freeMid.trans hfree.symm
  · have hscaled := h.scaled other
    show Multiset.count other ((queues .scalerCapture).erase index) =
      if other < live.mid.count ∧ (live.setMid index .atEncoder).midStateAt other = .atVpss then 1
      else 0
    rw [hstates]
    by_cases heq : other = index
    · subst heq
      rw [Multiset.count_erase_self, hscaled]
      simp [hindex, hstate]
    · rw [Multiset.count_erase_of_ne heq, hscaled]
      simp [heq]
  · have hencoding := h.encoding other
    show Multiset.count other (queues .encoderOutput + {index}) =
      if other < live.mid.count ∧ (live.setMid index .atEncoder).midStateAt other = .atEncoder
      then 1 else 0
    rw [hstates, Multiset.count_add, Multiset.count_singleton, hencoding]
    by_cases heq : other = index
    · subst heq
      simp [hindex, hstate]
    · simp [heq]

/-- The scaler is done with a capture buffer, which goes back to the capture device. -/
theorem scaler_done (h : Owned queues live) (hmem : index ∈ queues .scalerOutput) :
    Owned (Function.update
        (Function.update queues .scalerOutput ((queues .scalerOutput).erase index))
        .captureQueue (queues .captureQueue + {index})) live := by
  refine ⟨h.freeMid, h.states, h.scaled, h.encoding, fun other => ?_⟩
  have hcaptured := h.captured other
  show Multiset.count other (queues .captureQueue + {index}) +
    Multiset.count other ((queues .scalerOutput).erase index) + _ = _
  rw [Multiset.count_add, Multiset.count_singleton, ← hcaptured]
  by_cases heq : other = index
  · subst heq
    have hpos := Multiset.count_pos.mpr hmem
    rw [Multiset.count_erase_self, if_pos rfl]
    omega
  · rw [Multiset.count_erase_of_ne heq, if_neg heq]
    omega

/-- A capture buffer is one of those that there are. -/
theorem in_capture (h : Owned queues live) (hmem : index ∈ queues .captureQueue) :
    index ≠ uint32Max := by
  rintro rfl
  have hcaptured := h.captured uint32Max
  have hpos := Multiset.count_pos.mpr hmem
  have hout : ¬ uint32Max < live.captureQueue.count := by
    rw [UInt32.lt_iff_toNat_lt]
    have hlt := live.captureQueue.count.toNat_lt
    have hmax : uint32Max.toNat = 2 ^ 32 - 1 := rfl
    omega
  rw [if_neg hout] at hcaptured
  omega

/-- A captured frame is held. -/
theorem take (h : Owned queues live) (hheld : live.heldCapture = uint32Max)
    (hmem : index ∈ queues .captureQueue) :
    Owned (Function.update queues .captureQueue ((queues .captureQueue).erase index))
      { live with heldCapture := index } := by
  refine ⟨h.freeMid, h.states, h.scaled, h.encoding, fun other => ?_⟩
  have hcaptured := h.captured other
  have hpos := Multiset.count_pos.mpr hmem
  have hnone : ¬ (live.heldCapture = other ∧ other ≠ uint32Max) :=
    fun hboth => hboth.2 (hboth.1.symm.trans hheld)
  show Multiset.count other ((queues .captureQueue).erase index) +
    Multiset.count other (queues .scalerOutput) + (if index = other ∧ other ≠ uint32Max then 1 else 0)
      = _
  rw [← hcaptured, if_neg hnone, Nat.add_zero]
  by_cases heq : other = index
  · subst heq
    rw [Multiset.count_erase_self, if_pos ⟨rfl, h.in_capture hmem⟩]
    omega
  · rw [Multiset.count_erase_of_ne heq, if_neg fun hboth => heq hboth.1.symm, Nat.add_zero]

/-- The held frame goes to one of the queues of capture buffers. -/
theorem give (h : Owned queues live) (hheld : live.heldCapture ≠ uint32Max) (queue : Waiting)
    (hqueue : queue = .captureQueue ∨ queue = .scalerOutput) :
    Owned (Function.update queues queue (queues queue + {live.heldCapture}))
      { live with heldCapture := uint32Max } := by
  have hcaptured : ∀ other,
      (Function.update queues queue (queues queue + {live.heldCapture}) .captureQueue).count other +
        (Function.update queues queue (queues queue + {live.heldCapture}) .scalerOutput).count other +
        (if uint32Max = other ∧ other ≠ uint32Max then 1 else 0) =
          if other < live.captureQueue.count then 1 else 0 := by
    intro other
    rw [← h.captured other, if_neg (fun hboth => hboth.2 hboth.1.symm), Nat.add_zero]
    have hone : (if live.heldCapture = other ∧ other ≠ uint32Max then 1 else 0) =
        Multiset.count other ({live.heldCapture} : Multiset UInt32) := by
      rw [Multiset.count_singleton]
      by_cases heq : other = live.heldCapture
      · rw [if_pos heq, if_pos ⟨heq.symm, heq ▸ hheld⟩]
      · rw [if_neg heq, if_neg fun hboth => heq hboth.1.symm]
    rw [hone]
    rcases hqueue with rfl | rfl
    · show Multiset.count other (queues .captureQueue + {live.heldCapture}) +
        Multiset.count other (queues .scalerOutput) = _
      rw [Multiset.count_add]
      omega
    · show Multiset.count other (queues .captureQueue) +
        Multiset.count other (queues .scalerOutput + {live.heldCapture}) = _
      rw [Multiset.count_add]
      omega
  rcases hqueue with rfl | rfl
  · exact ⟨h.freeMid, h.states, h.scaled, h.encoding, hcaptured⟩
  · exact ⟨h.freeMid, h.states, h.scaled, h.encoding, hcaptured⟩

/-- While `free_mid` is not zero there is a free middle buffer. -/
theorem free_index (h : Owned queues live) (hfree : live.freeMid ≠ 0) :
    live.midState.idxOf .free < live.mid.count.toNat := by
  rw [← h.states]
  refine List.idxOf_lt_length_iff.mpr (List.count_pos_iff.mp ?_)
  rw [← h.freeMid]
  exact Nat.pos_of_ne_zero fun hzero => hfree (UInt32.toNat_inj.mp hzero)

/-- A free middle buffer goes to the scaler. -/
theorem scale (h : Owned queues live) (hindex : index < live.mid.count)
    (hstate : live.midStateAt index = .free) :
    Owned (Function.update queues .scalerCapture (queues .scalerCapture + {index}))
      { live.setMid index .atVpss with freeMid := live.freeMid - 1 } := by
  have hstates := h.state_set hindex .atVpss
  refine ⟨?_, (List.length_set ..).trans h.states, fun other => ?_, fun other => ?_, h.captured⟩
  · have hfree := h.free_set hindex .atVpss
    have hpos : 0 < live.midState.count .free := by
      refine List.count_pos_iff.mpr ?_
      rw [← hstate, h.state_at hindex]
      exact List.get_mem ..
    rw [hstate, if_pos rfl, if_neg (by decide), Nat.add_zero] at hfree
    show (live.freeMid - 1).toNat = (live.setMid index .atVpss).midState.count .free
    have hle : (1 : UInt32) ≤ live.freeMid := by
      rw [UInt32.le_iff_toNat_le, h.freeMid]
      exact hpos
    rw [hfree, ← h.freeMid, UInt32.toNat_sub_of_le _ _ hle]
    rfl
  · have hscaled := h.scaled other
    show Multiset.count other (queues .scalerCapture + {index}) =
      if other < live.mid.count ∧ (live.setMid index .atVpss).midStateAt other = .atVpss then 1
      else 0
    rw [hstates, Multiset.count_add, Multiset.count_singleton, hscaled]
    by_cases heq : other = index
    · subst heq
      simp [hindex, hstate]
    · simp [heq]
  · have hencoding := h.encoding other
    show Multiset.count other (queues .encoderOutput) =
      if other < live.mid.count ∧ (live.setMid index .atVpss).midStateAt other = .atEncoder then 1
      else 0
    rw [hstates, hencoding]
    by_cases heq : other = index
    · simp [heq, hstate]
    · simp [heq]

/-- What the states are read from stays. -/
theorem same {after : Live} (h : Owned queues live) (hmid : after.mid.count = live.mid.count)
    (hcapture : after.captureQueue.count = live.captureQueue.count)
    (hstates : after.midState = live.midState) (hfree : after.freeMid = live.freeMid)
    (hheld : after.heldCapture = live.heldCapture) : Owned queues after where
  freeMid := by rw [hfree, hstates, h.freeMid]
  states := by rw [hstates, hmid, h.states]
  scaled := fun index => by
    rw [Live.midStateAt, hmid, hstates]
    exact h.scaled index
  encoding := fun index => by
    rw [Live.midStateAt, hmid, hstates]
    exact h.encoding index
  captured := by
    rw [hcapture, hheld]
    exact h.captured

end Owned

end NanoKvm.Bridge
