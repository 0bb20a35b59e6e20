import NanoKvm.Mailbox.LinuxSide

/-!
# The C906L side keeps the protocol

A call of `mailbox_send` in progress has a message that is posted at most once, because the
call ends when it is. The interrupt handler hands on what it has copied after the release
of the lock; until then it holds at most one message of each assigned channel.
-/

namespace NanoKvm.Mailbox

open Exec

/-- The invariant of the shim's memory. -/
structure RtosInv (shim : RtosState) (accepted : List Message)
    (posted : Channel → List Message) : Prop where
  sending : ∀ call ∈ shim.sending, call.1 ∈ accepted ∧ call.1 ∉ posted call.1.channel
  nodup : (shim.sending.map Prod.fst).Nodup

/-- The shim between two transactions. -/
def RtosIdle (own : Local RtosState) (posted _taken : Channel → List Message) : Prop :=
  own.inside = false ∧ RtosInv own.priv own.accepted posted

/-- A program of the C906L. -/
abbrev RtosRuns {α : Type} (program : RtosCode α) (post : α → World Memory → Prop)
    (s : World Memory) : Prop :=
  @Runs Memory Events .rtos α program post s

section

variable {shim : RtosState} {accepted : List Message} {posted : Channel → List Message}

/-- Only the calls in progress matter. -/
theorem RtosInv.congr (h : RtosInv shim accepted posted) {other : RtosState}
    (hsending : other.sending = shim.sending) : RtosInv other accepted posted :=
  ⟨hsending ▸ h.sending, hsending ▸ h.nodup⟩

/-- A call begins with a new message. -/
theorem RtosInv.begin (h : RtosInv shim accepted posted) {message : Message} (retries : Nat)
    (hfresh : message ∉ accepted) (hunposted : message ∉ posted message.channel) :
    RtosInv { shim with sending := shim.sending ++ [(message, retries)] }
      (accepted ++ [message]) posted := by
  constructor
  · intro call hcall
    rcases List.mem_append.1 hcall with hold | hnew
    · obtain ⟨hin, hout⟩ := h.sending call hold
      exact ⟨List.mem_append_left _ hin, hout⟩
    · rw [List.mem_singleton] at hnew
      rw [hnew]
      exact ⟨by simp, hunposted⟩
  · show ((shim.sending ++ [(message, retries)]).map Prod.fst).Nodup
    rw [List.map_append]
    refine List.nodup_append.2 ⟨h.nodup, List.nodup_singleton _, ?_⟩
    intro first hfirst second hsecond heq
    obtain ⟨call, hcall, hmessage⟩ := List.mem_map.1 hfirst
    have hsecond : second = message := by simpa using hsecond
    exact hfresh (hsecond ▸ heq ▸ hmessage ▸ (h.sending call hcall).1)

/-- A call returns, after its message was posted or not. -/
theorem RtosInv.finish (h : RtosInv shim accepted posted) (index : Nat) :
    RtosInv { shim with sending := shim.sending.eraseIdx index } accepted posted := by
  constructor
  · exact fun call hcall => h.sending call (List.mem_of_mem_eraseIdx hcall)
  · exact h.nodup.sublist ((List.eraseIdx_sublist _ _).map _)

theorem RtosInv.finish_posted (h : RtosInv shim accepted posted) {index : Nat}
    {message : Message} {retries : Nat} (hindex : shim.sending[index]? = some (message, retries)) :
    RtosInv { shim with sending := shim.sending.eraseIdx index } accepted
      (Function.update posted message.channel (posted message.channel ++ [message])) := by
  have hfinish := h.finish index
  refine ⟨fun call hcall => ?_, hfinish.nodup⟩
  obtain ⟨hin, hout⟩ := hfinish.sending call hcall
  refine ⟨hin, ?_⟩
  have hne : call.1 ≠ message := by
    intro heq
    have hmap : (shim.sending.map Prod.fst)[index]? = some message := by
      rw [List.getElem?_map, hindex]
      rfl
    have herased := not_mem_erase_idx h.nodup hmap
    rw [List.eraseIdx_map] at herased
    exact herased (List.mem_map.2 ⟨call, hcall, heq⟩)
  by_cases hchannel : call.1.channel = message.channel
  · rw [hchannel] at hout ⊢
    simp [hout, hne]
  · simpa [hchannel] using hout

/-- A call goes on with fewer retries. -/
theorem RtosInv.retry (h : RtosInv shim accepted posted) {index : Nat} {message : Message}
    {retries : Nat} (hindex : shim.sending[index]? = some (message, retries)) (left : Nat) :
    RtosInv { shim with sending := shim.sending.set index (message, left) } accepted posted := by
  have hmap : (shim.sending.set index (message, left)).map Prod.fst =
      shim.sending.map Prod.fst := by
    rw [List.map_set]
    refine List.ext_getElem? fun other => ?_
    rw [List.getElem?_set]
    split
    · rename_i heq
      subst heq
      rw [List.getElem?_map, hindex]
      have hlt : index < (shim.sending.map Prod.fst).length := by
        simpa using (List.getElem?_eq_some_iff.1 hindex).1
      rw [if_pos hlt]
      rfl
    · rfl
  constructor
  · intro call hcall
    rcases List.mem_or_eq_of_mem_set hcall with hold | hnew
    · exact h.sending call hold
    · have hcalled := h.sending _ (List.mem_of_getElem? hindex)
      rw [hnew]
      exact hcalled
  · show ((shim.sending.set index (message, left)).map Prod.fst).Nodup
    rw [hmap]
    exact h.nodup

end

section

variable {s : World Memory} {known : Registers → Prop} {own : Local RtosState} {α : Type}
variable {post : α → World Memory → Prop} {posted taken : Channel → List Message}

/-- The shim changes its own memory. -/
theorem modify_rtos_then (hlasting : Lasting Memory .rtos known)
    (h : With .rtos known own s) {change : RtosState → RtosState} {rest : Unit → RtosCode α}
    (hrest : ∀ t, With .rtos known { own with priv := change own.priv } t →
      RtosRuns (rest ()) post t) :
    RtosRuns (modifyRtos change >>= rest) post s :=
  load_then hlasting h fun _ ht => store_then hlasting ht hrest

/-- The end of a transaction. -/
theorem rtos_settled {value : α} (h : With .rtos (Free .rtos posted taken) own s)
    (hidle : RtosIdle own posted taken) :
    RtosRuns (pure value) (fun _ => Settled .rtos RtosIdle) s :=
  Machine.wp_pure (@settled_stable Memory Events .rtos RtosIdle) ⟨own, posted, taken, h, hidle⟩

/-- A transaction that ends with a change of the shim's own memory. -/
theorem modify_rtos_settles (h : With .rtos (Free .rtos posted taken) own s)
    {change : RtosState → RtosState}
    (hidle : RtosIdle { own with priv := change own.priv } posted taken) :
    RtosRuns (modifyRtos change) (fun _ => Settled .rtos RtosIdle) s :=
  Machine.wp_tail (modify_rtos_then (free_lasting posted taken) h fun _ ht =>
    rtos_settled ht hidle)

/-- `mailbox_lock_acquire` -/
theorem mailbox_lock_acquire_then (h : With .rtos (Free .rtos posted taken) own s)
    (hinside : own.inside = false) (attempts : Nat) (terminalFailure : Bool)
    {rest : Option UInt16 → RtosCode α}
    (hacquired : ∀ g shim t,
      With .rtos (Held .rtos g) { own with inside := true, priv := shim } t →
      shim.sending = own.priv.sending → g.posted .linux = posted → g.taken .rtos = taken →
      RtosRuns (rest (some g.lock)) post t)
    (hfailed : ∀ shim t, With .rtos (Free .rtos posted taken) { own with priv := shim } t →
      shim.sending = own.priv.sending → RtosRuns (rest none) post t) :
    RtosRuns (mailboxLockAcquire attempts terminalFailure >>= rest) post s := by
  refine load_then (free_lasting posted taken) h fun t ht => ?_
  refine store_then (free_lasting posted taken) ht fun t ht => ?_
  show RtosRuns ((acquireLoop _ attempts >>= lockOutcome _ terminalFailure) >>= rest) post t
  refine Machine.wp_assoc (acquire_then ht (rtos_token_owns own.priv.lockCounter) hinside attempts
    ?_ ?_)
  · intro g t ht hlock hposted htaken
    have hthen := hacquired g _ t ht rfl hposted htaken
    rwa [hlock] at hthen
  · intro t ht
    cases terminalFailure with
    | false => exact hfailed _ t ht rfl
    | true =>
        refine Machine.wp_assoc (modify_rtos_then (free_lasting posted taken) ht fun t ht => ?_)
        exact hfailed _ t ht rfl

/-- `mailbox_lock_release` -/
theorem mailbox_lock_release_then {g : Registers} (h : With .rtos (Held .rtos g) own s)
    {token : UInt16} (htoken : token = g.lock) {rest : Bool → RtosCode α}
    (hrest : ∀ t, With .rtos (Free .rtos (g.posted .linux) (g.taken .rtos))
      { own with inside := false } t → RtosRuns (rest true) post t) :
    RtosRuns (mailboxLockRelease token >>= rest) post s := by
  subst htoken
  exact Machine.wp_assoc (release_then h hrest)

/-! ## The interrupt handler -/

/-- What the handler takes from a channel. -/
structure Took (g g' : Registers) (channel : Channel) (result : Option Message) : Prop where
  lock : g'.lock = g.lock
  posted : g'.posted .linux = g.posted .linux
  others : ∀ other, other ≠ channel → g'.taken .rtos other = g.taken .rtos other
  pending : ∀ other, other ≠ channel →
    g'.pending Side.rtos.cpu other = g.pending Side.rtos.cpu other
  taken : g'.taken .rtos channel = g.taken .rtos channel ++ result.toList

/-- A channel is copied and acknowledged. -/
theorem take_channel_then {g : Registers} (h : With .rtos (Held .rtos g) own s)
    {snapshot : Bits} {channel : Channel}
    (hsnapshot : snapshot channel = true → g.pending Side.rtos.cpu channel = true)
    {rest : Option Message → RtosCode α}
    (hrest : ∀ result g' t, With .rtos (Held .rtos g') own t → Took g g' channel result →
      RtosRuns (rest result) post t) :
    RtosRuns (takeChannel snapshot channel >>= rest) post s := by
  unfold takeChannel
  split
  · rename_i hset
    have hpending := hsnapshot hset
    have hslot := pending_slot h hpending
    refine held_read h (.readSlot channel) (fun g => g.slots channel) (fun _ => trivial)
      (fun _ _ _ hread => hread) fun t ht => ?_
    refine Machine.wp_assoc (acknowledge_then ht (bit channel) ?_)
    intro g' t ht hlock hposted _ htaken hpending'
    refine hrest (some (g.slots channel)) g' t ht ⟨hlock, hposted, ?_, ?_, ?_⟩
    · intro other hne
      rw [htaken, if_neg (by simp [bit, hne])]
    · intro other hne
      rw [hpending']
      simp [bit, hne]
    · rw [htaken, if_pos ⟨by simp [bit], hpending⟩, hslot]
      rfl
  · refine hrest none g s h ⟨rfl, rfl, fun _ _ => rfl, fun _ _ => rfl, ?_⟩
    simp

/-- Unassigned channels are drained. -/
theorem drain_unexpected_then {g : Registers} (h : With .rtos (Held .rtos g) own s)
    (snapshot : Bits) {rest : Unit → RtosCode α}
    (hrest : ∀ g' shim t, With .rtos (Held .rtos g') { own with priv := shim } t →
      shim.sending = own.priv.sending → g'.lock = g.lock →
      g'.posted .linux = g.posted .linux →
      g'.taken .rtos controlChannel = g.taken .rtos controlChannel →
      g'.taken .rtos vqKickChannel = g.taken .rtos vqKickChannel →
      RtosRuns (rest ()) post t) :
    RtosRuns (drainUnexpected snapshot >>= rest) post s := by
  unfold drainUnexpected
  split
  · refine Machine.wp_assoc (acknowledge_then h (unexpectedBits snapshot) ?_)
    intro g' t ht hlock hposted _ htaken _
    refine modify_rtos_then (held_lasting g') ht fun t ht => ?_
    refine hrest g' _ t ht rfl hlock hposted ?_ ?_
    · rw [htaken, if_neg (by simp [unexpectedBits, bit])]
    · rw [htaken, if_neg (by simp [unexpectedBits, bit])]
  · exact hrest g own.priv s h rfl rfl rfl rfl rfl

/-- A copied message is queued or dropped, and counted. -/
theorem queue_then (h : With .rtos (Free .rtos posted taken) own s) {channel : Channel}
    {message : Message} {value : UInt64} (hvalue : value = handedOn .rtos channel message)
    (htaken : ((own.delivered channel).map Delivery.message ++ [message]).Sublist
      (taken channel))
    (drop : RtosState → RtosState)
    (hdrop : ∀ shim : RtosState, (drop shim).sending = shim.sending)
    {rest : Unit → RtosCode α}
    (hrest : ∀ own' t, With .rtos (Free .rtos posted taken) own' t →
      own'.inside = own.inside → own'.accepted = own.accepted →
      own'.priv.sending = own.priv.sending →
      (∀ other, other ≠ channel → own'.delivered other = own.delivered other) →
      RtosRuns (rest ()) post t) :
    RtosRuns (queueFromIsr channel drop message value >>= rest) post s := by
  refine deliver_then h hvalue htaken fun kept t ht => ?_
  cases kept with
  | true =>
      refine hrest _ t ht rfl rfl rfl fun other hne => ?_
      simp [Local.keep, hne]
  | false =>
      refine modify_rtos_then (free_lasting posted taken) ht fun t ht => ?_
      exact hrest _ t ht rfl rfl (hdrop _) fun _ _ => rfl

/-- `mailbox_isr` behind the lock. -/
theorem mailbox_isr_locked_settles {g : Registers}
    (h : With .rtos (Held .rtos g) own s)
    (hinv : RtosInv own.priv own.accepted (g.posted .linux)) :
    RtosRuns (mailboxIsrLocked g.lock) (fun _ => Settled .rtos RtosIdle) s := by
  have hne : vqKickChannel ≠ controlChannel := by decide
  have hdelivered : ∀ channel, ((own.delivered channel).map Delivery.message).Sublist
      (g.taken .rtos channel) := by
    intro channel
    have hvalid := h.valid.delivered .rtos channel
    rw [h.own, h.regs.1] at hvalid
    exact hvalid
  refine modify_rtos_then (held_lasting g) h fun t ht => ?_
  refine held_read ht (.readStatus Side.rtos.cpu) (fun g => g.pending Side.rtos.cpu)
    (fun _ => trivial) (fun _ _ _ hread => hread) fun t ht => ?_
  refine take_channel_then ht id fun request g₁ t ht hrequest => ?_
  refine take_channel_then ht (fun hset => ?_) fun kick g₂ t ht hkick => ?_
  · rw [hrequest.pending vqKickChannel hne]
    exact hset
  refine drain_unexpected_then ht _ fun g₃ shim t ht hsending hlock hposted hcontrol hvq => ?_
  refine mailbox_lock_release_then ht (hlock.trans (hkick.lock.trans hrequest.lock)).symm
    fun t ht => ?_
  -- What is taken from the two channels is what was delivered, and the copies.
  have hrequests : g₃.taken .rtos controlChannel =
      g.taken .rtos controlChannel ++ request.toList := by
    rw [hcontrol, hkick.others controlChannel hne.symm, hrequest.taken]
  have hkicks : g₃.taken .rtos vqKickChannel = g.taken .rtos vqKickChannel ++ kick.toList := by
    rw [hvq, hkick.taken, hrequest.others vqKickChannel hne]
  have hposted' : g₃.posted .linux = g.posted .linux :=
    hposted.trans (hkick.posted.trans hrequest.posted)
  have hidle : ∀ own' : Local RtosState, own'.inside = false → own'.accepted = own.accepted →
      own'.priv.sending = own.priv.sending → RtosIdle own' (g₃.posted .linux) (g₃.taken .rtos) := by
    intro own' hinside haccepted hsame
    refine ⟨hinside, ?_⟩
    rw [haccepted, hposted']
    exact hinv.congr hsame
  -- The kick is queued last, whatever became of the request.
  have hlast : ∀ own' t, With .rtos (Free .rtos (g₃.posted .linux) (g₃.taken .rtos)) own' t →
      own'.inside = false → own'.accepted = own.accepted →
      own'.priv.sending = own.priv.sending →
      own'.delivered vqKickChannel = own.delivered vqKickChannel →
      RtosRuns (queueKick kick) (fun _ => Settled .rtos RtosIdle) t := by
    intro own' t ht hinside haccepted hsame hlog
    cases kick with
    | none => exact rtos_settled ht (hidle own' hinside haccepted hsame)
    | some message =>
        refine Machine.wp_tail (queue_then ht rfl ?_ RtosState.dropKick (fun _ => rfl) ?_)
        · rw [hlog, hkicks]
          exact (hdelivered vqKickChannel).append_right _
        · intro own'' t ht hinside' haccepted' hsame' _
          exact rtos_settled ht (hidle own'' (hinside'.trans hinside)
            (haccepted'.trans haccepted) (hsame'.trans hsame))
  cases request with
  | none => exact hlast _ t ht rfl rfl hsending rfl
  | some message =>
      refine queue_then ht rfl ?_ RtosState.dropRequest (fun _ => rfl) ?_
      · rw [hrequests]
        exact (hdelivered controlChannel).append_right _
      · intro own' t ht hinside haccepted hsame hlog
        exact hlast own' t ht hinside haccepted (hsame.trans hsending) (hlog vqKickChannel hne)

/-- `mailbox_isr` -/
theorem mailbox_isr_settles (h : With .rtos (Free .rtos posted taken) own s)
    (hidle : RtosIdle own posted taken) :
    RtosRuns mailboxIsr (fun _ => Settled .rtos RtosIdle) s := by
  obtain ⟨hinside, hinv⟩ := hidle
  refine load_then (free_lasting posted taken) h fun t ht => ?_
  split
  · refine mailbox_lock_acquire_then ht hinside irqAttempts false ?_ ?_
    · intro g shim t ht hsending hposted _
      refine mailbox_isr_locked_settles ht ?_
      rw [hposted]
      exact hinv.congr hsending
    · intro shim t ht hsending
      have hmissed : shim.missLock.sending = shim.sending := by
        unfold RtosState.missLock
        dsimp only
        split
        · split <;> rfl
        · rfl
      exact modify_rtos_settles ht ⟨hinside, hinv.congr (hmissed.trans hsending)⟩
  · exact rtos_settled ht ⟨hinside, hinv⟩

/-! ## Sending -/

/-- A call of `mailbox_send` begins. -/
theorem mailbox_send_settles (channel : Channel) (word : UInt64) (retries : Nat)
    (h : With .rtos (Free .rtos posted taken) own s) (hidle : RtosIdle own posted taken) :
    RtosRuns (mailboxSend channel word retries) (fun _ => Settled .rtos RtosIdle) s := by
  obtain ⟨hfresh, hunposted⟩ := message_unseen h channel word
  refine accept_then (free_lasting posted taken) h fun t ht => ?_
  exact modify_rtos_settles ht ⟨hidle.1, hidle.2.begin retries hfresh hunposted⟩

/-- One turn of the loop of `mailbox_send` behind the lock. -/
theorem send_locked_settles {g : Registers} (h : With .rtos (Held .rtos g) own s)
    (hinv : RtosInv own.priv own.accepted (g.posted .linux)) {index : Nat} {message : Message}
    {before retries : Nat} (hindex : own.priv.sending[index]? = some (message, before)) :
    RtosRuns (sendLocked index message retries g.lock) (fun _ => Settled .rtos RtosIdle) s := by
  obtain ⟨haccepted, hunposted⟩ := hinv.sending _ (List.mem_of_getElem? hindex)
  refine transmit_then h haccepted rfl hunposted ?_ ?_
  · intro g' t ht hlock hposted _
    refine mailbox_lock_release_then ht hlock.symm fun t ht => ?_
    refine modify_rtos_settles ht ⟨rfl, ?_⟩
    rw [show g'.posted .linux = _ from hposted]
    exact hinv.finish_posted hindex
  · intro t ht
    refine mailbox_lock_release_then ht rfl fun t ht => ?_
    split
    · exact modify_rtos_settles ht ⟨rfl, hinv.retry hindex retries⟩
    · exact modify_rtos_settles ht ⟨rfl, hinv.finish index⟩

/-- One turn of the loop of `mailbox_send`. -/
theorem attempt_send_settles (index : Nat) (h : With .rtos (Free .rtos posted taken) own s)
    (hidle : RtosIdle own posted taken) :
    RtosRuns (attemptSend index) (fun _ => Settled .rtos RtosIdle) s := by
  obtain ⟨hinside, hinv⟩ := hidle
  refine load_then (free_lasting posted taken) h fun t ht => ?_
  split
  · exact rtos_settled ht ⟨hinside, hinv⟩
  · exact modify_rtos_settles ht ⟨hinside, hinv.finish index⟩
  · rename_i message retries hindex
    refine mailbox_lock_acquire_then ht hinside taskAttempts true ?_ ?_
    · intro g shim t ht hsending hposted _
      refine send_locked_settles ht ?_ (hsending ▸ hindex)
      rw [hposted]
      exact hinv.congr hsending
    · intro shim t ht hsending
      refine modify_rtos_settles ht ⟨hinside, ?_⟩
      exact (hinv.congr hsending).finish index

/-- Every transaction of the shim keeps its invariant. -/
theorem rtos_event_settles (event : RtosEvent) (h : Settled .rtos RtosIdle s) :
    RtosRuns (rtosEvent event) (fun _ => Settled .rtos RtosIdle) s := by
  obtain ⟨own, posted, taken, h, hidle⟩ := h
  cases event with
  | isr => exact mailbox_isr_settles h hidle
  | send channel word retries => exact mailbox_send_settles channel word retries h hidle
  | attempt index => exact attempt_send_settles index h hidle

/-- So does whichever is chosen next. -/
theorem rtos_step_settles (h : Settled .rtos RtosIdle s) :
    RtosRuns rtosStep (fun _ => Settled .rtos RtosIdle) s := by
  obtain ⟨own, posted, taken, h, hidle⟩ := h
  refine choose_then (free_lasting posted taken) h fun event t ht => ?_
  exact rtos_event_settles event ⟨own, posted, taken, ht, hidle⟩

/-- `c906l_platform_start` drops whatever is pending. -/
theorem platform_start_settles (h : With .rtos (Free .rtos posted taken) own s)
    (hidle : RtosIdle own posted taken) :
    RtosRuns platformStart (fun _ => Settled .rtos RtosIdle) s := by
  obtain ⟨hinside, hinv⟩ := hidle
  refine mailbox_lock_acquire_then h hinside taskAttempts true ?_ ?_
  · intro g shim t ht hsending hposted _
    refine acknowledge_then ht (fun _ => true) ?_
    intro g' t ht hlock hposted' _ _ _
    refine Machine.wp_tail (mailbox_lock_release_then ht hlock.symm fun t ht => ?_)
    refine rtos_settled ht ⟨rfl, ?_⟩
    rw [show g'.posted .linux = g.posted .linux from hposted', hposted]
    exact hinv.congr hsending
  · intro shim t ht hsending
    exact rtos_settled ht ⟨hinside, hinv.congr hsending⟩

/-- The whole side. -/
theorem rtos_main_settles (count : Nat) (h : Settled .rtos RtosIdle s) :
    RtosRuns (rtosMain count) (fun _ => Settled .rtos RtosIdle) s := by
  have hstable := @settled_stable Memory Events .rtos RtosIdle
  obtain ⟨own, posted, taken, h, hidle⟩ := h
  refine Machine.wp_bind (Machine.wp_mono (platform_start_settles h hidle) ?_)
  intro started t ht
  split
  · exact Machine.wp_iterate hstable (fun s hs => rtos_step_settles hs) ht count
  · exact Machine.wp_pure hstable ht

end

end NanoKvm.Mailbox
