import NanoKvm.Mailbox.Rtos
import NanoKvm.Mailbox.Section

/-!
# The Linux side keeps the protocol

Every message Linux has accepted and not posted is either in a call of `send_data` between
its two transactions or deferred, and in one place only. The copies of the threaded
handler are what was taken last and not delivered yet.
-/

namespace NanoKvm.Mailbox

open Exec

/-- The memory of each side. -/
abbrev Memory : Side → Type
  | .linux => LinuxState
  | .rtos => RtosState

/-- The transactions of each side. -/
abbrev Events : Side → Type
  | .linux => LinuxEvent
  | .rtos => RtosEvent

/-- The invariant of the driver's memory. -/
structure LinuxInv (mbox : LinuxState) (accepted : List Message)
    (delivered : Channel → List Delivery) (posted taken : Channel → List Message) : Prop where
  waiting : ∀ message ∈ mbox.waiting, message ∈ accepted ∧ message ∉ posted message.channel
  nodup : mbox.waiting.Nodup
  deferred : ∀ channel, mbox.deferred channel = true →
    mbox.deferredData channel ∈ accepted ∧ (mbox.deferredData channel).channel = channel ∧
      mbox.deferredData channel ∉ posted channel ∧ mbox.deferredData channel ∉ mbox.waiting
  pending : ∀ channel, mbox.pending channel = true →
    ((delivered channel).map Delivery.message ++ [mbox.content channel]).Sublist (taken channel)

/-- The driver between two transactions. -/
def LinuxIdle (own : Local LinuxState) (posted taken : Channel → List Message) : Prop :=
  own.inside = false ∧ LinuxInv own.priv own.accepted own.delivered posted taken

/-- A program of Linux. -/
abbrev LinuxRuns {α : Type} (program : LinuxCode α) (post : α → World Memory → Prop)
    (s : World Memory) : Prop :=
  @Runs Memory Events .linux α program post s

/-- An element at an index occurs nowhere else in a list without duplicates. -/
theorem not_mem_erase_idx {α : Type} {list : List α} {index : Nat} {value : α}
    (hnodup : list.Nodup) (hindex : list[index]? = some value) :
    value ∉ list.eraseIdx index := by
  intro hmem
  obtain ⟨other, hne, hother⟩ := List.mem_eraseIdx_iff_getElem?.1 hmem
  have hlt : other < list.length := (List.getElem?_eq_some_iff.1 hother).1
  exact hne ((List.getElem?_inj hlt hnodup).1 (hother.trans hindex.symm))

section

variable {mbox : LinuxState} {accepted : List Message} {delivered : Channel → List Delivery}
variable {posted taken : Channel → List Message}

/-- The driver has the message nowhere. -/
structure Nowhere (mbox : LinuxState) (message : Message) : Prop where
  waiting : message ∉ mbox.waiting
  deferred : ∀ channel, mbox.deferred channel = true → mbox.deferredData channel ≠ message

/-- Posting a message that the driver has nowhere else. -/
theorem LinuxInv.post (h : LinuxInv mbox accepted delivered posted taken) {message : Message}
    (hnowhere : Nowhere mbox message) :
    LinuxInv mbox accepted delivered
      (Function.update posted message.channel (posted message.channel ++ [message])) taken := by
  have hother : ∀ {held : Message} {channel : Channel}, held ≠ message → held ∉ posted channel →
      held ∉ Function.update posted message.channel (posted message.channel ++ [message])
        channel := by
    intro held channel hne hunposted
    by_cases hchannel : channel = message.channel
    · subst hchannel
      simp [hunposted, hne]
    · simpa [hchannel] using hunposted
  refine ⟨?_, h.nodup, ?_, h.pending⟩
  · intro held hheld
    obtain ⟨haccepted, hunposted⟩ := h.waiting held hheld
    refine ⟨haccepted, hother (fun heq => ?_) hunposted⟩
    exact hnowhere.waiting (heq ▸ hheld)
  · intro channel hdeferred
    obtain ⟨haccepted, hchannel, hunposted, hwaiting⟩ := h.deferred channel hdeferred
    exact ⟨haccepted, hchannel, hother (hnowhere.deferred channel hdeferred) hunposted, hwaiting⟩

/-- A new call of a client. -/
theorem LinuxInv.accept (h : LinuxInv mbox accepted delivered posted taken) (message : Message) :
    LinuxInv mbox (accepted ++ [message]) delivered posted taken := by
  refine ⟨?_, h.nodup, ?_, h.pending⟩
  · intro held hheld
    obtain ⟨haccepted, hunposted⟩ := h.waiting held hheld
    exact ⟨List.mem_append_left _ haccepted, hunposted⟩
  · intro channel hdeferred
    obtain ⟨haccepted, hrest⟩ := h.deferred channel hdeferred
    exact ⟨List.mem_append_left _ haccepted, hrest⟩

/-- A call of `send_data` waits for its second transaction. -/
theorem LinuxInv.wait (h : LinuxInv mbox accepted delivered posted taken) {message : Message}
    (haccepted : message ∈ accepted) (hunposted : message ∉ posted message.channel)
    (hnowhere : Nowhere mbox message) :
    LinuxInv { mbox with waiting := mbox.waiting ++ [message] } accepted delivered posted
      taken := by
  refine ⟨?_, ?_, ?_, h.pending⟩
  · intro held hheld
    rcases List.mem_append.1 hheld with hold | hnew
    · exact h.waiting held hold
    · rw [List.mem_singleton] at hnew
      rw [hnew]
      exact ⟨haccepted, hunposted⟩
  · refine List.nodup_append.2 ⟨h.nodup, List.nodup_singleton _, ?_⟩
    intro first hfirst second hsecond heq
    rw [List.mem_singleton] at hsecond
    exact hnowhere.waiting (hsecond ▸ heq ▸ hfirst)
  · intro channel hdeferred
    obtain ⟨hin, hchannel, hout, hwaiting⟩ := h.deferred channel hdeferred
    refine ⟨hin, hchannel, hout, ?_⟩
    simpa [hwaiting] using hnowhere.deferred channel hdeferred

/-- The second transaction of `send_data`. -/
theorem LinuxInv.defer (h : LinuxInv mbox accepted delivered posted taken) {index : Nat}
    {message : Message} (hindex : mbox.waiting[index]? = some message) :
    LinuxInv { mbox.storeDeferred message with waiting := mbox.waiting.eraseIdx index } accepted
      delivered posted taken := by
  have hmessage := List.mem_of_getElem? hindex
  have herased := not_mem_erase_idx h.nodup hindex
  have hsubset : ∀ held, held ∈ mbox.waiting.eraseIdx index → held ∈ mbox.waiting :=
    fun held hheld => List.mem_of_mem_eraseIdx hheld
  refine ⟨fun held hheld => h.waiting held (hsubset held hheld),
    h.nodup.sublist (List.eraseIdx_sublist _ _), ?_, ?_⟩
  · intro channel hdeferred
    unfold LinuxState.storeDeferred at hdeferred ⊢
    split at hdeferred
    · rename_i hsubscribed
      simp only [hsubscribed, if_true] at hdeferred ⊢
      by_cases hchannel : channel = message.channel
      · subst hchannel
        obtain ⟨haccepted, hunposted⟩ := h.waiting message hmessage
        simpa [haccepted, hunposted] using herased
      · have hold : mbox.deferred channel = true := by
          simpa [bit, hchannel] using hdeferred
        obtain ⟨hin, hsame, hout, hwaiting⟩ := h.deferred channel hold
        rw [Function.update_of_ne hchannel]
        exact ⟨hin, hsame, hout, fun hheld => hwaiting (hsubset _ hheld)⟩
    · rename_i hsubscribed
      simp only [hsubscribed] at hdeferred ⊢
      obtain ⟨hin, hsame, hout, hwaiting⟩ := h.deferred channel hdeferred
      exact ⟨hin, hsame, hout, fun hheld => hwaiting (hsubset _ hheld)⟩
  · intro channel hpending
    unfold LinuxState.storeDeferred at hpending ⊢
    split at hpending <;> rename_i hsubscribed <;>
      simpa [hsubscribed] using h.pending channel (by simpa [hsubscribed] using hpending)

end

section

variable {s : World Memory} {known : Registers → Prop} {own : Local LinuxState} {α : Type}
variable {post : α → World Memory → Prop} {posted taken : Channel → List Message}

/-- The driver changes its own memory. -/
theorem modify_linux_then (hlasting : Lasting Memory .linux known)
    (h : With .linux known own s) {change : LinuxState → LinuxState}
    {rest : Unit → LinuxCode α}
    (hrest : ∀ t, With .linux known { own with priv := change own.priv } t →
      LinuxRuns (rest ()) post t) :
    LinuxRuns (modifyLinux change >>= rest) post s :=
  load_then hlasting h fun _ ht => store_then hlasting ht hrest

/-- The driver's memory after a new token is taken. -/
def LinuxState.retoken (mbox : LinuxState) : LinuxState :=
  { mbox with
    nextToken := nextCounter mbox.nextToken
    ownerToken := (nextCounter mbox.nextToken).toUInt16 }

theorem LinuxInv.retoken {mbox : LinuxState} {accepted : List Message}
    {delivered : Channel → List Delivery} (h : LinuxInv mbox accepted delivered posted taken) :
    LinuxInv mbox.retoken accepted delivered posted taken :=
  ⟨h.waiting, h.nodup, h.deferred, h.pending⟩

/-- `cv1800_registers_lock` -/
theorem registers_lock_then (h : With .linux (Free .linux posted taken) own s)
    (hinside : own.inside = false) (attempts : Nat) {rest : Bool → LinuxCode α}
    (hacquired : ∀ g t,
      With .linux (Held .linux g) { own with inside := true, priv := own.priv.retoken } t →
      own.priv.retoken.ownerToken = g.lock → g.posted .rtos = posted → g.taken .linux = taken →
      LinuxRuns (rest true) post t)
    (hfailed : ∀ t,
      With .linux (Free .linux posted taken) { own with priv := own.priv.retoken } t →
      LinuxRuns (rest false) post t) :
    LinuxRuns (registersLock attempts >>= rest) post s := by
  refine load_then (free_lasting posted taken) h fun t ht => ?_
  refine store_then (free_lasting posted taken) ht fun t ht => ?_
  refine acquire_then ht (linux_token_owns own.priv.nextToken) hinside attempts ?_ hfailed
  intro g t ht hlock hposted htaken
  exact hacquired g t ht hlock.symm hposted htaken

/-- `cv1800_registers_unlock` -/
theorem registers_unlock_then {g : Registers} (h : With .linux (Held .linux g) own s)
    (howner : own.priv.ownerToken = g.lock) {rest : Bool → LinuxCode α}
    (hrest : ∀ t, With .linux (Free .linux (g.posted .rtos) (g.taken .linux))
      { own with inside := false } t → LinuxRuns (rest true) post t) :
    LinuxRuns (registersUnlock >>= rest) post s := by
  refine load_then (held_lasting g) h fun t ht => ?_
  show LinuxRuns (releaseLock own.priv.ownerToken >>= rest) post t
  rw [howner]
  exact release_then ht hrest

/-- The end of a transaction. -/
theorem linux_settled {value : α} (h : With .linux (Free .linux posted taken) own s)
    (hidle : LinuxIdle own posted taken) :
    LinuxRuns (pure value) (fun _ => Settled .linux LinuxIdle) s :=
  Machine.wp_pure (@settled_stable Memory Events .linux LinuxIdle) ⟨own, posted, taken, h, hidle⟩

/-- A transaction that only changes the driver's own memory. -/
theorem modify_linux_settles (h : With .linux (Free .linux posted taken) own s)
    {change : LinuxState → LinuxState}
    (hidle : LinuxIdle { own with priv := change own.priv } posted taken) :
    LinuxRuns (modifyLinux change) (fun _ => Settled .linux LinuxIdle) s :=
  Machine.wp_tail (modify_linux_then (free_lasting posted taken) h fun _ ht =>
    linux_settled ht hidle)

/-- A message that was not accepted before is nowhere. -/
theorem LinuxInv.nowhere {mbox : LinuxState} {accepted : List Message}
    {delivered : Channel → List Delivery} (h : LinuxInv mbox accepted delivered posted taken)
    {message : Message} (hfresh : message ∉ accepted) : Nowhere mbox message where
  waiting hmem := hfresh (h.waiting message hmem).1
  deferred channel hdeferred heq := hfresh (heq ▸ (h.deferred channel hdeferred).1)

/-- The first transaction of `send_data`. -/
theorem send_data_settles (channel : Channel) (word : UInt64)
    (h : With .linux (Free .linux posted taken) own s) (hidle : LinuxIdle own posted taken) :
    LinuxRuns (sendData channel word) (fun _ => Settled .linux LinuxIdle) s := by
  obtain ⟨hinside, hinv⟩ := hidle
  obtain ⟨hfresh, hunposted⟩ := message_unseen h channel word
  have hnowhere := hinv.nowhere hfresh
  have hin : own.message .linux channel word ∈
      own.accepted ++ [own.message .linux channel word] := by simp
  have hwait := (hinv.accept (own.message .linux channel word)).retoken.wait hin hunposted
    ⟨hnowhere.waiting, hnowhere.deferred⟩
  refine accept_then (free_lasting posted taken) h fun t ht => ?_
  refine registers_lock_then ht hinside irqAttempts ?_ ?_
  · intro g t ht howner hposted htaken
    refine transmit_then ht hin rfl (hposted ▸ hunposted) ?_ ?_
    · intro g' t ht hlock hposted' htaken'
      refine registers_unlock_then ht (howner.trans hlock.symm) fun t ht => ?_
      refine linux_settled ht ⟨rfl, ?_⟩
      rw [show g'.posted .rtos = _ from hposted', htaken', htaken,
        show g.posted Side.linux.other = posted from hposted]
      exact ((hinv.accept _).retoken.post ⟨hnowhere.waiting, hnowhere.deferred⟩)
    · intro t ht
      refine registers_unlock_then ht howner fun t ht => ?_
      refine modify_linux_settles ht ⟨rfl, ?_⟩
      rw [hposted, htaken]
      exact hwait
  · intro t ht
    exact modify_linux_settles ht ⟨hinside, hwait⟩

/-- The second transaction of `send_data`. -/
theorem send_deferred_settles (index : Nat)
    (h : With .linux (Free .linux posted taken) own s) (hidle : LinuxIdle own posted taken) :
    LinuxRuns (sendDeferred index) (fun _ => Settled .linux LinuxIdle) s := by
  refine load_then (free_lasting posted taken) h fun t ht => ?_
  split
  · exact linux_settled ht hidle
  · rename_i message hindex
    refine Machine.wp_tail (store_then (free_lasting posted taken) ht fun t ht => ?_)
    exact linux_settled ht ⟨hidle.1, hidle.2.defer hindex⟩

/-- Clearing a deferred bit after its message was posted. -/
theorem LinuxInv.posted_deferred {mbox : LinuxState} {accepted : List Message}
    {delivered : Channel → List Delivery} (h : LinuxInv mbox accepted delivered posted taken)
    {channel : Channel} (hdeferred : mbox.deferred channel = true) :
    LinuxInv { mbox with deferred := fun other => mbox.deferred other && !bit channel other }
      accepted delivered
      (Function.update posted channel (posted channel ++ [mbox.deferredData channel])) taken := by
  obtain ⟨haccepted, hchannel, hunposted, hwaiting⟩ := h.deferred channel hdeferred
  have hcleared : LinuxInv
      { mbox with deferred := fun other => mbox.deferred other && !bit channel other }
      accepted delivered posted taken :=
    ⟨h.waiting, h.nodup, fun other hother => h.deferred other (Bool.and_eq_true_iff.1 hother).1,
      h.pending⟩
  have hpost := @LinuxInv.post _ _ _ _ _ hcleared (mbox.deferredData channel) ⟨hwaiting, ?_⟩
  · rwa [hchannel] at hpost
  · intro other hother heq
    have hother : mbox.deferred other = true ∧ other ≠ channel := by
      simpa [bit] using hother
    have hsame := (h.deferred other hother.1).2.1
    exact hother.2 (hsame.symm.trans (heq ▸ hchannel))

/-- The loop of `cv1800_retry_deferred`, by induction on the channels left. -/
theorem retry_channels_then (own : Local LinuxState) {snapshot : Bits}
    {rest : Unit → LinuxCode α}
    (hrest : ∀ g mbox t, With .linux (Held .linux g) { own with priv := mbox } t →
      mbox.ownerToken = g.lock →
      LinuxInv mbox own.accepted own.delivered (g.posted .rtos) (g.taken .linux) →
      LinuxRuns (rest ()) post t)
    (left : List Channel) (hnodup : left.Nodup) {g : Registers} {mbox : LinuxState}
    (h : With .linux (Held .linux g) { own with priv := mbox } s)
    (howner : mbox.ownerToken = g.lock)
    (hinv : LinuxInv mbox own.accepted own.delivered (g.posted .rtos) (g.taken .linux))
    (hleft : ∀ channel ∈ left, snapshot channel = true → mbox.deferred channel = true) :
    LinuxRuns (retryChannels snapshot left >>= rest) post s := by
  induction left generalizing s g mbox with
  | nil => exact hrest g mbox s h howner hinv
  | cons channel left ih =>
      obtain ⟨hfirst, hnodup⟩ := List.nodup_cons.1 hnodup
      have htail : ∀ other ∈ left, snapshot other = true → mbox.deferred other = true :=
        fun other hother => hleft other (List.mem_cons_of_mem _ hother)
      unfold retryChannels
      split
      · rename_i hsnapshot
        have hdeferred := hleft channel List.mem_cons_self hsnapshot
        obtain ⟨haccepted, hchannel, hunposted, -⟩ := hinv.deferred channel hdeferred
        refine load_then (held_lasting g) h fun t ht => ?_
        refine Machine.wp_assoc (transmit_then ht haccepted hchannel hunposted ?_ ?_)
        · intro g' t ht hlock hposted htaken
          refine Machine.wp_assoc (modify_linux_then (held_lasting g') ht fun t ht => ?_)
          refine ih hnodup ht (howner.trans hlock.symm) ?_ ?_
          · rw [show g'.posted .rtos = _ from hposted, htaken]
            exact hinv.posted_deferred hdeferred
          · intro other hother hsnapshot
            have hne : other ≠ channel := fun heq => hfirst (heq ▸ hother)
            simp [bit, hne, htail other hother hsnapshot]
        · intro t ht
          exact ih hnodup ht howner hinv htail
      · exact ih hnodup h howner hinv htail

theorem channels_nodup : channels.Nodup := by decide

/-- `cv1800_retry_deferred` -/
theorem retry_deferred_settles (h : With .linux (Free .linux posted taken) own s)
    (hidle : LinuxIdle own posted taken) :
    LinuxRuns retryDeferred (fun _ => Settled .linux LinuxIdle) s := by
  obtain ⟨hinside, hinv⟩ := hidle
  refine registers_lock_then h hinside taskAttempts ?_ ?_
  · intro g t ht howner hposted htaken
    refine load_then (held_lasting g) ht fun t ht => ?_
    refine store_then (held_lasting g) ht fun t ht => ?_
    refine retry_channels_then { own with inside := true } ?_ channels channels_nodup ht howner ?_ ?_
    · intro g mbox t ht howner hinv
      refine registers_unlock_then ht howner fun t ht => ?_
      exact linux_settled ht ⟨rfl, hinv⟩
    · rw [hposted, htaken]
      exact ⟨hinv.waiting, hinv.nodup,
        fun channel hchannel => hinv.deferred channel (Bool.and_eq_true_iff.1 hchannel).1,
        hinv.pending⟩
    · exact fun _ _ hsnapshot => hsnapshot
  · intro t ht
    exact linux_settled ht ⟨hinside, hinv.retoken⟩

/-- `cv1800_last_tx_done` -/
theorem last_tx_done_settles (channel : Channel)
    (h : With .linux (Free .linux posted taken) own s) (hidle : LinuxIdle own posted taken) :
    LinuxRuns (lastTxDone channel) (fun _ => Settled .linux LinuxIdle) s := by
  obtain ⟨hinside, hinv⟩ := hidle
  refine load_then (free_lasting posted taken) h fun t ht => ?_
  split
  · refine registers_lock_then ht hinside irqAttempts ?_ ?_
    · intro g t ht howner hposted htaken
      refine load_then (held_lasting g) ht fun t ht => ?_
      split
      · refine registers_unlock_then ht howner fun t ht => ?_
        refine linux_settled ht ⟨rfl, ?_⟩
        rw [hposted, htaken]
        exact hinv.retoken
      · refine busy_then ht channel cpus fun t ht => ?_
        refine registers_unlock_then ht howner fun t ht => ?_
        refine linux_settled ht ⟨rfl, ?_⟩
        rw [hposted, htaken]
        exact hinv.retoken
    · intro t ht
      exact linux_settled ht ⟨hinside, hinv.retoken⟩
  · exact linux_settled ht ⟨hinside, hinv⟩

/-- What the handler copied of a channel, once its interrupt is acknowledged. -/
theorem LinuxInv.copy {mbox : LinuxState} {accepted : List Message}
    {delivered : Channel → List Delivery} (h : LinuxInv mbox accepted delivered posted taken)
    {channel : Channel} {message : Message} {taken' : Channel → List Message}
    (hsame : ∀ other, other ≠ channel → taken' other = taken other)
    (htaken : ((delivered channel).map Delivery.message ++ [message]).Sublist (taken' channel)) :
    LinuxInv
      { mbox with
        content := Function.update mbox.content channel message
        pending := fun other => mbox.pending other || bit channel other }
      accepted delivered posted taken' := by
  refine ⟨h.waiting, h.nodup, h.deferred, ?_⟩
  intro other hother
  by_cases hchannel : other = channel
  · subst hchannel
    simpa using htaken
  · have hold : mbox.pending other = true := by simpa [bit, hchannel] using hother
    simpa [hchannel, hsame other hchannel] using h.pending other hold

/-- The loop of `cv1800_mbox_isr`, by induction on the channels left. -/
theorem copy_channels_then (own : Local LinuxState) {snapshot : Bits}
    {rest : Unit → LinuxCode α}
    (hrest : ∀ g mbox t, With .linux (Held .linux g) { own with priv := mbox } t →
      mbox.ownerToken = g.lock →
      LinuxInv mbox own.accepted own.delivered (g.posted .rtos) (g.taken .linux) →
      LinuxRuns (rest ()) post t)
    (left : List Channel) (hnodup : left.Nodup) {g : Registers} {mbox : LinuxState}
    (h : With .linux (Held .linux g) { own with priv := mbox } s)
    (howner : mbox.ownerToken = g.lock)
    (hinv : LinuxInv mbox own.accepted own.delivered (g.posted .rtos) (g.taken .linux))
    (hleft : ∀ channel ∈ left, snapshot channel = true →
      g.pending Side.linux.cpu channel = true) :
    LinuxRuns (copyChannels snapshot left >>= rest) post s := by
  induction left generalizing s g mbox with
  | nil => exact hrest g mbox s h howner hinv
  | cons channel left ih =>
      obtain ⟨hfirst, hnodup⟩ := List.nodup_cons.1 hnodup
      unfold copyChannels
      split
      · rename_i hsnapshot
        have hpending := hleft channel List.mem_cons_self hsnapshot
        have hslot := pending_slot h hpending
        have hdelivered : ((own.delivered channel).map Delivery.message).Sublist
            (g.taken .linux channel) := by
          have hvalid := h.valid.delivered .linux channel
          rw [h.own, h.regs.1] at hvalid
          exact hvalid
        refine held_read h (.readSlot channel) (fun g => g.slots channel) (fun _ => trivial)
          (fun _ _ _ hread => hread) fun t ht => ?_
        refine Machine.wp_assoc (modify_linux_then (held_lasting g) ht fun t ht => ?_)
        refine Machine.wp_assoc (acknowledge_then ht (bit channel) ?_)
        intro g' t ht hlock hposted hslots htaken hpending'
        have hother : ∀ other, other ≠ channel → bit channel other = false := by
          intro other hne
          simp [bit, hne]
        refine ih hnodup ht (howner.trans hlock.symm) ?_ ?_
        · rw [show g'.posted .rtos = g.posted .rtos from hposted]
          refine hinv.copy (fun other hne => ?_) ?_
          · rw [htaken, hother other hne, if_neg (by simp)]
          · rw [htaken, if_pos ⟨by simp [bit], hpending⟩, hslot]
            exact hdelivered.append_right _
        · intro other hmem hsnapshot
          have hne : other ≠ channel := fun heq => hfirst (heq ▸ hmem)
          rw [hpending', hleft other (List.mem_cons_of_mem _ hmem) hsnapshot, hother other hne]
          rfl
      · exact ih hnodup h howner hinv fun other hother =>
          hleft other (List.mem_cons_of_mem _ hother)

/-- `cv1800_mbox_isr` -/
theorem mbox_isr_settles (h : With .linux (Free .linux posted taken) own s)
    (hidle : LinuxIdle own posted taken) :
    LinuxRuns mboxIsr (fun _ => Settled .linux LinuxIdle) s := by
  obtain ⟨hinside, hinv⟩ := hidle
  refine load_then (free_lasting posted taken) h fun t ht => ?_
  split
  · exact linux_settled ht ⟨hinside, hinv⟩
  · refine registers_lock_then ht hinside taskAttempts ?_ ?_
    · intro g t ht howner hposted htaken
      refine held_read ht (.readStatus Side.linux.cpu) (fun g => g.pending Side.linux.cpu)
        (fun _ => trivial) (fun _ _ _ hread => hread) fun t ht => ?_
      refine copy_channels_then { own with inside := true } ?_ channels channels_nodup ht howner ?_ ?_
      · intro g mbox t ht howner hinv
        refine registers_unlock_then ht howner fun t ht => ?_
        exact linux_settled ht ⟨rfl, hinv⟩
      · rw [hposted, htaken]
        exact hinv.retoken
      · exact fun _ _ hsnapshot => hsnapshot
    · intro t ht
      exact linux_settled ht ⟨hinside, hinv.retoken⟩

/-- The callback for one channel. -/
theorem received_data_settles (channel : Channel)
    (h : With .linux (Free .linux posted taken) own s) (hidle : LinuxIdle own posted taken) :
    LinuxRuns (receivedData channel) (fun _ => Settled .linux LinuxIdle) s := by
  obtain ⟨hinside, hinv⟩ := hidle
  refine load_then (free_lasting posted taken) h fun t ht => ?_
  split
  · rename_i hpending
    -- The copy is taken out of the handler's hands before the client gets it.
    have hcleared : LinuxInv { own.priv with
        pending := fun other => own.priv.pending other && !bit channel other }
        own.accepted own.delivered posted taken :=
      ⟨hinv.waiting, hinv.nodup, hinv.deferred,
        fun other hother => hinv.pending other (Bool.and_eq_true_iff.1 hother).1⟩
    refine store_then (free_lasting posted taken) ht fun t ht => ?_
    split
    · refine deliver_then ht rfl (hinv.pending channel hpending) fun kept t ht => ?_
      cases kept with
      | false => exact linux_settled ht ⟨hinside, hcleared⟩
      | true =>
          refine linux_settled ht ⟨hinside, hinv.waiting, hinv.nodup, hinv.deferred, ?_⟩
          intro other hother
          have hother : own.priv.pending other = true ∧ other ≠ channel := by
            simpa [Local.keep, bit] using hother
          simpa [Local.keep, hother.2] using hinv.pending other hother.1
    · exact linux_settled ht ⟨hinside, hcleared⟩
  · exact linux_settled ht ⟨hinside, hinv⟩

/-- Clearing deferred messages loses them, which the invariant permits. -/
theorem LinuxInv.forget {mbox : LinuxState} {accepted : List Message}
    {delivered : Channel → List Delivery} (h : LinuxInv mbox accepted delivered posted taken)
    (channel : Channel) (subscribed : Bits) :
    LinuxInv
      { mbox with
        deferred := fun other => mbox.deferred other && !bit channel other
        subscribed := subscribed }
      accepted delivered posted taken :=
  ⟨h.waiting, h.nodup, fun other hother => h.deferred other (Bool.and_eq_true_iff.1 hother).1,
    h.pending⟩

/-- Every transaction of the driver keeps its invariant. -/
theorem linux_event_settles (event : LinuxEvent) (h : Settled .linux LinuxIdle s) :
    LinuxRuns (linuxEvent event) (fun _ => Settled .linux LinuxIdle) s := by
  obtain ⟨own, posted, taken, h, hidle⟩ := h
  cases event with
  | sendData channel word => exact send_data_settles channel word h hidle
  | sendDeferred index => exact send_deferred_settles index h hidle
  | retryDeferred => exact retry_deferred_settles h hidle
  | lastTxDone channel =>
      refine Machine.wp_bind (Machine.wp_mono (last_tx_done_settles channel h hidle) ?_)
      intro _ t ht
      exact Machine.wp_pure (@settled_stable Memory Events .linux LinuxIdle) ht
  | isr => exact mbox_isr_settles h hidle
  | received channel => exact received_data_settles channel h hidle
  | startup channel => exact modify_linux_settles h ⟨hidle.1, hidle.2.forget channel _⟩
  | shutdown channel => exact modify_linux_settles h ⟨hidle.1, hidle.2.forget channel _⟩

/-- So does whichever is chosen next. -/
theorem linux_step_settles (h : Settled .linux LinuxIdle s) :
    LinuxRuns linuxStep (fun _ => Settled .linux LinuxIdle) s := by
  obtain ⟨own, posted, taken, h, hidle⟩ := h
  refine choose_then (free_lasting posted taken) h fun event t ht => ?_
  exact linux_event_settles event ⟨own, posted, taken, ht, hidle⟩

end

end NanoKvm.Mailbox
