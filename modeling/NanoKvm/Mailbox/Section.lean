import NanoKvm.Mailbox.Protocol

/-!
# Critical sections

Rules for programs of one side. Outside the critical section a side knows its own memory,
the messages it has posted and those it has taken, and that it does not own the lock.
Inside, it knows all registers exactly, because the other side cannot write them. The
rules are stated for an operation followed by the rest of a program.
-/

namespace NanoKvm.Mailbox

open Exec

variable {Private Event : Side → Type} {side : Side} {s : World Private}

/-- The precondition of a program of a side. -/
abbrev Runs {Private : Side → Type} (Event : Side → Type) (side : Side) {α : Type}
    (program : Code (Private side) (Event side) α) (post : α → World Private → Prop)
    (s : World Private) : Prop :=
  (machine Private Event side).wp (Allowed side) program post s

/-- What a side knows of the world: something of the registers and its own part exactly. -/
structure With (side : Side) (known : Registers → Prop) (own : Local (Private side))
    (s : World Private) : Prop where
  valid : s.Valid
  regs : known s.regs
  own : s.own side = own

/-- The knowledge survives the steps of the other side. -/
def Lasting (Private : Side → Type) (side : Side) (known : Registers → Prop) : Prop :=
  ∀ s next : World Private, Rely side s next → known s.regs → known next.regs

/-- Outside the critical section. -/
def Free (side : Side) (posted taken : Channel → List Message) (g : Registers) : Prop :=
  ¬ side.Owns g.lock ∧ g.posted side.other = posted ∧ g.taken side = taken

/-- Inside the critical section. -/
def Held (side : Side) (known : Registers) (g : Registers) : Prop :=
  g = known ∧ side.Owns known.lock

theorem free_lasting (posted taken : Channel → List Message) :
    Lasting Private side (Free side posted taken) := by
  intro s next hrely hfree
  obtain ⟨hlock, hposted, htaken⟩ := hfree
  exact ⟨hrely.free hlock, hrely.posted.trans hposted, hrely.taken.trans htaken⟩

theorem held_lasting (known : Registers) : Lasting Private side (Held side known) := by
  intro s next hrely hheld
  obtain ⟨hknown, hlock⟩ := hheld
  rw [← hknown] at hlock
  rw [Held, hrely.held hlock, hknown]
  exact ⟨rfl, hknown ▸ hlock⟩

section

variable {known : Registers → Prop} {own : Local (Private side)} {α : Type}
variable {post : α → World Private → Prop}

theorem with_stable (hlasting : Lasting Private side known) :
    (machine Private Event side).Stable (With side known own) :=
  fun s next h hrely =>
    ⟨hrely.valid h.valid, hlasting s next hrely h.regs, hrely.own.trans h.own⟩

/-- The rule of one operation. -/
theorem with_perform (hlasting : Lasting Private side known) (h : With side known own s)
    {operation : Op (Private side) (Event side)}
    {rest : operation.Ret → Code (Private side) (Event side) α}
    (hallowed : ∀ t, With side known own t → Allowed side t operation)
    (hrest : ∀ t result next, With side known own t → t.Performs side operation result next →
      next.Valid → Runs Event side (rest result) post next) :
    Runs Event side (perform operation >>= rest) post s := by
  refine Machine.wp_perform (with_stable hlasting) h hallowed ?_
  intro t result next ht hnext
  exact hrest t result next ht hnext (valid_performs ht.valid (hallowed t ht) hnext)

/-- The side reads its own memory. -/
theorem load_then (hlasting : Lasting Private side known) (h : With side known own s)
    {rest : Private side → Code (Private side) (Event side) α}
    (hrest : ∀ t, With side known own t → Runs Event side (rest own.priv) post t) :
    Runs Event side (perform .load >>= rest) post s := by
  refine with_perform hlasting h (fun _ _ => trivial) ?_
  intro t result next ht hnext _
  obtain ⟨hresult, hstate⟩ := hnext
  rw [hresult, hstate, ht.own]
  exact hrest t ht

/-- The side writes its own memory. -/
theorem store_then (hlasting : Lasting Private side known) (h : With side known own s)
    {priv : Private side} {rest : Unit → Code (Private side) (Event side) α}
    (hrest : ∀ t, With side known { own with priv := priv } t →
      Runs Event side (rest ()) post t) :
    Runs Event side (perform (.store priv) >>= rest) post s := by
  refine with_perform hlasting h (fun _ _ => trivial) ?_
  intro t _ next ht hnext hvalid
  have hstate : next = t.update side { t.own side with priv := priv } := hnext
  refine hrest next ⟨hvalid, ?_, ?_⟩
  · rw [hstate]
    exact ht.regs
  · rw [hstate, World.update_own, ht.own]

/-- The next transaction is chosen. -/
theorem choose_then (hlasting : Lasting Private side known) (h : With side known own s)
    {rest : Event side → Code (Private side) (Event side) α}
    (hrest : ∀ event t, With side known own t → Runs Event side (rest event) post t) :
    Runs Event side (perform .choose >>= rest) post s := by
  refine with_perform hlasting h (fun _ _ => trivial) ?_
  intro t event next ht hnext _
  rw [show next = t from hnext]
  exact hrest event t ht

/-- A client hands over a message. -/
theorem accept_then (hlasting : Lasting Private side known) (h : With side known own s)
    {channel : Channel} {word : UInt64}
    {rest : Message → Code (Private side) (Event side) α}
    (hrest : ∀ t, With side known
      { own with accepted := own.accepted ++ [own.message side channel word] } t →
      Runs Event side (rest (own.message side channel word)) post t) :
    Runs Event side (perform (.accept channel word) >>= rest) post s := by
  refine with_perform hlasting h (fun _ _ => trivial) ?_
  intro t message next ht hnext hvalid
  obtain ⟨hmessage, hstate⟩ := hnext
  rw [ht.own] at hmessage
  rw [hmessage] at hstate ⊢
  refine hrest next ⟨hvalid, ?_, ?_⟩
  · rw [hstate]
    exact ht.regs
  · rw [hstate, World.update_own, ht.own]

/-- A payload is handed to a client. -/
theorem deliver_then {posted taken : Channel → List Message}
    (h : With side (Free side posted taken) own s)
    {channel : Channel} {message : Message} {value : UInt64}
    {rest : Bool → Code (Private side) (Event side) α}
    (hvalue : value = handedOn side channel message)
    (htaken : ((own.delivered channel).map Delivery.message ++ [message]).Sublist
      (taken channel))
    (hrest : ∀ kept t,
      With side (Free side posted taken)
        (if kept then own.keep channel ⟨message, value⟩ else own) t →
      Runs Event side (rest kept) post t) :
    Runs Event side (perform (.deliver channel message value) >>= rest) post s := by
  refine with_perform (free_lasting posted taken) h (fun t ht => ?_) ?_
  · refine ⟨hvalue, ?_⟩
    rw [ht.own, ht.regs.2.2]
    exact htaken
  · intro t kept next ht hnext hvalid
    refine hrest kept next ?_
    cases kept with
    | true =>
        have hstate : next = t.update side ((t.own side).keep channel ⟨message, value⟩) := hnext
        refine ⟨hvalid, ?_, ?_⟩
        · rw [hstate]
          exact ht.regs
        · rw [hstate, World.update_own, ht.own]
          rfl
    | false =>
        rw [show next = t from hnext]
        exact ht

/-! ## Registers inside the critical section -/

/-- A register is read. -/
theorem held_read {g : Registers} (h : With side (Held side g) own s)
    (operation : Op (Private side) (Event side)) (value : Registers → operation.Ret)
    {rest : operation.Ret → Code (Private side) (Event side) α}
    (hallowed : ∀ t : World Private, Allowed side t operation)
    (hperforms : ∀ (t : World Private) result next, t.Performs side operation result next →
      result = value t.regs ∧ next = t)
    (hrest : ∀ t, With side (Held side g) own t → Runs Event side (rest (value g)) post t) :
    Runs Event side (perform operation >>= rest) post s := by
  refine with_perform (held_lasting g) h (fun t _ => hallowed t) ?_
  intro t result next ht hnext _
  obtain ⟨hresult, hstate⟩ := hperforms t result next hnext
  rw [hresult, hstate, ht.regs.1]
  exact hrest t ht

/-- A register is written. -/
theorem held_write {g : Registers} (h : With side (Held side g) own s)
    (operation : Op (Private side) (Event side)) (change : Registers → Registers)
    {rest : operation.Ret → Code (Private side) (Event side) α}
    (hallowed : ∀ t : World Private, t.regs = g → t.own side = own → Allowed side t operation)
    (hperforms : ∀ (t : World Private) result next, t.Performs side operation result next →
      next = { t with regs := change t.regs })
    (hlock : (change g).lock = g.lock)
    (hrest : ∀ result t, With side (Held side (change g)) own t →
      Runs Event side (rest result) post t) :
    Runs Event side (perform operation >>= rest) post s := by
  refine with_perform (held_lasting g) h (fun t ht => hallowed t ht.regs.1 ht.own) ?_
  intro t result next ht hnext hvalid
  have hstate := hperforms t result next hnext
  refine hrest result next ⟨hvalid, ?_, ?_⟩
  · rw [hstate, Held, hlock]
    exact ⟨by rw [ht.regs.1], ht.regs.2⟩
  · rw [hstate]
    exact ht.own

/-! ## The lock -/

/-- One attempt: the token is written, and its own value is there exactly if the side has become
the owner. -/
theorem attempt_then {posted taken : Channel → List Message} {token : UInt16}
    (htoken : side.Owns token) (hinside : own.inside = false)
    (h : With side (Free side posted taken) own s)
    {rest : UInt16 → Code (Private side) (Event side) α}
    (hacquired : ∀ g t, With side (Held side g) own t → g.lock = token →
      g.posted side.other = posted → g.taken side = taken →
      Runs Event side (rest token) post t)
    (hmissed : ∀ value t, value ≠ token → With side (Free side posted taken) own t →
      Runs Event side (rest value) post t) :
    Runs Event side (perform (.writeLock token) >>= fun _ => perform .readLock >>= rest) post s := by
  refine with_perform (free_lasting posted taken) h (fun t ht => ⟨htoken, ?_⟩) ?_
  · rw [ht.own]
    exact hinside
  intro t _ next ht hnext hvalid
  have hstate : next = { t with regs := { t.regs with lock := hwspinWrite t.regs.lock token } } :=
    hnext
  obtain ⟨hlock, hposted, htaken⟩ := ht.regs
  by_cases hidle : t.regs.lock = 0
  · -- The field was idle: it holds the token until this side writes it again.
    have hfield : next.regs.lock = token := by
      rw [hstate]
      show hwspinWrite t.regs.lock token = token
      rw [hwspinWrite, if_pos hidle]
    have hheld : With side (Held side next.regs) own next := by
      refine ⟨hvalid, ⟨rfl, ?_⟩, ?_⟩
      · rw [hfield]
        exact htoken
      · rw [hstate]
        exact ht.own
    refine held_read hheld .readLock Registers.lock (fun _ => trivial)
      (fun _ _ _ hread => hread) ?_
    intro last hlast
    rw [hfield]
    refine hacquired next.regs last hlast hfield ?_ ?_
    · rw [hstate]
      exact hposted
    · rw [hstate]
      exact htaken
  · -- The field belongs to the other side, or to nobody this side knows.
    have hmine : t.regs.lock ≠ token := by
      intro heq
      rw [heq] at hlock
      exact hlock htoken
    have hsame : next = t := by
      rw [hstate, hwspinWrite, if_neg hidle, if_neg hmine]
    rw [hsame]
    refine with_perform (free_lasting posted taken) ht (fun _ _ => trivial) ?_
    intro last value next hlast hnext _
    obtain ⟨hvalue, hlaststate⟩ := hnext
    rw [hlaststate]
    refine hmissed value last ?_ hlast
    intro heq
    have hfield : last.regs.lock = token := hvalue.symm.trans heq
    exact hlast.regs.1 (hfield ▸ htoken)

/-- An acquisition either owns the lock and knows all registers, or has left the lock alone. -/
theorem acquire_then {posted taken : Channel → List Message}
    (h : With side (Free side posted taken) own s) {token : UInt16}
    (htoken : side.Owns token) (hinside : own.inside = false) (attempts : Nat)
    {rest : Bool → Code (Private side) (Event side) α}
    (hacquired : ∀ g t, With side (Held side g) { own with inside := true } t →
      g.lock = token → g.posted side.other = posted → g.taken side = taken →
      Runs Event side (rest true) post t)
    (hfailed : ∀ t, With side (Free side posted taken) own t →
      Runs Event side (rest false) post t) :
    Runs Event side (acquireLoop token attempts >>= rest) post s := by
  induction attempts generalizing s with
  | zero =>
      refine with_perform (free_lasting posted taken) h (fun t ht => ht.regs.1) ?_
      intro t _ next ht hnext _
      rw [show next = t from hnext]
      exact hfailed t ht
  | succ attempts ih =>
      refine attempt_then htoken hinside h ?_ ?_
      · intro g t ht hlock hposted htaken
        show Runs Event side ((if token = token then _ else _) >>= rest) post t
        rw [if_pos rfl]
        refine with_perform (held_lasting g) ht (fun t ht => ?_) ?_
        · show side.Owns t.regs.lock
          rw [ht.regs.1]
          exact ht.regs.2
        · intro t _ next ht hnext hvalid
          have hstate : next = t.update side { t.own side with inside := true } := hnext
          refine hacquired g next ⟨hvalid, ?_, ?_⟩ hlock hposted htaken
          · rw [hstate]
            exact ht.regs
          · rw [hstate, World.update_own, ht.own]
      · intro value t hvalue ht
        show Runs Event side ((if value = token then _ else _) >>= rest) post t
        rw [if_neg hvalue]
        exact ih ht

/-- A release by the owner gives the lock back. -/
theorem release_then {g : Registers} (h : With side (Held side g) own s)
    {rest : Bool → Code (Private side) (Event side) α}
    (hrest : ∀ t, With side (Free side (g.posted side.other) (g.taken side))
      { own with inside := false } t → Runs Event side (rest true) post t) :
    Runs Event side (releaseLock g.lock >>= rest) post s := by
  refine held_read h .readLock Registers.lock (fun _ => trivial) (fun _ _ _ hread => hread) ?_
  intro t ht
  show Runs Event side ((if g.lock = g.lock then _ else _) >>= rest) post t
  rw [if_pos rfl]
  refine with_perform (held_lasting g) ht (fun _ _ => trivial) ?_
  intro t _ next ht hnext hvalid
  have hstate : next = t.update side { t.own side with inside := false } := hnext
  have hleft : With side (Held side g) { own with inside := false } next := by
    refine ⟨hvalid, ?_, ?_⟩
    · rw [hstate]
      exact ht.regs
    · rw [hstate, World.update_own, ht.own]
  refine with_perform (held_lasting g) hleft (fun t ht => ⟨ht.regs.2, ?_⟩) ?_
  · rw [ht.own]
  · intro t _ next ht hnext hvalid
    have hstate : next =
        { t with regs := { t.regs with lock := hwspinWrite t.regs.lock g.lock } } := hnext
    have hidle : hwspinWrite g.lock g.lock = 0 := by
      rw [hwspinWrite, if_neg ht.regs.2.1, if_pos rfl]
    refine hrest next ⟨hvalid, ?_, ?_⟩
    · rw [hstate, ht.regs.1]
      refine ⟨?_, rfl, rfl⟩
      show ¬ side.Owns (hwspinWrite g.lock g.lock)
      rw [hidle]
      exact fun hzero => hzero.1 rfl
    · rw [hstate]
      exact ht.own

/-! ## Transactions -/

/-- The test of the enable bits. -/
theorem busy_then {g : Registers} (h : With side (Held side g) own s) (channel : Channel)
    (processors : List Cpu)
    {rest : Bool → Code (Private side) (Event side) α}
    (hrest : ∀ t, With side (Held side g) own t →
      Runs Event side (rest (processors.any fun cpu => g.enable cpu channel)) post t) :
    Runs Event side (anyEnabled channel processors >>= rest) post s := by
  induction processors generalizing s with
  | nil => exact hrest s h
  | cons cpu processors ih =>
      refine held_read h (.readEnable cpu) (fun g => g.enable cpu) (fun _ => trivial)
        (fun _ _ _ hread => hread) ?_
      intro t ht
      show Runs Event side ((if g.enable cpu channel = true then _ else _) >>= rest) post t
      cases hcpu : g.enable cpu channel with
      | true =>
          rw [if_pos rfl]
          have hthen := hrest t ht
          rwa [List.any_cons, hcpu, Bool.true_or] at hthen
      | false =>
          rw [if_neg (by decide)]
          refine ih ht fun t ht => ?_
          have hthen := hrest t ht
          rwa [List.any_cons, hcpu, Bool.false_or] at hthen

/-- A message that was not posted is posted exactly once, or the channel is busy and nothing
changes. -/
theorem transmit_then {g : Registers} (h : With side (Held side g) own s)
    {message : Message} {channel : Channel} (haccepted : message ∈ own.accepted) (hchannel : message.channel = channel)
    (hunposted : message ∉ g.posted side.other channel)
    {rest : Bool → Code (Private side) (Event side) α}
    (hsent : ∀ g' t, With side (Held side g') own t → g'.lock = g.lock →
      g'.posted side.other = Function.update (g.posted side.other) channel
        (g.posted side.other channel ++ [message]) →
      g'.taken side = g.taken side → Runs Event side (rest true) post t)
    (hbusy : ∀ t, With side (Held side g) own t → Runs Event side (rest false) post t) :
    Runs Event side (transmitLocked channel side.other.cpu message >>= rest) post s := by
  subst hchannel
  have hcpu : side.cpu ≠ side.other.cpu := fun heq => side.other_ne (Side.cpu_inj heq).symm
  refine Machine.wp_assoc (busy_then h message.channel cpus fun t ht => ?_)
  show Runs Event side ((if (cpus.any fun cpu => g.enable cpu message.channel) = true
    then _ else _) >>= rest) post t
  cases hany : cpus.any fun cpu => g.enable cpu message.channel with
  | true =>
      rw [if_pos rfl]
      exact hbusy t ht
  | false =>
      rw [if_neg (by decide)]
      have hdisabled : ∀ cpu, g.enable cpu message.channel = false := by
        intro cpu
        have hall : ∀ cpu ∈ cpus, g.enable cpu message.channel = false := by
          simpa using hany
        exact hall cpu (by revert cpu; decide)
      refine held_write ht (.writeSlot message.channel message)
        (fun g => g.writeSlot message.channel message)
        (fun t hregs _ => ?_) (fun _ _ _ hwrite => hwrite) rfl ?_
      · rw [← hregs] at hdisabled ht
        exact ⟨ht.regs.2, hdisabled⟩
      intro _ t ht
      refine held_write ht (.clearStatus side.other.cpu (bit message.channel))
        (fun g => g.clearStatus side.other.cpu (bit message.channel))
        (fun t hregs _ => ?_) (fun _ _ _ hwrite => hwrite) rfl ?_
      · show side.Owns t.regs.lock ∧ _
        rw [hregs]
        refine ⟨ht.regs.2, .inr fun channel hchannel => ?_⟩
        have heq : channel = message.channel := by simpa [bit] using hchannel
        rw [heq]
        simp [Registers.pending, Registers.writeSlot, hdisabled]
      intro _ t ht
      refine held_read ht (.readEnable side.other.cpu) (fun g => g.enable side.other.cpu)
        (fun _ => trivial) (fun _ _ _ hread => hread) ?_
      intro t ht
      refine held_write ht (.writeEnable side.other.cpu fun channel =>
          g.enable side.other.cpu channel || bit message.channel channel)
        (fun g' => g'.writeEnable side.other.cpu fun channel =>
          g.enable side.other.cpu channel || bit message.channel channel)
        (fun t hregs _ => ?_) (fun _ _ _ hwrite => hwrite) rfl ?_
      · show side.Owns t.regs.lock ∧ _
        rw [hregs]
        refine ⟨ht.regs.2, fun channel hraw => ?_⟩
        have hother : bit message.channel channel = false := by
          simp only [Registers.clearStatus, Registers.writeSlot, Function.update_self,
            Bool.and_eq_true] at hraw
          simpa using hraw.2
        simp [Registers.clearStatus, Registers.writeSlot, hother]
      intro _ t ht
      refine held_write ht (.set (bit message.channel)) (fun g => g.set (bit message.channel))
        (fun t hregs hown => ?_) (fun _ _ _ hwrite => hwrite) rfl ?_
      · show side.Owns t.regs.lock ∧ _
        rw [hregs]
        refine ⟨ht.regs.2, fun channel hchannel => ?_⟩
        have heq : channel = message.channel := by simpa [bit] using hchannel
        subst heq
        refine ⟨?_, ?_, ?_, ?_, ?_, ?_⟩
        · rw [hregs]
          simp [Registers.clearStatus, Registers.writeEnable, Registers.writeSlot, Function.update_of_ne hcpu, hdisabled]
        · rw [hregs]
          simp [Registers.writeEnable, bit]
        · rw [hregs]
          simp [Registers.clearStatus, Registers.writeEnable, Registers.writeSlot, bit]
        · rw [hregs]
          simpa [Registers.clearStatus, Registers.writeEnable, Registers.writeSlot] using hunposted
        · rw [hregs, hown]
          simpa [Registers.clearStatus, Registers.writeEnable, Registers.writeSlot] using haccepted
        · rw [hregs]
          simp [Registers.clearStatus, Registers.writeEnable, Registers.writeSlot]
      intro _ t ht
      refine hsent _ t ht rfl ?_ ?_
      · funext channel
        by_cases hchannel : channel = message.channel
        · subst hchannel
          simp [Registers.set, Registers.clearStatus, Registers.writeEnable, Registers.writeSlot, bit]
        · simp [Registers.set, Registers.clearStatus, Registers.writeEnable, Registers.writeSlot, bit, hchannel]
      · funext channel
        simp [Registers.set, Registers.clearStatus, Registers.writeEnable, Registers.writeSlot, hcpu]

/-- A pending interrupt stands for one posted message, which is in the slot. -/
theorem pending_slot {g : Registers} (h : With side (Held side g) own s) {channel : Channel}
    (hpending : g.pending side.cpu channel = true) :
    g.posted side channel = g.taken side channel ++ [g.slots channel] := by
  have hvalid := h.valid.pending side channel
  rw [h.regs.1] at hvalid
  exact hvalid hpending

/-- An acknowledgement takes the messages of the pending channels. -/
theorem acknowledge_then {g : Registers} (h : With side (Held side g) own s) (bits : Bits)
    {rest : Unit → Code (Private side) (Event side) α}
    (hrest : ∀ g' t, With side (Held side g') own t → g'.lock = g.lock →
      g'.posted side.other = g.posted side.other → g'.slots = g.slots →
      (∀ channel, g'.taken side channel =
        if bits channel = true ∧ g.pending side.cpu channel = true then g.posted side channel
        else g.taken side channel) →
      (∀ channel, g'.pending side.cpu channel = (g.pending side.cpu channel && !bits channel)) →
      Runs Event side (rest ()) post t) :
    Runs Event side (acknowledge side.cpu bits >>= rest) post s := by
  refine held_write h (.clearStatus side.cpu bits) (fun g => g.clearStatus side.cpu bits)
    (fun t hregs _ => ⟨?_, .inl rfl⟩) (fun _ _ _ hwrite => hwrite) rfl ?_
  · rw [hregs]
    exact h.regs.2
  intro _ t ht
  refine held_read ht (.readEnable side.cpu) (fun g => g.enable side.cpu) (fun _ => trivial)
    (fun _ _ _ hread => hread) ?_
  intro t ht
  refine held_write ht (.writeEnable side.cpu fun channel =>
      g.enable side.cpu channel && !bits channel)
    (fun g' => g'.writeEnable side.cpu fun channel =>
      g.enable side.cpu channel && !bits channel)
    (fun t hregs _ => ?_) (fun _ _ _ hwrite => hwrite) rfl ?_
  · show side.Owns t.regs.lock ∧ _
    rw [hregs]
    refine ⟨ht.regs.2, fun channel hraw => ?_⟩
    have hother : bits channel = false := by
      simp only [Registers.clearStatus, Function.update_self, Bool.and_eq_true] at hraw
      simpa using hraw.2
    simp [Registers.clearStatus, hother]
  intro _ t ht
  refine hrest _ t ht rfl rfl rfl ?_ ?_
  · intro channel
    simp [Registers.clearStatus, Registers.writeEnable]
  · intro channel
    simp only [Registers.pending, Registers.clearStatus, Registers.writeEnable, Function.update_self]
    cases g.raw side.cpu channel <;> cases bits channel <;> simp

/-- The next message of a side has been neither accepted nor posted before. -/
theorem message_unseen {posted taken : Channel → List Message}
    (h : With side (Free side posted taken) own s) (channel : Channel) (word : UInt64) :
    own.message side channel word ∉ own.accepted ∧
      own.message side channel word ∉ posted channel := by
  have hfresh : own.message side channel word ∉ own.accepted := by
    intro hmem
    have hid := (h.valid.accepted side _ (h.own ▸ hmem)).2
    rw [h.own] at hid
    exact Nat.lt_irrefl _ hid
  refine ⟨hfresh, fun hmem => ?_⟩
  have hposted : own.message side channel word ∈ s.regs.posted side.other channel := by
    rw [h.regs.2.1]
    exact hmem
  have haccepted := (h.valid.posted side.other channel _ hposted).1
  rw [Side.other_other, h.own] at haccepted
  exact hfresh haccepted

/-- The side is outside its critical section and keeps an invariant of its memory, of what it has
posted and of what it has taken. -/
def Settled (side : Side)
    (inv : Local (Private side) → (Channel → List Message) → (Channel → List Message) → Prop)
    (s : World Private) : Prop :=
  ∃ own posted taken, With side (Free side posted taken) own s ∧ inv own posted taken

theorem settled_stable
    (inv : Local (Private side) → (Channel → List Message) → (Channel → List Message) → Prop) :
    (machine Private Event side).Stable (Settled side inv) := by
  intro s next h hrely
  obtain ⟨own, posted, taken, hwith, hinv⟩ := h
  exact ⟨own, posted, taken, with_stable (free_lasting posted taken) s next hwith hrely, hinv⟩

end

end NanoKvm.Mailbox
