import NanoKvm.Rpmsg.Serving

/-!
# The echo service, end to end

The transport answers the messages that Linux posts on ring 1 with buffers that Linux posts on
ring 0. The driver may post on both rings between any two operations, at any rate and across any
number of wraps of the indices. `echo_end_to_end` says what the driver finds in the used rings at
every moment of a run, and `service_progress` how much of the work one call does.
-/

namespace NanoKvm.Rpmsg

open Exec

/-! ## The account of the echoes -/

/-- What the driver reads of a message on ring 0. -/
theorem echo_message_bytes (source destination : UInt32) {payload : List UInt8}
    (hpayload : payload.length ≤ payloadBytes) (id length : UInt32) :
    (Return.mk id length (messageBytes source destination payload)).echo =
      if source = echoAddress then some ⟨source, destination, payload⟩ else none := by
  have hheader : headerOf (messageBytes source destination payload)
      = ⟨source, destination, 0, .ofNat payload.length, 0⟩ := by
    unfold headerOf messageBytes
    rw [List.take_left' (encode_header_length _), decode_header_encode_header]
  have hpayloadOf : payloadOf (messageBytes source destination payload) = payload := by
    unfold payloadOf
    rw [hheader]
    unfold messageBytes
    unfold payloadBytes at hpayload
    rw [List.drop_left' (encode_header_length _)]
    exact List.take_of_length_le (by rw [UInt16.toNat_ofNat']; omega)
  unfold Return.echo
  simp only [hheader, hpayloadOf]

section

variable {answered : Nat} {placed : Ring → List Return} {messages : List Posting}

theorem placing_self (ring : Ring) (posting : Posting) (length : UInt32) (written : List UInt8) :
    placing placed ring posting length written ring
      = placed ring ++ [⟨posting.id.toUInt32, length, written⟩] :=
  Function.update_self ..

/-- A message that is no echo leaves the account alone. -/
theorem Answers.other (h : Answers answered placed messages) {source destination : UInt32}
    {payload : List UInt8} (hpayload : payload.length ≤ payloadBytes) (hsource : source ≠ echoAddress)
    (posting : Posting) (length : UInt32) : Answers answered
      (placing placed .rx posting length (messageBytes source destination payload)) messages where
  low := h.low
  high := h.high
  bound := h.bound
  echoes := by
    have hreturn := (echo_message_bytes source destination hpayload posting.id.toUInt32 length).trans
      (if_neg hsource)
    rw [placing_self, List.filterMap_append, h.echoes, List.filterMap_cons_none hreturn]
    exact List.append_nil _

/-- The echo of the next message. -/
theorem Answers.echo (h : Answers (placed .tx).length placed messages) {message : Posting}
    (hmessage : messages[(placed .tx).length]? = some message) {destination : UInt32}
    {payload : List UInt8} (hpayload : payload.length ≤ payloadBytes)
    (hecho : message.echo = some ⟨echoAddress, destination, payload⟩) (posting : Posting)
    (length : UInt32) : Answers ((placed .tx).length + 1)
      (placing placed .rx posting length (messageBytes echoAddress destination payload))
      messages where
  low := Nat.le_succ _
  high := Nat.le_refl _
  bound := (List.getElem?_eq_some_iff.mp hmessage).1
  echoes := by
    have hreturn := (echo_message_bytes echoAddress destination hpayload posting.id.toUInt32
      length).trans (if_pos rfl)
    rw [placing_self, List.filterMap_append, h.echoes, List.filterMap_cons_some hreturn,
      List.take_add_one, hmessage, List.filterMap_append, Option.toList_some,
      List.filterMap_cons_some hecho]
    rfl

/-- The next message asks for no echo. -/
theorem Answers.skip (h : Answers (placed .tx).length placed messages) {message : Posting}
    (hmessage : messages[(placed .tx).length]? = some message) (hecho : message.echo = none) :
    Answers ((placed .tx).length + 1) placed messages where
  low := Nat.le_succ _
  high := Nat.le_refl _
  bound := (List.getElem?_eq_some_iff.mp hmessage).1
  echoes := by
    rw [h.echoes, List.take_add_one, hmessage, List.filterMap_append, Option.toList_some,
      List.filterMap_cons_none hecho]
    exact (List.append_nil _).symm

/-- The answered message is returned. -/
theorem Answers.return (h : Answers ((placed .tx).length + 1) placed messages) (posting : Posting)
    (length : UInt32) (written : List UInt8) :
    Answers ((placed .tx).length + 1) (placing placed .tx posting length written) messages where
  low := by
    rw [placing_self, List.length_append]
    exact Nat.le_refl _
  high := by
    rw [placing_self, List.length_append, List.length_singleton]
    exact Nat.le_succ _
  bound := h.bound
  echoes := h.echoes

end

/-! ## Between two messages -/

/-- The fields, the cursors and the account agree. -/
structure Counts (answered consumed : Nat) (messages : List Posting) (fields : Transport)
    (placed : Ring → List Return) : Prop where
  cursors : Cursors fields placed
  answers : Answers answered placed messages
  consumed : (placed .tx).length = consumed
  online : fields.online = true

/-- So many messages are answered and so many returned. -/
def At (buffers : Nat) (messages : List Posting) (answered consumed : Nat) (s : Rings) : Prop :=
  ∃ fields placed, Serving buffers messages fields placed s ∧
    Counts answered consumed messages fields placed

/-- The same, and ring 0 has used the buffers that are known. -/
def Starved (buffers : Nat) (messages : List Posting) (answered consumed : Nat) (s : Rings) :
    Prop :=
  ∃ fields placed, Serving buffers messages fields placed s ∧
    Counts answered consumed messages fields placed ∧ buffers ≤ (placed .rx).length

theorem Cursors.sent {fields : Transport} {placed : Ring → List Return} (h : Cursors fields placed)
    (posting : Posting) (length : UInt32) (written : List UInt8) :
    Cursors fields.sent (placing placed .rx posting length written) where
  rxAvailable := by
    rw [placing_self, List.length_append, List.length_singleton, UInt16.ofNat_add]
    exact congrArg (· + 1) h.rxAvailable
  rxUsed := by
    rw [placing_self, List.length_append, List.length_singleton, UInt16.ofNat_add]
    exact congrArg (· + 1) h.rxUsed
  txAvailable := h.txAvailable
  txUsed := h.txUsed

section

variable {buffers : Nat} {messages : List Posting} {fields : Transport}
  {placed : Ring → List Return} {answered consumed : Nat} {s : Rings}

/-- A message that is no echo is placed, or there is no buffer for it. -/
theorem runs_send_other (h : Serving buffers messages fields placed s)
    (hcounts : Counts answered consumed messages fields placed) {source destination : UInt32}
    {payload : List UInt8} (hpayload : payload.length ≤ payloadBytes)
    (hsource : source ≠ echoAddress) :
    Runs (send source destination payload) (fun sent s => if sent then
        At buffers messages answered consumed s
      else Starved buffers messages answered consumed s) s := by
  refine Machine.wp_mono (runs_send h hcounts.cursors _ _ hpayload fun posting length =>
    hcounts.answers.other hpayload hsource posting length) fun sent s hs => ?_
  cases sent with
  | true =>
      obtain ⟨posting, length, hs⟩ := hs
      exact ⟨_, _, hs, hcounts.cursors.sent .., hcounts.answers.other hpayload hsource posting length,
        hcounts.consumed, hcounts.online⟩
  | false => exact ⟨_, _, hs.1, hcounts, hs.2⟩

end

/-! ## Answers -/

theorem copy_from_slice_pure {bytes source : List UInt8} {start finish : Nat}
    (hstart : start ≤ finish) (hfinish : finish ≤ bytes.length)
    (hsource : source.length = finish - start) : copyFromSlice bytes start finish source =
      pure (bytes.take start ++ source ++ bytes.drop finish) :=
  if_pos ⟨hstart, hfinish, hsource⟩

theorem slice_pure {bytes : List UInt8} {start finish : Nat} (hstart : start ≤ finish)
    (hfinish : finish ≤ bytes.length) : slice bytes start finish =
      pure ((bytes.take finish).drop start) :=
  if_pos ⟨hstart, hfinish⟩

/-- An announcement is 40 bytes. -/
theorem announcement_pure (address : UInt32) :
    ∃ bytes, announcement address = pure bytes ∧ bytes.length = 40 := by
  let named := (List.replicate 40 (0 : UInt8)).take 0 ++ serviceName ++
    (List.replicate 40 0).drop serviceName.length
  let addressed := named.take 32 ++ leBytes 4 address.toNat ++ named.drop 36
  have hnamed : copyFromSlice (List.replicate 40 0) 0 serviceName.length serviceName = pure named :=
    copy_from_slice_pure (by decide) (by decide) (by decide)
  have haddressed : copyFromSlice named 32 36 (leBytes 4 address.toNat) = pure addressed :=
    copy_from_slice_pure (by decide) (by decide) (le_bytes_length ..)
  have hlength : addressed.length = 40 := by simp [addressed, named, serviceName]
  refine ⟨addressed.take 36 ++ leBytes 4 nsCreate.toNat ++ addressed.drop 40, ?_, ?_⟩
  · unfold announcement
    dsimp only
    rw [hnamed]
    show (copyFromSlice named 32 36 _ >>= fun bytes => copyFromSlice bytes 36 40 _) = _
    rw [haddressed]
    have hend : 40 ≤ addressed.length := Nat.le_of_eq hlength.symm
    exact copy_from_slice_pure (by decide : 36 ≤ 40) hend (le_bytes_length ..)
  · simp [hlength]

/-- A query is checked without an operation. -/
theorem valid_query_pure (request : List UInt8) (generation : UInt32) :
    ∃ valid, validQuery request generation = pure valid := by
  unfold validQuery
  split
  · rename_i hlength
    rw [slice_pure (by decide) (by omega), slice_pure (by decide) (by omega)]
    by_cases hmagic : (request.take 4).drop 0 = lcdRequestMagic
    · exact ⟨_, if_pos hmagic⟩
    · exact ⟨false, if_neg hmagic⟩
  · exact ⟨false, rfl⟩

section

variable {buffers : Nat} {messages : List Posting} {fields : Transport}
  {placed : Ring → List Return} {answered consumed : Nat} {posting : Posting} {s : Rings}

theorem runs_announce (h : Serving buffers messages fields placed s)
    (hcounts : Counts answered consumed messages fields placed) (address : UInt32) :
    Runs (announce address) (fun sent s => if sent then At buffers messages answered consumed s
      else Starved buffers messages answered consumed s) s := by
  obtain ⟨bytes, hbytes, hlength⟩ := announcement_pure address
  unfold announce
  rw [hbytes]
  exact runs_send_other h hcounts (by rw [hlength]; decide) (by decide)

/-- The reply of the LCD service is 32 bytes. -/
theorem runs_reply {assertion : Rings → Prop} (hheld : Held assertion) (h : assertion s)
    (request : List UInt8) :
    Runs (reply request) (fun result s => result.length = 32 ∧ assertion s) s := by
  refine runs_look hheld h (fun _ _ _ hnext => hnext) fun s snapshot hs _ => ?_
  obtain ⟨valid, hvalid⟩ := valid_query_pure request snapshot.generation
  rw [hvalid]
  refine runs_pure hheld hs fun _ hafter => ⟨?_, hafter⟩
  simp [lcdReplyMagic]

/-- The bytes of the message that is at the head of ring 1. -/
theorem Filled.message (h : Filled buffers messages fields placed .tx posting [] s) :
    s.memory.read posting.address posting.length = posting.bytes :=
  h.valid.bytes _ posting (outstanding_head h.head)

theorem runs_read_payload (h : Filled buffers messages fields placed .tx posting [] s)
    (hwell : posting.WellFormed) :
    Runs (readPayload posting.address (headerOf posting.bytes).length.toNat)
      (fun result s => result = payloadOf posting.bytes ∧
        Filled buffers messages fields placed .tx posting [] s) s := by
  obtain ⟨_, _, hpayload, hfits⟩ := hwell
  have hread : ∀ s, Filled buffers messages fields placed .tx posting [] s →
      s.memory.read (posting.address + headerBytes) (headerOf posting.bytes).length.toNat
        = payloadOf posting.bytes := by
    intro s hs
    rw [← Memory.read_drop_take _ _ hfits, hs.message]
    rfl
  have hlength : (payloadOf posting.bytes).length = (headerOf posting.bytes).length.toNat := by
    rw [← hread s h, Memory.read_length]
  have hbytes := runs_read_bytes held_filled h hread
  have hwindow : ((List.replicate payloadBytes (0 : UInt8)).take
      (headerOf posting.bytes).length.toNat).length = (headerOf posting.bytes).length.toNat := by
    rw [List.length_take, List.length_replicate, Nat.min_eq_left hpayload]
  unfold readPayload
  dsimp only
  rw [slice_pure (Nat.zero_le _) (by rw [List.length_replicate]; exact hpayload), List.drop_zero]
  show Runs (readBytes _ (List.take _ _).length >>= fun bytes => slice _ _ _) _ s
  rw [hwindow]
  refine runs_then hbytes fun s hs => ?_
  rw [slice_pure (Nat.zero_le _) (by rw [List.length_append]; omega), List.drop_zero,
    List.take_left' hlength]
  exact runs_pure held_filled hs fun _ hafter => ⟨rfl, hafter⟩

end

/-! ## The next message -/

section

variable {buffers : Nat} {messages : List Posting} {consumed : Nat} {message : Posting} {s : Rings}

/-- A known message that is not returned yet is the head of ring 1. -/
theorem filled_of_message {fields : Transport} {placed : Ring → List Return}
    (h : Serving buffers messages fields placed s)
    (hmessage : messages[(placed .tx).length]? = some message) :
    Filled buffers messages fields placed .tx message [] s := by
  refine h.filled ?_
  obtain ⟨more, hposted⟩ := h.messages
  unfold Rings.Head
  rw [h.returned, ← hposted, List.getElem?_append_left (List.getElem?_eq_some_iff.mp hmessage).1]
  exact hmessage

theorem valid_message_iff (message : Posting) :
    validMessage (headerOf message.bytes) message.descriptor = true ↔ message.WellFormed := by
  unfold validMessage Posting.WellFormed Posting.length
  simp [and_assoc]

/-- What is left to do for the message. -/
def Answered (buffers : Nat) (messages : List Posting) (consumed : Nat) (message : Posting)
    (sent : Bool) (s : Rings) : Prop :=
  if sent then At buffers messages (consumed + 1) consumed s ∧
      (headerOf message.bytes).destination = echoAddress
    else At buffers messages consumed consumed s ∧ message.echo = none

theorem runs_answer_echo (h : At buffers messages consumed consumed s)
    (hmessage : messages[consumed]? = some message) :
    Runs (answerEcho (validMessage (headerOf message.bytes) message.descriptor)
        (headerOf message.bytes) message.address)
      (fun echoed s => match echoed with
        | none => Starved buffers messages consumed consumed s
        | some sent => Answered buffers messages consumed message sent s) s := by
  obtain ⟨fields, placed, hserving, hcounts⟩ := h
  obtain rfl := hcounts.consumed
  have hfilled := filled_of_message hserving hmessage
  unfold answerEcho
  split
  · rename_i hcondition
    have hecho : message.WellFormed ∧ (headerOf message.bytes).destination = echoAddress :=
      ⟨(valid_message_iff message).mp hcondition.1, hcondition.2⟩
    have hpayload : (payloadOf message.bytes).length ≤ payloadBytes := by
      unfold payloadOf
      rw [List.length_take]
      exact Nat.le_trans (Nat.min_le_left ..) hecho.1.2.2.1
    have howed : message.echo
        = some ⟨echoAddress, (headerOf message.bytes).source, payloadOf message.bytes⟩ := by
      unfold Posting.echo
      dsimp only
      rw [if_pos hecho, hecho.2]
    refine runs_then (runs_read_payload hfilled hecho.1) fun s hs => ?_
    have hsend := runs_send hs.toServing hcounts.cursors echoAddress
      (headerOf message.bytes).source hpayload fun posting length =>
        hcounts.answers.echo hmessage hpayload howed posting length
    refine runs_bind hsend fun sent s hs => ?_
    cases sent with
    | true =>
        obtain ⟨posting, length, hs⟩ := hs
        refine runs_pure held_serving hs fun s hs => ⟨⟨_, _, hs, ?_⟩, hecho.2⟩
        exact ⟨hcounts.cursors.sent .., hcounts.answers.echo hmessage hpayload howed posting length,
          rfl, hcounts.online⟩
    | false => exact runs_pure held_serving hs.1 fun s hafter => ⟨_, _, hafter, hcounts, hs.2⟩
  · rename_i hcondition
    have hnone : message.echo = none :=
      if_neg fun hecho => hcondition ⟨(valid_message_iff message).mpr hecho.1, hecho.2⟩
    exact runs_pure held_serving hserving fun s hs => ⟨⟨_, _, hs, hcounts⟩, hnone⟩

theorem runs_answer_lcd (lcd : Bool) {sent : Bool}
    (h : Answered buffers messages consumed message sent s)
    (hmessage : messages[consumed]? = some message) :
    Runs (answerLcd lcd (validMessage (headerOf message.bytes) message.descriptor)
        (headerOf message.bytes) message.address)
      (fun answered s => match answered with
        | none => Starved buffers messages consumed consumed s
        | some _ => At buffers messages (consumed + 1) consumed s) s := by
  unfold answerLcd
  cases sent with
  | true =>
      -- An echo went to the other address.
      obtain ⟨⟨fields, placed, hserving, hcounts⟩, hecho⟩ := h
      rw [if_neg (by rw [hecho]; exact fun hlcd => absurd hlcd.2.2 (by decide))]
      exact runs_pure held_serving hserving fun s hs => ⟨_, _, hs, hcounts⟩
  | false =>
      obtain ⟨⟨fields, placed, hserving, hcounts⟩, hecho⟩ := h
      obtain rfl := hcounts.consumed
      have hskip : ∀ {fields placed'}, Counts (placed .tx).length (placed .tx).length messages fields
          placed' → Counts ((placed .tx).length + 1) (placed .tx).length messages fields placed' := by
        intro fields placed' hcounts
        have hanswers := hcounts.answers
        have hconsumed := hcounts.consumed
        rw [← hconsumed] at hanswers hmessage
        have hafter := hanswers.skip hmessage hecho
        rw [hconsumed] at hafter
        exact ⟨hcounts.cursors, hafter, hconsumed, hcounts.online⟩
      split
      · rename_i hlcd
        have hfilled := filled_of_message hserving hmessage
        have hwell := (valid_message_iff message).mp hlcd.2.1
        refine runs_then (runs_read_payload hfilled hwell) fun s hs => ?_
        refine runs_bind (runs_reply held_filled hs _) fun response s hs => ?_
        have hlength : response.length ≤ payloadBytes := by
          rw [hs.1]
          decide
        refine runs_bind (runs_send_other hs.2.toServing hcounts hlength (by decide)) ?_
        intro sent s hs
        cases sent with
        | true =>
            obtain ⟨fields, placed', hs, hcounts⟩ := hs
            exact runs_pure held_serving hs fun s hs => ⟨_, _, hs, hskip hcounts⟩
        | false =>
            obtain ⟨fields, placed', hs, hcounts, hstarved⟩ := hs
            exact runs_pure held_serving hs fun s hs => ⟨_, _, hs, hcounts, hstarved⟩
      · exact runs_pure held_serving hserving fun s hs => ⟨_, _, hs, hskip hcounts⟩

theorem runs_answer (lcd : Bool) (h : At buffers messages consumed consumed s)
    (hmessage : messages[consumed]? = some message) :
    Runs (answer lcd (validMessage (headerOf message.bytes) message.descriptor)
        (headerOf message.bytes) message.address)
      (fun result s => if result.2 then At buffers messages (consumed + 1) consumed s
        else Starved buffers messages consumed consumed s) s := by
  unfold answer
  refine runs_bind (runs_answer_echo h hmessage) fun echoed s hs => ?_
  cases echoed with
  | none =>
      obtain ⟨fields, placed, hs, hrest⟩ := hs
      exact runs_pure held_serving hs fun s hs => ⟨_, _, hs, hrest⟩
  | some sent =>
      refine runs_bind (runs_answer_lcd lcd hs hmessage) fun answered s hs => ?_
      cases answered with
      | none =>
          obtain ⟨fields, placed, hs, hrest⟩ := hs
          exact runs_pure held_serving hs fun s hs => ⟨_, _, hs, hrest⟩
      | some answered =>
          obtain ⟨fields, placed, hs, hcounts⟩ := hs
          exact runs_pure held_serving hs fun s hs => ⟨_, _, hs, hcounts⟩

end

/-! ## Draining ring 1 -/

theorem Serving.extend {buffers : Nat} {messages : List Posting} {fields : Transport}
    {placed : Ring → List Return} {s : Rings} (h : Serving buffers messages fields placed s) :
    Serving buffers (s.posted .tx) fields placed s :=
  { h with messages := List.prefix_rfl }

/-- All returned messages are answered, and a call has come as far as it promises. -/
def Drained (buffers : Nat) (messages : List Posting) (turns : Nat) (s : Rings) : Prop :=
  ∃ later consumed fields placed, messages <+: later ∧ Serving buffers later fields placed s ∧
    Counts consumed consumed later fields placed ∧
    (messages.length ≤ consumed ∨ turns ≤ consumed ∨ buffers ≤ (placed .rx).length)

section

variable {buffers : Nat} {messages : List Posting} {consumed turns : Nat} {message : Posting}
  {s : Rings}

theorem runs_complete (h : At buffers messages (consumed + 1) consumed s)
    (hmessage : messages[consumed]? = some message) :
    Runs (completeHostMessage message.id)
      (fun _ => At buffers messages (consumed + 1) (consumed + 1)) s := by
  obtain ⟨fields, placed, hserving, hcounts⟩ := h
  obtain rfl := hcounts.consumed
  have hfilled := filled_of_message hserving hmessage
  have hanswers := hcounts.answers.return message 0 []
  unfold completeHostMessage
  refine runs_load held_filled hfilled (fun _ hs => hs.transport) fun s hs => ?_
  rw [hcounts.cursors.txUsed]
  refine runs_bind (runs_publish_used hs rfl hanswers) fun _ s hs => ?_
  refine runs_load held_serving hs (fun _ hs => hs.transport) fun s hs => ?_
  refine Machine.wp_tail (runs_store hs fun s hs => ?_)
  refine runs_pure held_serving hs fun s hs => ⟨_, _, hs, ⟨?_, ?_, ?_, ?_⟩, hanswers, ?_,
    hcounts.online⟩
  · exact hcounts.cursors.rxAvailable
  · exact hcounts.cursors.rxUsed
  · rw [placing_self, List.length_append, List.length_singleton, UInt16.ofNat_add]
    exact congrArg (· + 1) hcounts.cursors.txAvailable
  · rw [placing_self, List.length_append, List.length_singleton, UInt16.ofNat_add]
    exact congrArg (· + 1) hcounts.cursors.txUsed
  · rw [placing_self, List.length_append, List.length_singleton]

theorem runs_drain (lcd : Bool) (h : At buffers messages consumed consumed s)
    (sent completed : Bool) : Runs (drainHostMessages lcd turns sent completed)
      (fun _ => Drained buffers messages (consumed + turns)) s := by
  induction turns generalizing s messages consumed sent completed with
  | zero =>
      obtain ⟨fields, placed, hserving, hcounts⟩ := h
      exact runs_pure held_serving hserving fun s hs =>
        ⟨_, _, _, _, List.prefix_rfl, hs, hcounts, .inr (.inl (Nat.le_refl _))⟩
  | succ turns ih =>
      obtain ⟨fields, placed, hserving, hcounts⟩ := h
      unfold drainHostMessages
      refine runs_look held_serving hserving (fun _ _ _ hnext => hnext) fun s _ hs _ => ?_
      refine runs_look held_serving hs (fun _ _ _ hread => hread.2) fun s available hs hread => ?_
      obtain rfl := hread.1
      by_cases heq : fields.txAvailable = u16 s.memory (availIndexAddress vring1Base)
      · have hall : messages.length ≤ consumed := by
          have hcursor : UInt16.ofNat (s.returned .tx).length
              = u16 s.memory (availIndexAddress Ring.tx.base) := by
            rw [hs.returned, ← hcounts.cursors.txAvailable]
            exact heq
          rw [← hcounts.consumed, ← hs.returned, ← all_of_available hs.valid hcursor]
          exact hs.messages.length_le
        refine runs_load held_serving hs (fun _ hs => hs.transport) fun s hs => ?_
        rw [if_pos heq]
        exact runs_pure held_serving hs fun s hs =>
          ⟨_, _, _, _, List.prefix_rfl, hs, hcounts, .inl hall⟩
      · -- The driver has posted a message by now.
        obtain ⟨message, hhead⟩ : ∃ message, s.Head .tx message := by
          refine head_of_available hs.valid ?_
          rw [hs.returned, ← hcounts.cursors.txAvailable]
          exact heq
        have hmore := hs.messages
        have hmessage : (s.posted .tx)[consumed]? = some message := by
          unfold Rings.Head at hhead
          rwa [hs.returned, hcounts.consumed] at hhead
        have hvalid := hs.valid.valid .tx _ message hhead
        have hcounts : Counts consumed consumed (s.posted .tx) fields placed :=
          { hcounts with answers := hcounts.answers.extend hmore }
        have hserving := hs.extend
        generalize s.posted .tx = later at hmore hmessage hcounts hserving
        have hfilled := hserving.filled hhead
        refine runs_load held_filled hfilled (fun _ hs => hs.transport) fun s hs => ?_
        rw [if_neg heq, hcounts.cursors.txAvailable]
        refine runs_read_u16 held_filled hs (fun _ hs => hs.found.entry) fun s hs => ?_
        rw [if_neg (Nat.not_le.mpr hvalid.id)]
        have hdescriptor := runs_descriptor held_filled hs fun _ hs => hs.found.descriptor
        refine runs_then hdescriptor fun s hs => ?_
        have hbuffer : descriptorBuffer message.descriptor false headerBytes
            = some message.address := hvalid.buffer
        simp only [hbuffer]
        refine runs_look held_filled hs (fun _ _ _ hnext => hnext) fun s _ hs _ => ?_
        have hheader : ∀ s, Filled buffers later fields placed .tx message [] s →
            s.memory.read message.address headerBytes = message.bytes.take headerBytes := by
          intro s hs
          have hminimum : headerBytes ≤ message.length := posting_minimum hvalid
          rw [← hs.message, Memory.read_take _ _ hminimum]
        refine runs_then (runs_read_bytes held_filled hs hheader) fun s hs => ?_
        have hanswer := runs_answer lcd ⟨fields, placed, hs.toServing, hcounts⟩ hmessage
        refine runs_bind hanswer fun result s hs => ?_
        by_cases hfinished : result.2 = true
        · rw [if_pos hfinished] at hs ⊢
          refine runs_bind (runs_complete hs hmessage) fun _ s hs => ?_
          refine Machine.wp_mono (ih hs _ _) fun _ s hdrained => ?_
          obtain ⟨last, final, fields, placed, hlonger, hserving, hcounts, hdone⟩ := hdrained
          refine ⟨last, final, fields, placed, hmore.trans hlonger, hserving, hcounts, ?_⟩
          have hlength := hmore.length_le
          omega
        · rw [if_neg hfinished] at hs ⊢
          obtain ⟨fields, placed, hs, hcounts, hstarved⟩ := hs
          exact runs_pure held_serving hs fun s hs =>
            ⟨_, _, _, _, hmore, hs, hcounts, .inr (.inr hstarved)⟩

end

/-! ## The rest of a call -/

section

variable {buffers : Nat} {messages : List Posting} {answered consumed turns : Nat} {s : Rings}

theorem held_at : Held (At buffers messages answered consumed) where
  stable := by
    rintro s next ⟨fields, placed, hs, hcounts⟩ hstep
    exact ⟨fields, placed, held_serving.stable s next hs hstep, hcounts⟩
  valid := by
    rintro s ⟨_, _, hs, _⟩
    exact hs.valid

theorem held_drained : Held (Drained buffers messages turns) where
  stable := by
    rintro s next ⟨later, consumed, fields, placed, hlater, hs, hrest⟩ hstep
    exact ⟨later, consumed, fields, placed, hlater, held_serving.stable s next hs hstep, hrest⟩
  valid := by
    rintro s ⟨_, _, _, _, _, hs, _⟩
    exact hs.valid

/-- The driver leaves the fields of the transport alone. -/
theorem Held.fields {assertion : Rings → Prop} (h : Held assertion) (fields : Transport) :
    Held fun s => assertion s ∧ s.transport = fields where
  stable s next hs hstep :=
    ⟨h.stable s next hs.1 hstep, (since_of_host (h.valid s hs.1) hstep.1 hstep.2).transport.trans hs.2⟩
  valid s hs := h.valid s hs.1

/-- New fields with the same cursors. -/
theorem Counts.fields {fields later : Transport} {placed : Ring → List Return}
    (h : Counts answered consumed messages fields placed) (honline : later.online = true)
    (hcursors : Cursors fields placed → Cursors later placed) :
    Counts answered consumed messages later placed :=
  { h with
    cursors := hcursors h.cursors
    online := honline }

/-- An announcement leaves the account alone. -/
theorem runs_announced {fields : Transport} {placed : Ring → List Return} (address : UInt32)
    (mark : Transport → Transport)
    (hmark : ∀ fields placed, Counts answered consumed messages fields placed →
      Counts answered consumed messages (mark fields) placed)
    (h : Serving buffers messages fields placed s)
    (hcounts : Counts answered consumed messages fields placed) :
    Runs (do
        let sent ← announce address
        if sent then do
          let transport ← perform .load
          perform (.store (mark transport))
          pure true
        else pure false)
      (fun _ => At buffers messages answered consumed) s := by
  refine runs_bind (runs_announce h hcounts address) fun sent s hs => ?_
  cases sent with
  | true =>
      obtain ⟨fields, placed, hs, hcounts⟩ := hs
      refine runs_load held_serving hs (fun _ hs => hs.transport) fun s hs => ?_
      refine runs_store hs fun s hs => ?_
      exact runs_pure held_serving hs fun _ hs => ⟨_, _, hs, hmark _ _ hcounts⟩
  | false =>
      obtain ⟨fields, placed, hs, hcounts, _⟩ := hs
      exact runs_pure held_serving hs fun _ hs => ⟨_, _, hs, hcounts⟩

theorem runs_announce_echo (h : At buffers messages answered consumed s) :
    Runs announceEcho (fun _ => At buffers messages answered consumed) s := by
  obtain ⟨fields, placed, hs, hcounts⟩ := h
  refine runs_load held_serving hs (fun _ hs => hs.transport) fun s hs => ?_
  split
  · exact runs_pure held_serving hs fun _ hs => ⟨_, _, hs, hcounts⟩
  · refine runs_announced _ _ (fun fields placed hcounts => ?_) hs hcounts
    exact hcounts.fields hcounts.online fun h => ⟨h.1, h.2, h.3, h.4⟩

theorem runs_announce_lcd (lcd : Bool) (h : At buffers messages answered consumed s) :
    Runs (announceLcd lcd) (fun _ => At buffers messages answered consumed) s := by
  obtain ⟨fields, placed, hs, hcounts⟩ := h
  refine runs_load held_serving hs (fun _ hs => hs.transport) fun s hs => ?_
  split
  · refine runs_announced _ _ (fun fields placed hcounts => ?_) hs hcounts
    exact hcounts.fields hcounts.online fun h => ⟨h.1, h.2, h.3, h.4⟩
  · exact runs_pure held_serving hs fun _ hs => ⟨_, _, hs, hcounts⟩

/-- A store that leaves the cursors alone. -/
theorem Drained.store {later : Transport} (h : Drained buffers messages turns s)
    (honline : s.transport.online = true → later.online = true)
    (hcursors : ∀ placed, Cursors s.transport placed → Cursors later placed) :
    Drained buffers messages turns { s with transport := later } := by
  obtain ⟨last, consumed, fields, placed, hlonger, hs, hcounts, hdone⟩ := h
  rw [hs.transport] at honline hcursors
  exact ⟨last, consumed, later, placed, hlonger, hs.store later,
    hcounts.fields (honline hcounts.online) (hcursors placed), hdone⟩

/-- Fields are stored again with other notifications. -/
theorem runs_mark {α : Type} {later : Transport} {rest : Unit → Firmware α}
    {post : α → Rings → Prop} (h : Drained buffers messages turns s)
    (honline : s.transport.online = true → later.online = true)
    (hcursors : ∀ placed, Cursors s.transport placed → Cursors later placed)
    (hrest : ∀ s, Drained buffers messages turns s → Runs (rest ()) post s) :
    Runs (perform (.store later) >>= rest) post s := by
  refine runs_perform (held_drained.fields s.transport) ⟨h, rfl⟩ fun before _ next hbefore hnext => ?_
  obtain rfl : next = { before with transport := later } := hnext
  rw [← hbefore.2] at honline hcursors
  exact hrest _ (hbefore.1.store honline hcursors)

theorem runs_queue_if (condition : Bool) (vqid : UInt32) (h : Drained buffers messages turns s) :
    Runs (queueIf condition vqid) (fun _ => Drained buffers messages turns) s := by
  unfold queueIf
  split
  · refine runs_look held_drained h (fun _ _ _ hload => hload.2) fun s fields hs hload => ?_
    obtain rfl := hload.1
    refine Machine.wp_tail (runs_mark hs id (fun _ h => ⟨h.1, h.2, h.3, h.4⟩) fun s hs => ?_)
    exact runs_pure held_drained hs fun _ hs => hs
  · exact runs_pure held_drained h fun _ hs => hs

theorem runs_flush_offsets (offsets : List UInt32) (h : Drained buffers messages turns s) :
    Runs (flushOffsets offsets) (fun _ => Drained buffers messages turns) s := by
  induction offsets generalizing s with
  | nil => exact runs_pure held_drained h fun _ hs => hs
  | cons offset offsets ih =>
      refine runs_look held_drained h (fun _ _ _ hload => hload.2) fun s fields hs hload => ?_
      obtain rfl := hload.1
      dsimp only
      split
      · exact ih hs
      · refine runs_look (held_drained.fields s.transport) ⟨hs, rfl⟩ (fun _ _ _ hnotify => hnotify)
          fun next taken hs _ => ?_
        rw [← hs.2]
        split
        · refine Machine.wp_tail (runs_mark hs.1 id (fun _ h => ⟨h.1, h.2, h.3, h.4⟩) ?_)
          exact fun s hs => runs_pure held_drained hs fun _ hs => hs
        · exact runs_pure held_drained hs.1 fun _ hs => hs

theorem runs_service_online (lcd : Bool) (h : At buffers messages consumed consumed s) :
    Runs (serviceOnline lcd) (fun _ => Drained buffers messages (consumed + ringNum)) s := by
  refine runs_bind (runs_announce_echo h) fun _ s hs => ?_
  refine runs_bind (runs_announce_lcd lcd hs) fun _ s hs => ?_
  refine runs_bind (runs_drain lcd hs false false) fun _ s hs => ?_
  refine runs_bind (runs_queue_if _ 0 hs) fun _ s hs => ?_
  refine runs_bind (runs_queue_if _ 1 hs) fun _ s hs => ?_
  exact runs_flush_offsets _ hs

end

/-! ## A whole call -/

/-- The device is not attached, and nothing was returned. -/
structure Offline (s : Rings) : Prop where
  valid : s.Valid
  offline : s.transport.online = false
  returned : s.returned = fun _ => []

/-- Between two calls. -/
def Idle (s : Rings) : Prop :=
  Offline s ∨ ∃ messages consumed, At 0 messages consumed consumed s

theorem Offline.since {s next : Rings} (h : Offline s) (hvalid : next.Valid) (hsince : s.Since next) :
    Offline next where
  valid := hvalid
  offline := hsince.transport ▸ h.offline
  returned := hsince.returned.trans h.returned

theorem Offline.store {s : Rings} (h : Offline s) {later : Transport} (hlater : later.online = false) :
    Offline { s with transport := later } where
  valid := valid_store h.valid later
  offline := hlater
  returned := h.returned

theorem held_offline : Held Offline :=
  held_of_since (fun _ h => h.valid) fun _ _ h hvalid hsince => h.since hvalid hsince

section

variable {buffers : Nat} {messages : List Posting} {consumed : Nat} {s : Rings}

/-- The test of the device in a state whose memory says whether it is online. -/
theorem runs_vdev_online {assertion : Rings → Prop} (hheld : Held assertion)
    (hsince : ∀ s next, assertion s → next.Valid → s.Since next → assertion next)
    (h : assertion s) : Runs vdevOnline
      (fun online s => assertion s ∧ (online = true → Online s.memory)) s := by
  refine runs_look hheld h (fun _ _ _ hclean => hclean) fun s _ hs _ => ?_
  refine runs_look hheld hs (fun _ _ _ hread => hread.2) fun s status hs hread => ?_
  have hstatus : Held fun s => assertion s ∧
      (status &&& driverOk ≠ 0 → s.memory.byte vdevStatusAddress = status) := by
    refine held_of_since (fun s hs => hheld.valid s hs.1) fun s next hs hvalid hnext => ?_
    refine ⟨hsince s next hs.1 hvalid hnext, fun hready => ?_⟩
    have hstarted : Started s.memory := by
      unfold Started
      rwa [hs.2 hready]
    rw [hnext.attached hstarted _ (.inl ⟨Nat.le_refl _, Nat.lt_succ_self _⟩)]
    exact hs.2 hready
  have hfirst : assertion s ∧
      (status &&& driverOk ≠ 0 → s.memory.byte vdevStatusAddress = status) :=
    ⟨hs, fun _ => hread.1.symm⟩
  refine runs_look hstatus hfirst (fun _ _ _ hread => hread.2) fun s negotiated hs hread => ?_
  obtain rfl := hread.1
  have hresult : Held fun next => assertion next ∧
      (decide (status &&& driverOk ≠ 0 ∧
        u32 s.memory vdevFeaturesAddress &&& ~~~rpmsgFeatures = 0) = true →
        Online next.memory) :=
    held_of_since (fun s hs => hheld.valid s hs.1) fun s next hs hvalid hnext =>
      ⟨hsince s next hs.1 hvalid hnext, fun honline => hnext.online (hs.2 honline)⟩
  refine runs_pure hresult ⟨hs.1, fun honline => ?_⟩ fun _ hafter => hafter
  obtain ⟨hready, hfeatures⟩ := of_decide_eq_true honline
  refine ⟨?_, hfeatures⟩
  unfold Started
  rwa [hs.2 hready]

/-- The test of a device that is online. -/
theorem runs_vdev_ready {assertion : Rings → Prop} (hheld : Held assertion)
    (honline : ∀ s, assertion s → Online s.memory) (h : assertion s) :
    Runs vdevOnline (fun online s => online = true ∧ assertion s) s := by
  refine runs_look hheld h (fun _ _ _ hclean => hclean) fun s _ hs _ => ?_
  refine runs_look hheld hs (fun _ _ _ hread => hread.2) fun s status hs hstatus => ?_
  have hready : status &&& driverOk ≠ 0 := hstatus.1 ▸ (honline s hs).1
  refine runs_look hheld hs (fun _ _ _ hread => hread.2) fun s negotiated hs hread => ?_
  have hfeatures : negotiated &&& ~~~rpmsgFeatures = 0 := hread.1 ▸ (honline s hs).2
  exact runs_pure hheld hs fun _ hafter => ⟨decide_eq_true ⟨hready, hfeatures⟩, hafter⟩

/-- The fields at the beginning of a call. -/
def Ready (messages : List Posting) (fields : Transport) (placed : Ring → List Return) : Prop :=
  (fields.online = false ∧ placed = fun _ => []) ∨
    ∃ consumed, Counts consumed consumed messages fields placed

theorem counts_reset (messages : List Posting) (fields : Transport) :
    Counts 0 0 messages fields.resetForAttach fun _ => [] where
  cursors := ⟨rfl, rfl, rfl, rfl⟩
  answers := ⟨Nat.le_refl _, Nat.zero_le _, Nat.zero_le _, rfl⟩
  consumed := rfl
  online := rfl

theorem runs_attached (lcd : Bool) {fields : Transport} {placed : Ring → List Return}
    (h : Serving buffers messages fields placed s) (hready : Ready messages fields placed) :
    Runs (attach fields >>= fun _ => serviceOnline lcd)
      (fun _ => Drained buffers messages ((placed .tx).length + ringNum)) s := by
  unfold attach
  rcases hready with ⟨hoffline, rfl⟩ | ⟨consumed, hcounts⟩
  · rw [if_neg (by rw [hoffline]; exact Bool.false_ne_true)]
    refine runs_store h fun s hs => ?_
    exact runs_service_online lcd ⟨_, _, hs, counts_reset messages fields⟩
  · obtain rfl := hcounts.consumed
    rw [if_pos hcounts.online]
    exact runs_service_online lcd ⟨_, _, h, hcounts⟩

/-- The state at the beginning of a call with everything that is posted. -/
theorem Idle.serving (h : Idle s) (honline : Online s.memory) :
    Serving (s.posted .rx).length (s.posted .tx) s.transport s.returned s ∧
      Ready (s.posted .tx) s.transport s.returned := by
  rcases h with hoffline | ⟨messages, consumed, fields, placed, hs, hcounts⟩
  · exact ⟨⟨hoffline.valid, honline, rfl, rfl, List.prefix_rfl, Nat.le_refl _⟩,
      .inl ⟨hoffline.offline, hoffline.returned⟩⟩
  · refine ⟨⟨hs.valid, honline, rfl, rfl, List.prefix_rfl, Nat.le_refl _⟩, .inr ⟨consumed, ?_⟩⟩
    rw [hs.transport, hs.returned]
    exact { hcounts with answers := hcounts.answers.extend hs.messages }

theorem Drained.idle {turns : Nat} (h : Drained buffers messages turns s) : Idle s := by
  obtain ⟨later, consumed, fields, placed, _, hs, hcounts, _⟩ := h
  exact .inr ⟨later, consumed, fields, placed, { hs with buffers := Nat.zero_le _ }, hcounts⟩

/-- A call on a device that is online. -/
theorem runs_service_ready (lcd : Bool) (h : Idle s) (honline : Online s.memory) :
    Runs (service lcd) (fun _ => Drained (s.posted .rx).length (s.posted .tx)
      ((s.returned .tx).length + ringNum)) s := by
  obtain ⟨hs, hready⟩ := h.serving honline
  have htest := runs_vdev_ready held_serving (fun _ hs => hs.online) hs
  refine runs_then htest fun s hs => ?_
  refine runs_load held_serving hs (fun _ hs => hs.transport) fun s hs => ?_
  exact runs_attached lcd hs hready

/-- A call keeps the state between calls. -/
theorem runs_service (lcd : Bool) (h : Idle s) : Runs (service lcd) (fun _ => Idle) s := by
  rcases h with hoffline | hat
  · have htest := runs_vdev_online held_offline (fun _ _ hs => hs.since) hoffline
    refine runs_bind htest fun online s hs => ?_
    have hheld : Held fun s => Offline s ∧ (online = true → Online s.memory) :=
      held_of_since (fun _ hs => hs.1.valid) fun _ _ hs hvalid hnext =>
        ⟨hs.1.since hvalid hnext, fun honline => hnext.online (hs.2 honline)⟩
    refine runs_look hheld hs (fun _ _ _ hload => hload.2) fun s fields hs hload => ?_
    obtain rfl := hload.1
    cases online with
    | true =>
        obtain ⟨hserving, hready⟩ := Idle.serving (.inl hs.1) (hs.2 rfl)
        refine Machine.wp_mono (runs_attached lcd hserving hready) fun _ _ hdrained => ?_
        exact hdrained.idle
    | false =>
        refine Machine.wp_tail (runs_perform held_offline hs.1 fun before _ next hbefore hnext => ?_)
        obtain rfl : next = { before with transport := { s.transport with online := false } } :=
          hnext
        exact runs_pure held_offline (hbefore.store rfl) fun _ hafter => .inl hafter
  · have honline : Online s.memory := by
      obtain ⟨_, _, _, _, hs, _⟩ := hat
      exact hs.online
    exact Machine.wp_mono (runs_service_ready lcd (.inr hat) honline) fun _ _ hdrained =>
      hdrained.idle

theorem held_idle : Held Idle where
  stable := by
    rintro s next (hs | ⟨messages, consumed, hs⟩) hstep
    · exact .inl (held_offline.stable s next hs hstep)
    · exact .inr ⟨messages, consumed, held_at.stable s next hs hstep⟩
  valid := by
    rintro s (hs | ⟨messages, consumed, hs⟩)
    · exact hs.valid
    · exact held_at.valid s hs

theorem runs_services (lcd : Bool) (h : Idle s) (count : Nat) :
    Runs ((service lcd).iterate count) (fun _ => Idle) s :=
  Machine.wp_iterate held_idle.stable (fun _ hs => runs_service lcd hs) h count

end

/-! ## Used entries stay -/

theorem performs_grows {s next : Rings} {operation : Op} {result : operation.Ret}
    (h : s.Performs operation result next) (ring : Ring) :
    s.returned ring <+: next.returned ring := by
  have hpublish : ∀ (other : Ring) (index : UInt16),
      s.returned ring <+: (s.publish other index).returned ring := by
    intro other index
    unfold Rings.publish
    by_cases heq : ring = other
    · subst heq
      dsimp only
      rw [Function.update_self]
      exact List.prefix_append ..
    · dsimp only
      rw [Function.update_of_ne heq]
  cases operation with
  | writeU16 address value =>
      have hnext : next = _ := h
      rw [hnext]
      split
      · exact hpublish .rx value
      · split
        · exact hpublish .tx value
        · exact List.prefix_rfl
  | readU8 _ | readU16 _ | readU32 _ | readU64 _ | load =>
      obtain rfl := h.2
      exact List.prefix_rfl
  | writeU8 _ _ | writeU32 _ _ | clean _ _ | invalidate _ _ | notify _ | lcdSnapshot | store _ =>
      obtain rfl : next = _ := h
      exact List.prefix_rfl
  | panic => cases result

theorem host_grows {s next : Rings} (h : HostStep s next) (ring : Ring) :
    s.returned ring <+: next.returned ring := by
  cases h with
  | write => exact List.prefix_rfl
  | post => exact List.prefix_rfl

theorem runs_grow {α : Type} (program : Firmware α) (s : Rings) (ring : Ring) :
    driven.wp (fun _ _ => True) program (fun _ next => s.returned ring <+: next.returned ring) s :=
  Machine.wp_only (fun _ _ h hstep => h.trans (host_grows hstep.1 ring)) (fun _ _ _ _ => trivial)
    (fun _ _ _ _ h _ hnext => h.trans (performs_grows hnext ring)) (Prog.Only.any program)
    List.prefix_rfl

/-- A call after others. -/
theorem runs_service_again (lcd : Bool) {buffers turns : Nat} {messages : List Posting} {s : Rings}
    (h : Drained buffers messages turns s) :
    Runs (service lcd) (fun _ => Drained buffers messages (turns + ringNum)) s := by
  have hidle := h.idle
  obtain ⟨later, consumed, fields, placed, hlonger, hs, hcounts, hdone⟩ := h
  obtain rfl := hcounts.consumed
  have hservice := Machine.wp_and (runs_service_ready lcd hidle hs.online)
    (runs_grow (service lcd) s .rx)
  refine Machine.wp_mono hservice fun _ next hnext => ?_
  obtain ⟨⟨last, final, fields', placed', hlast, hs', hcounts', hdone'⟩, hgrow⟩ := hnext
  have hmore := hs.messages.length_le
  have hbuffers := hs.buffers
  have hused := hgrow.length_le
  have hknown := hlonger.length_le
  rw [hs'.returned, hs.returned] at hused
  rw [hs.returned] at hdone'
  exact ⟨last, final, fields', placed', (hlonger.trans hs.messages).trans hlast,
    { hs' with buffers := Nat.le_trans hs.buffers hs'.buffers }, hcounts', by omega⟩

theorem runs_more_calls (lcd : Bool) {buffers : Nat} {messages : List Posting} (calls : Nat)
    {turns : Nat} {s : Rings} (h : Drained buffers messages turns s) :
    Runs ((service lcd).iterate calls)
      (fun _ => Drained buffers messages (turns + calls * ringNum)) s := by
  induction calls generalizing turns s with
  | zero =>
      refine runs_pure held_drained h fun _ hafter => ?_
      rwa [Nat.zero_mul, Nat.add_zero]
  | succ calls ih =>
      have hturns : turns + ringNum + calls * ringNum = turns + (calls + 1) * ringNum := by
        rw [Nat.add_one_mul]
        omega
      refine runs_bind (runs_service_again lcd h) fun _ s hs => ?_
      rw [← hturns]
      exact ih hs

theorem runs_calls (lcd : Bool) {s : Rings} (h : Idle s) (honline : Online s.memory) (calls : Nat) :
    Runs ((service lcd).iterate (calls + 1)) (fun _ => Drained (s.posted .rx).length
      (s.posted .tx) ((s.returned .tx).length + (calls + 1) * ringNum)) s := by
  have hturns : (s.returned .tx).length + ringNum + calls * ringNum
      = (s.returned .tx).length + (calls + 1) * ringNum := by
    rw [Nat.add_one_mul]
    omega
  refine runs_bind (runs_service_ready lcd h honline) fun _ s' hs' => ?_
  rw [← hturns]
  exact runs_more_calls lcd calls hs'

/-! ## Whole runs -/

/-- Fresh rings and a transport that has not attached. -/
structure Boot (s : Rings) : Prop where
  transport : s.transport = Transport.new
  posted : s.posted = fun _ => []
  returned : s.returned = fun _ => []
  avail : ∀ ring : Ring, u16 s.memory (availIndexAddress ring.base) = 0
  used : ∀ ring : Ring, u16 s.memory (usedIndexAddress ring.base) = 0

theorem Boot.idle {s : Rings} (h : Boot s) : Idle s := by
  have hnone : ∀ (ring : Ring) (index : Nat) (posting : Posting),
      (s.posted ring)[index]? = some posting → False := by
    intro ring index posting hget
    rw [h.posted] at hget
    cases hget
  refine .inl ⟨?_, by rw [h.transport]; rfl, h.returned⟩
  exact {
    counts := fun ring => by rw [h.returned]; exact Nat.zero_le _
    avail := fun ring => by rw [h.avail, h.posted]; rfl
    used := fun ring => by rw [h.used, h.returned]; rfl
    offers := fun ring index posting hposting => (hnone ring index posting hposting.2).elim
    bytes := fun index posting hposting => (hnone .tx index posting hposting.2).elim
    valid := fun ring index posting hget => (hnone ring index posting hget).elim
    ids := fun ring index posting _ _ hposting => (hnone ring index posting hposting.2).elim
    apart := fun index posting _ _ hposting => (hnone .rx index posting hposting.2).elim
    order := fun ring => by rw [h.returned]; rfl
    accounted := by
      unfold Rings.Accounted
      rw [h.returned]
      exact ⟨0, Nat.le_refl _, Nat.zero_le _, Nat.zero_le _, rfl⟩ }

/-- At every moment of a run the driver finds the echoes of the messages it sent to the echo
address, each once, in order and with the addresses exchanged: those of all the messages that were
returned and perhaps of the next one. Every ring returns its descriptors in the order in which they
were posted, each once. -/
theorem echo_end_to_end (lcd : Bool) {count : Nat} {start s : Rings} {rest : Firmware Unit}
    (hboot : Boot start)
    (hrun : Relation.ReflTransGen driven.Step ((service lcd).iterate count, start) (rest, s)) :
    (∃ answered, (s.returned .tx).length ≤ answered ∧ answered ≤ (s.returned .tx).length + 1 ∧
      answered ≤ (s.posted .tx).length ∧
      (s.returned .rx).filterMap Return.echo
        = ((s.posted .tx).take answered).filterMap Posting.echo) ∧
    ∀ ring, (s.returned ring).length ≤ (s.posted ring).length ∧
      (s.returned ring).map Return.id =
        ((s.posted ring).take (s.returned ring).length).map fun posting => posting.id.toUInt32 := by
  have hafter := Machine.wp_run (runs_services lcd hboot.idle count) hrun
  have hvalid : s.Valid := by
    cases rest with
    | pure value =>
        have hidle := Machine.wp_result hafter
        exact held_idle.valid s hidle
    | op operation next => exact Machine.wp_guard hafter
  exact ⟨hvalid.accounted, fun ring => ⟨hvalid.counts ring, hvalid.order ring⟩⟩

/-- What calls on a device that is online get done: they return every message that was posted
before them, or 256 for each call, or they use every buffer that was posted before them. Between
calls exactly the returned messages are answered. -/
theorem service_progress (lcd : Bool) {count calls : Nat} {start s next : Rings}
    (hboot : Boot start)
    (hrun : Relation.ReflTransGen driven.Step ((service lcd).iterate count, start)
      (.pure (), s))
    (honline : Online s.memory)
    (hcalls : Relation.ReflTransGen driven.Step ((service lcd).iterate (calls + 1), s)
      (.pure (), next)) :
    (next.returned .rx).filterMap Return.echo
      = ((next.posted .tx).take (next.returned .tx).length).filterMap Posting.echo ∧
    ((s.posted .tx).length ≤ (next.returned .tx).length ∨
      (s.returned .tx).length + (calls + 1) * ringNum ≤ (next.returned .tx).length ∨
      (s.posted .rx).length ≤ (next.returned .rx).length) := by
  have hidle := Machine.wp_result (Machine.wp_run (runs_services lcd hboot.idle count) hrun)
  have hdrained := Machine.wp_result (Machine.wp_run (runs_calls lcd hidle honline calls) hcalls)
  obtain ⟨later, consumed, fields, placed, _, hserving, hcounts, hdone⟩ := hdrained
  have hanswers := hcounts.answers.extend hserving.messages
  rw [← hserving.returned] at hcounts hdone hanswers
  obtain rfl := hcounts.consumed
  exact ⟨hanswers.echoes, hdone⟩

/-! ## A message and its echo

Linux offers two buffers and sends three bytes to the echo address. The first call announces the
service in the first buffer and answers in the second. -/

/-- One answer to every operation that returns: the doorbell is taken. -/
def Rings.answer (s : Rings) : (operation : Op) → Option (operation.Ret × Rings)
  | .readU8 address => some (s.memory.byte address, s)
  | .readU16 address => some (u16 s.memory address, s)
  | .readU32 address => some (u32 s.memory address, s)
  | .readU64 address => some (u64 s.memory address, s)
  | .writeU8 address value => some ((), s.write address [value])
  | .writeU32 address value => some ((), s.write address (leBytes 4 value.toNat))
  | .writeU16 address value =>
      some ((), if address = usedIndexAddress Ring.rx.base then s.publish .rx value
        else if address = usedIndexAddress Ring.tx.base then s.publish .tx value
        else s.write address (leBytes 2 value.toNat))
  | .clean _ _ | .invalidate _ _ => some ((), s)
  | .notify _ => some (true, s)
  | .lcdSnapshot => some (⟨0, 0, 0, 0, 0, false⟩, s)
  | .load => some (s.transport, s)
  | .store transport => some ((), { s with transport := transport })
  | .panic => none

theorem performs_answer (s : Rings) (operation : Op) (result : operation.Ret) (next : Rings)
    (h : s.answer operation = some (result, next)) : s.Performs operation result next := by
  cases operation with
  | readU8 | readU16 | readU32 | readU64 | load =>
      obtain ⟨rfl, rfl⟩ := Prod.mk.inj (Option.some.inj h)
      exact ⟨rfl, rfl⟩
  | writeU8 | writeU32 | writeU16 | clean | invalidate | notify | lcdSnapshot | store =>
      obtain ⟨rfl, rfl⟩ := Prod.mk.inj (Option.some.inj h)
      rfl
  | panic => cases h

/-- The buffer that a descriptor describes, with its contents. -/
def postingAt (memory : Memory) (ring : Ring) (id : UInt16) : Posting where
  id := id
  descriptor := descriptorAt memory ring.base id
  bytes := memory.read (descriptorAt memory ring.base id).address.toNat
    (descriptorAt memory ring.base id).length.toNat

/-- The driver posts the buffer of a descriptor. -/
def Rings.offer (s : Rings) (ring : Ring) (id : UInt16) : Rings :=
  s.post ring (postingAt s.memory ring id)

theorem offer_step {s : Rings} {ring : Ring} {id : UInt16}
    (hentry : u16 s.memory (availEntryAddress ring.base (.ofNat (s.posted ring).length)) = id)
    (hid : ∀ posting ∈ s.posted ring, posting.id ≠ id)
    (haddress : ∀ other, ∀ posting ∈ s.posted other,
      posting.address ≠ (postingAt s.memory ring id).address)
    (hvalid : ∀ other, ∀ posting ∈ (s.offer ring id).posted other, posting.Valid other) :
    driven.interfere s (s.offer ring id) := by
  refine ⟨.post ⟨hentry, rfl⟩ rfl ?_ ?_, hvalid, ?_⟩
  · exact fun index other houtstanding => hid other (List.mem_of_getElem? houtstanding.2)
  · exact fun otherRing index other houtstanding =>
      haddress otherRing other (List.mem_of_getElem? houtstanding.2)
  · intro _ address hwithin
    refine Memory.write_outside _ (.inl ?_)
    have htable := table_below_ring ring
    unfold availIndexAddress
    unfold Within vdevStatusAddress vdevFeaturesAddress at hwithin
    omega

/-- A descriptor of a slot. -/
def descriptorBytes (address flags : Nat) : List UInt8 :=
  leBytes 8 address ++ leBytes 4 bufferBytes ++ leBytes 2 flags ++ leBytes 2 0

/-- The memory of a device that is online, with the two buffers and the message. -/
def helloMemory : Memory :=
  let memory : Memory := ⟨fun address => if address = vdevStatusAddress then 4 else 0⟩
  let memory := memory.write Ring.rx.base (descriptorBytes bufferBase 2)
  let memory := memory.write (Ring.rx.base + 16) (descriptorBytes (bufferBase + 512) 2)
  let memory := memory.write (availEntryAddress Ring.rx.base 1) [1]
  let memory := memory.write Ring.tx.base (descriptorBytes (bufferBase + 1024) 0)
  memory.write (bufferBase + 1024) (messageBytes 0x500 echoAddress [1, 2, 3])

def helloStart : Rings where
  memory := helloMemory
  transport := Transport.new
  posted := fun _ => []
  returned := fun _ => []

def helloPosted : Rings := ((helloStart.offer .rx 0).offer .rx 1).offer .tx 0

/-- The state in which the call leaves the rings. -/
def helloServed : Rings :=
  (((service false).iterate 1).drive Rings.answer 400 helloPosted).2

theorem boot_hello : Boot helloStart := by
  refine ⟨rfl, rfl, rfl, ?_, ?_⟩
  · intro ring
    cases ring <;> decide +kernel
  · intro ring
    cases ring <;> decide +kernel

/-- Linux posts while the transport is about to run any program. -/
theorem hello_post (program : Firmware Unit) :
    Relation.ReflTransGen driven.Step (program, helloStart) (program, helloPosted) := by
  have hfirst : driven.interfere helloStart (helloStart.offer .rx 0) := by
    refine offer_step (by decide +kernel) ?_ ?_ ?_
    · exact fun _ hposting => absurd hposting List.not_mem_nil
    · exact fun _ _ hposting => absurd hposting List.not_mem_nil
    · rintro (_ | _) <;> decide +kernel
  have hsecond : driven.interfere (helloStart.offer .rx 0)
      ((helloStart.offer .rx 0).offer .rx 1) := by
    refine offer_step (by decide +kernel) (by decide +kernel) ?_ ?_
    · rintro (_ | _) <;> decide +kernel
    · rintro (_ | _) <;> decide +kernel
  have hthird : driven.interfere ((helloStart.offer .rx 0).offer .rx 1) helloPosted := by
    refine offer_step (by decide +kernel) (by decide +kernel) ?_ ?_
    · rintro (_ | _) <;> decide +kernel
    · rintro (_ | _) <;> decide +kernel
  exact .head (.interfere hfirst) (.head (.interfere hsecond) (.single (.interfere hthird)))

theorem hello_call : Relation.ReflTransGen driven.Step ((service false).iterate 1, helloPosted)
    (.pure (), helloServed) := by
  have hrun : Relation.ReflTransGen driven.Step ((service false).iterate 1, helloPosted)
      (((service false).iterate 1).drive Rings.answer 400 helloPosted) :=
    Machine.run_drive performs_answer 400 _ _
  have hdone : (((service false).iterate 1).drive Rings.answer 400 helloPosted).1.operation =
      none := by
    decide +kernel
  obtain ⟨_, hpure⟩ := Prog.operation_eq_none.1 hdone
  have hend : ((service false).iterate 1).drive Rings.answer 400 helloPosted =
      (.pure (), helloServed) :=
    Prod.ext hpure (by simp only [helloServed])
  rwa [hend] at hrun

/-- The account when the call has returned. -/
theorem echo_end_to_end_hello :
    Relation.ReflTransGen driven.Step ((service false).iterate 1, helloStart)
      (.pure (), helloServed) ∧
    (helloServed.returned .rx).filterMap Return.echo = [⟨echoAddress, 0x500, [1, 2, 3]⟩] ∧
    ∀ ring, (helloServed.returned ring).map Return.id = ((helloServed.posted ring).take
      (helloServed.returned ring).length).map fun posting => posting.id.toUInt32 := by
  have hrun := (hello_post ((service false).iterate 1)).trans hello_call
  have haccount := echo_end_to_end false boot_hello hrun
  exact ⟨hrun, by decide +kernel, fun ring => (haccount.2 ring).2⟩

/-- The call answers the message that was posted before it. -/
theorem service_progress_hello :
    (helloServed.returned .rx).filterMap Return.echo
      = ((helloServed.posted .tx).take (helloServed.returned .tx).length).filterMap Posting.echo ∧
    (helloPosted.posted .tx).length = 1 ∧ (helloServed.returned .tx).length = 1 ∧
    (helloServed.returned .rx).length = 2 := by
  have hstarted : helloPosted.memory.byte vdevStatusAddress &&& driverOk ≠ 0 := by
    decide +kernel
  have hfeatures : u32 helloPosted.memory vdevFeaturesAddress &&& ~~~rpmsgFeatures = 0 := by
    decide +kernel
  have hprogress := @service_progress false 0 0 _ _ _ boot_hello (hello_post (.pure ()))
    ⟨hstarted, hfeatures⟩ hello_call
  exact ⟨hprogress.1, by decide +kernel, by decide +kernel, by decide +kernel⟩

end NanoKvm.Rpmsg
