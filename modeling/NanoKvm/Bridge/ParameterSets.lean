import NanoKvm.Bridge.Live
import NanoKvm.Text.Base64

/-!
# The parameter sets in the session description

`base64_encode` of `sg2002-h264-bridge.c`, which `rtsp_connect` calls for the parameter sets that
`rtsp_offer_buffer` has stored. `base64_encode_eq` says that it is the encoding of RFC 4648.
-/

namespace NanoKvm.Bridge

open Exec Text

/-- The end of a string. -/
def nul : Char := Char.ofNat 0

/-- `b64_alphabet`, with the end of the string. -/
def b64Alphabet : List Char :=
  ['A', 'B', 'C', 'D', 'E', 'F', 'G', 'H', 'I', 'J', 'K', 'L', 'M', 'N', 'O', 'P', 'Q', 'R', 'S',
    'T', 'U', 'V', 'W', 'X', 'Y', 'Z', 'a', 'b', 'c', 'd', 'e', 'f', 'g', 'h', 'i', 'j', 'k', 'l',
    'm', 'n', 'o', 'p', 'q', 'r', 's', 't', 'u', 'v', 'w', 'x', 'y', 'z', '0', '1', '2', '3', '4',
    '5', '6', '7', '8', '9', '+', '/', nul]

/-- An entry of the alphabet. -/
def b64Char (index : UInt32) : Char := b64Alphabet.getD index.toNat nul

/-- What `base64_encode` writes to `out`. -/
def base64Encode : List UInt8 → List Char
  | first :: second :: third :: rest =>
      let v := first.toUInt32 <<< 16 ||| second.toUInt32 <<< 8 ||| third.toUInt32
      b64Char (v >>> 18) :: b64Char ((v >>> 12) &&& 63) :: b64Char ((v >>> 6) &&& 63) ::
        b64Char (v &&& 63) :: base64Encode rest
  | first :: tail =>
      let v : UInt32 := first.toUInt32 <<< 16
      let v : UInt32 := match tail with
        | second :: _ => v ||| second.toUInt32 <<< 8
        | [] => v
      [b64Char (v >>> 18), b64Char ((v >>> 12) &&& 63),
        if tail.isEmpty then '=' else b64Char ((v >>> 6) &&& 63), '=', nul]
  | [] => [nul]

/-- The size of `sps_b64` and of `pps_b64`. -/
def b64Size : Nat := 384

/-! ## The encoding -/

section

variable (first second third : UInt8)

/-- The number of a group. -/
theorem group_to_nat :
    (first.toUInt32 <<< 16 ||| second.toUInt32 <<< 8 ||| third.toUInt32).toNat =
      Base64.numberOf first second third := by
  have hfirst := first.toNat_lt
  have hsecond := second.toNat_lt
  have hthird := third.toNat_lt
  have hlow : second.toNat <<< 8 ||| third.toNat = second.toNat <<< 8 + third.toNat :=
    (Nat.shiftLeft_add_eq_or_of_lt hthird _).symm
  have hless : second.toNat <<< 8 + third.toNat < 2 ^ 16 := by
    rw [Nat.shiftLeft_eq]
    omega
  have hhigh : first.toNat <<< 16 ||| (second.toNat <<< 8 + third.toNat) =
      first.toNat <<< 16 + (second.toNat <<< 8 + third.toNat) :=
    (Nat.shiftLeft_add_eq_or_of_lt hless _).symm
  have hfit : first.toNat <<< 16 % 2 ^ 32 = first.toNat <<< 16 := by
    rw [Nat.shiftLeft_eq]
    omega
  have hfitLow : second.toNat <<< 8 % 2 ^ 32 = second.toNat <<< 8 := by
    rw [Nat.shiftLeft_eq]
    omega
  rw [UInt32.or_assoc, UInt32.toNat_or, UInt32.toNat_or, UInt32.toNat_shiftLeft,
    UInt32.toNat_shiftLeft, UInt8.toNat_toUInt32, UInt8.toNat_toUInt32, UInt8.toNat_toUInt32]
  show first.toNat <<< 16 % 2 ^ 32 ||| (second.toNat <<< 8 % 2 ^ 32 ||| third.toNat) = _
  rw [hfit, hfitLow, hlow, hhigh, Nat.shiftLeft_eq, Nat.shiftLeft_eq, Base64.numberOf]
  omega

end

/-- The characters of a value are those of RFC 4648. -/
theorem b64_char_eq {index : UInt32} (h : index.toNat < 64) :
    b64Char index = Base64.charOf index.toNat := by
  have hall : ∀ value : Fin 64, b64Alphabet.getD value.val nul = Base64.charOf value.val := by decide
  exact hall ⟨index.toNat, h⟩

section

variable {v : UInt32} {number : Nat}

theorem b64_top (h : v.toNat = number) (hlt : number < 16777216) :
    b64Char (v >>> 18) = Base64.charOf (number / 262144) := by
  have hnat : (v >>> 18).toNat = number / 262144 := by
    rw [UInt32.toNat_shiftRight, h, Nat.shiftRight_eq_div_pow]
    rfl
  rw [b64_char_eq (by rw [hnat]; omega), hnat]

theorem b64_low (h : v.toNat = number) :
    b64Char (v &&& 63) = Base64.charOf (number % 64) := by
  have hnat : (v &&& 63).toNat = number % 64 := by
    rw [UInt32.toNat_and, h]
    exact Nat.and_two_pow_sub_one_eq_mod number 6
  rw [b64_char_eq (by rw [hnat]; omega), hnat]

theorem b64_second (h : v.toNat = number) :
    b64Char ((v >>> 12) &&& 63) = Base64.charOf (number / 4096 % 64) := by
  refine b64_low ?_
  rw [UInt32.toNat_shiftRight, h, Nat.shiftRight_eq_div_pow]
  rfl

theorem b64_third (h : v.toNat = number) :
    b64Char ((v >>> 6) &&& 63) = Base64.charOf (number / 64 % 64) := by
  refine b64_low ?_
  rw [UInt32.toNat_shiftRight, h, Nat.shiftRight_eq_div_pow]
  rfl

end

/-- `base64_encode` writes the encoding of RFC 4648 and the end of the string. -/
theorem base64_encode_eq (bytes : List UInt8) :
    base64Encode bytes = Base64.encode bytes ++ [nul] := by
  induction bytes using Base64.encode.induct with
  | case1 first second third rest ih =>
      have hgroup := group_to_nat first second third
      rw [base64Encode, ih, b64_top hgroup (Base64.number_lt ..), b64_second hgroup,
        b64_third hgroup, b64_low hgroup, Base64.encode, Base64.charsOf]
      rfl
  | case2 first second =>
      have hgroup : (first.toUInt32 <<< 16 ||| second.toUInt32 <<< 8).toNat =
          Base64.numberOf first second 0 := by
        have hthree := group_to_nat first second 0
        rwa [show (0 : UInt8).toUInt32 = 0 from rfl, UInt32.or_zero] at hthree
      rw [base64Encode]
      rw [b64_top hgroup (Base64.number_lt ..), b64_second hgroup, b64_third hgroup, Base64.encode,
        Base64.charsOf]
      rfl
      · simp
  | case3 first =>
      have hgroup : (first.toUInt32 <<< 16).toNat = Base64.numberOf first 0 0 := by
        have hthree := group_to_nat first 0 0
        rwa [show (0 : UInt8).toUInt32 = 0 from rfl, UInt32.or_zero,
          show (0 : UInt32) <<< 8 = 0 from rfl, UInt32.or_zero] at hthree
      rw [base64Encode]
      rw [b64_top hgroup (Base64.number_lt ..), b64_second hgroup, Base64.encode, Base64.charsOf]
      rfl
  | case4 => simp [base64Encode, Base64.encode]

/-! ## What is stored -/

/-- The parameter sets fit `sps` and `pps`. -/
def Fits (sink : RtspSink) : Prop := sink.sps.length ≤ 256 ∧ sink.pps.length ≤ 256

/-- The sinks that successive offers leave. -/
inductive Stored : RtspSink → Prop where
  | start : Stored Live.start.rtsp
  | offer {live last : Live} {opts : BridgeOptions} {payload : List UInt8} {ptsMs : UInt64}
      {events : List (Event Call Call.Ret)} {result : Option Unit} (h : Stored live.rtsp)
      (hoffer : (rtspOfferBuffer opts payload ptsMs live).Trace events (result, last)) :
      Stored last.rtsp

section

variable {live : Live} {history : List (Event Call Call.Ret)}

/-- A NAL unit is only stored if it fits. -/
theorem fits_learn {payload : List UInt8} {sink : RtspSink} (h : Fits sink) :
    Fits (learn payload sink) := by
  unfold learn
  dsimp only
  generalize Rtp.annexbSplit payload 32 = nals
  show Fits (nals.foldl _ sink)
  induction nals generalizing sink with
  | nil => exact h
  | cons nal rest ih =>
      rw [List.foldl_cons]
      apply ih
      split
      · rename_i hsps
        exact ⟨hsps.2, h.2⟩
      · split
        · rename_i hpps
          exact ⟨h.1, hpps.2⟩
        · exact h

/-- The connection does not touch them. -/
theorem wp_connecting {α : Type} {program : Bridging α}
    (hprogram : program.Steady (fun live => (live.rtsp.sps, live.rtsp.pps)) Connecting)
    (h : Fits live.rtsp) :
    program.wp (fun _ last _ => Fits last.rtsp) (fun last _ => Fits last.rtsp) live history := by
  have hsame : ∀ last : Live, (last.rtsp.sps, last.rtsp.pps) = (live.rtsp.sps, live.rtsp.pps) →
      Fits last.rtsp := by
    intro last hview
    rw [Prod.mk.injEq] at hview
    rw [Fits, hview.1, hview.2]
    exact h
  have hkeep : ∀ (history : List (Event Call Call.Ret)) (event : Event Call Call.Ret),
      Connecting event.operation → (fun _ => True) history → (fun _ => True) (history ++ [event]) :=
    fun _ _ _ _ => trivial
  refine Attempt.wp_mono (Attempt.wp_steady hkeep hprogram trivial) ?_ ?_
  · exact fun _ last _ hlast => hsame last hlast.1
  · exact fun last _ hlast => hsame last hlast.1

theorem wp_offer_buffer {opts : BridgeOptions} {payload : List UInt8} {ptsMs : UInt64}
    (h : Fits live.rtsp) :
    (rtspOfferBuffer opts payload ptsMs).wp (fun _ last _ => Fits last.rtsp)
      (fun last _ => Fits last.rtsp) live history := by
  have hblind : Blind fun live : Live => (live.rtsp.sps, live.rtsp.pps) := fun _ _ _ => rfl
  have hlearned : Fits (if live.rtsp.haveParams then live.rtsp else learn payload live.rtsp) := by
    split
    · exact h
    · exact fits_learn h
  refine Attempt.wp_bind.mpr (Attempt.wp_modify.mpr ?_)
  refine Attempt.wp_bind.mpr (Attempt.wp_get.mpr ?_)
  split
  · exact wp_connecting (steady_send_au hblind) hlearned
  split
  · exact Attempt.wp_pure.mpr hlearned
  refine Attempt.wp_bind.mpr (Attempt.wp_perform.mpr fun now => ?_)
  split
  · exact Attempt.wp_pure.mpr hlearned
  refine Attempt.wp_bind.mpr (Attempt.wp_mono
    (wp_connecting (steady_rtsp_connect hblind) hlearned) ?_ fun _ _ hexit => hexit)
  intro connected last events hlast
  split
  · exact wp_connecting (steady_send_au hblind) hlast
  · refine Attempt.wp_bind.mpr (Attempt.wp_perform.mpr fun now => Attempt.wp_modify.mpr ?_)
    exact ⟨hlast.1, hlast.2⟩

theorem Stored.fits {sink : RtspSink} (h : Stored sink) : Fits sink := by
  induction h with
  | start =>
      constructor
      · show 0 ≤ 256
        omega
      · show 0 ≤ 256
        omega
  | @offer live last opts payload ptsMs events result _ hoffer ih =>
      have hwp : (rtspOfferBuffer opts payload ptsMs).wp (fun _ last _ => Fits last.rtsp)
          (fun last _ => Fits last.rtsp) live [] := wp_offer_buffer ih
      have hlast := hwp _ _ _ hoffer
      cases result with
      | none => exact hlast
      | some value => exact hlast

end

/-- `base64_encode` writes what RFC 4648 decodes to its input, and what it writes for a stored
parameter set fits the buffer. -/
theorem base64_parameter_sets :
    (∀ bytes, ∃ text, base64Encode bytes = text ++ [nul] ∧ Base64.decode text = some bytes ∧
      text.length = 4 * ((bytes.length + 2) / 3)) ∧
    ∀ sink, Stored sink → (base64Encode sink.sps).length ≤ b64Size ∧
      (base64Encode sink.pps).length ≤ b64Size := by
  have hsize : ∀ bytes : List UInt8, bytes.length ≤ 256 → (base64Encode bytes).length ≤ b64Size := by
    intro bytes hbytes
    rw [base64_encode_eq, List.length_append, List.length_singleton, Base64.encode_length]
    show _ ≤ 384
    omega
  refine ⟨fun bytes => ⟨Base64.encode bytes, base64_encode_eq bytes, Base64.decode_encode bytes,
    Base64.encode_length bytes⟩, fun sink hstored => ?_⟩
  exact ⟨hsize _ hstored.fits.1, hsize _ hstored.fits.2⟩

/-- An access unit with two parameter sets of four and three bytes. -/
def announcing : List UInt8 :=
  [0, 0, 0, 1, 0x67, 0x42, 0xe0, 0x1f, 0, 0, 1, 0x68, 0xce, 0x38]

/-- What the offer of that access unit comes to when nothing answers at the host's address. -/
def announced : List (Event Call Call.Ret) × Option Unit × Live :=
  (rtspOfferBuffer plainOptions announcing 40 .start).runWith willing

/-- The parameter sets of that offer. -/
theorem base64_parameter_sets_announced :
    announced.2.2.rtsp.sps = [0x67, 0x42, 0xe0, 0x1f] ∧
      announced.2.2.rtsp.pps = [0x68, 0xce, 0x38] ∧
      (base64Encode announced.2.2.rtsp.sps).length ≤ b64Size ∧
      (base64Encode announced.2.2.rtsp.pps).length ≤ b64Size := by
  have hoffer : (rtspOfferBuffer plainOptions announcing 40 .start).Trace announced.1
      (announced.2.1, announced.2.2) := Prog.trace_run_with willing _
  have hstored : Stored announced.2.2.rtsp := .offer .start hoffer
  refine ⟨?_, ?_, base64_parameter_sets.2 _ hstored⟩ <;> decide +kernel

end NanoKvm.Bridge
