import Mathlib.Algebra.Ring.Int.Defs
import Mathlib.Data.List.Induction
import Mathlib.Data.List.Infix
import Mathlib.Data.List.TakeWhile
import NanoKvm.Text.Numerals

/-!
# The session of an RTSP reply

`rtsp_read_reply` of `sg2002-h264-bridge.c` and the `RECORD` request of `rtsp_connect`. The
search for the `;` after a session value runs over the whole rest of the reply, so a `;` in a
later header makes the value run past its line. `session_iff` says when it does not, for any bytes
in the lines of the reply.
-/

namespace NanoKvm.Bridge

/-- The bytes of a text. -/
def bytesOf (text : String) : List UInt8 := Text.utf8Bytes text.toList

/-- The end of a line. -/
def crlf : List UInt8 := [0x0d, 0x0a]

/-- The bytes of a string, which the first zero ends. -/
def cString (bytes : List UInt8) : List UInt8 := bytes.takeWhile (· ≠ 0)

/-! ## Reading a reply -/

/-- The loop that reads up to an empty line into the buffer of 1024 bytes, and what is left on
the connection. -/
def readBlock : List UInt8 → List UInt8 → Option (List UInt8 × List UInt8)
  | _, [] => none
  | buf, byte :: rest =>
      if buf.length + 1 ≥ 1024 then none
      else if (crlf ++ crlf).isSuffixOf (buf ++ [byte]) then some (buf ++ [byte], rest)
      else readBlock (buf ++ [byte]) rest

/-- `isspace` -/
def isSpaceByte (byte : UInt8) : Bool := byte == 0x20 || (0x09 ≤ byte && byte ≤ 0x0d)

/-- The number that digits write. -/
def scanDigits (text : List UInt8) : Option Int :=
  let digits := text.takeWhile Text.isAsciiDigit
  if digits = [] then none
  else some (digits.foldl (fun value byte => value * 10 + (byte.toNat - 0x30 : Nat)) 0)

/-- The number of a `%d`. -/
def scanNumber (text : List UInt8) : Option Int :=
  match text.dropWhile isSpaceByte with
  | 0x2d :: rest => (scanDigits rest).map Int.neg
  | 0x2b :: rest => scanDigits rest
  | rest => scanDigits rest

section

-- What `%d` stores for a number that an `int` does not hold is left open by C.
variable (overflow : Int → Int32)

/-- The `int` that a `%d` stores for a number. -/
def storeInt (number : Int) : Int32 :=
  if -2 ^ 31 ≤ number ∧ number < 2 ^ 31 then Int32.ofInt number else overflow number

/-- `sscanf` of the status line. -/
def scanStatus (buf : List UInt8) : Option Int32 :=
  if (bytesOf "RTSP/1.0").isPrefixOf buf then (scanNumber (buf.drop 8)).map (storeInt overflow)
  else none

/-- `tolower` -/
def lowerByte (byte : UInt8) : UInt8 := if 0x41 ≤ byte ∧ byte ≤ 0x5a then byte + 0x20 else byte

/-- `!strncasecmp(line, "Session:", 8)` -/
def isSession (line : List UInt8) : Bool := (line.take 8).map lowerByte = bytesOf "session:"

/-- The loop over the lines: the text after `Session:`. -/
def findSession : List UInt8 → Option (List UInt8)
  | 0x0d :: 0x0a :: line =>
      if line = [] ∨ line.head? = some 0x0d then none
      else if isSession line then some (line.drop 8)
      else findSession line
  | _ :: rest => findSession rest
  | [] => none

/-- `strstr` of the end of a line. -/
def untilCrlf : List UInt8 → Option (List UInt8)
  | [] => none
  | 0x0d :: 0x0a :: _ => some []
  | byte :: rest => (untilCrlf rest).map (byte :: ·)

/-- The value up to its stop. -/
def sessionValue (text : List UInt8) : Option (List UInt8) :=
  let value := text.dropWhile (· = 0x20)
  if 0x3b ∈ value then some (value.takeWhile (· ≠ 0x3b)) else untilCrlf value

/-- What is left in `session_out`. -/
def sessionOut (buf : List UInt8) (sessionSize : Nat) : List UInt8 :=
  match (findSession buf).bind sessionValue with
  | none => []
  | some value => value.take (sessionSize - 1)

/-- `rtsp_read_reply` with a place for the session: the status and the session. -/
def rtspReadReply (stream : List UInt8) (sessionSize : Nat) : Option (Int32 × List UInt8) := do
  let (block, _) ← readBlock [] stream
  let buf := cString block
  let status ← scanStatus overflow buf
  return (status, sessionOut buf sessionSize)

end

/-- The `RECORD` request. -/
def recordRequest (url : List UInt8) (cseq : UInt32) (session : List UInt8) : List UInt8 :=
  bytesOf "RECORD " ++ url ++ bytesOf " RTSP/1.0\r\nCSeq: " ++
    Text.utf8Bytes (Nat.toDigits 10 cseq.toNat) ++ bytesOf "\r\nSession: " ++ session ++
    bytesOf "\r\nRange: npt=0.000-\r\n\r\n"

/-! ## Replies -/

/-- A line: the end of a line is not in it. A lone carriage return or line feed and a zero may
be. -/
def IsLine (line : List UInt8) : Prop := ¬ crlf <:+: line

instance (line : List UInt8) : Decidable (IsLine line) :=
  inferInstanceAs (Decidable (¬ crlf <:+: line))

/-- A text without carriage return and line feed. -/
def OnOneLine (text : List UInt8) : Prop := ∀ byte ∈ text, byte ≠ 0x0d ∧ byte ≠ 0x0a

instance (text : List UInt8) : Decidable (OnOneLine text) :=
  List.decidableBAll _ text

/-- A reply without a body: any lines, the first of them empty after the headers. -/
structure Reply where
  status : List UInt8
  headers : List (List UInt8)
  statusLine : IsLine status
  headerLines : ∀ header ∈ headers, IsLine header ∧ header ≠ []

namespace Reply

/-- The header block of a reply. -/
def block (reply : Reply) : List UInt8 :=
  reply.status ++ crlf ++ reply.headers.flatMap (· ++ crlf) ++ crlf

/-- The value of a session header up to the end of its line. -/
def valueOf (header : List UInt8) : List UInt8 := (header.drop 8).dropWhile (· = 0x20)

/-- The value up to a semicolon. -/
def idOf (header : List UInt8) : List UInt8 := (valueOf header).takeWhile (· ≠ 0x3b)

/-- The session that the reply names, in so many bytes. -/
def session (reply : Reply) (sessionSize : Nat) : List UInt8 :=
  match reply.headers.find? isSession with
  | none => []
  | some header => (idOf header).take (sessionSize - 1)

end Reply

/-- The lines of a text. -/
def crlfLines : List UInt8 → List (List UInt8)
  | [] => [[]]
  | 0x0d :: 0x0a :: rest => [] :: crlfLines rest
  | byte :: rest =>
      match crlfLines rest with
      | [] => [[byte]]
      | line :: lines => (byte :: line) :: lines

/-- What a session that was read is for: it is the one of the reply, it stays on its line, and the
request with it has one session header. -/
structure SessionRead (reply : Reply) (sessionSize : Nat) (out : List UInt8) : Prop where
  value : out = reply.session sessionSize
  line : OnOneLine out
  record : ∀ url cseq, OnOneLine url →
    ((crlfLines (recordRequest url cseq out)).filter isSession).length = 1

/-- The header lines and the empty line. -/
def headerText (headers : List (List UInt8)) : List UInt8 := headers.flatMap (· ++ crlf) ++ crlf

/-- The search comes to the line behind these: no zero ends the string before, and no line starts
with a lone carriage return, which the loop takes for the empty line. -/
def Reaches (status : List UInt8) (before : List (List UInt8)) : Prop :=
  0 ∉ status ∧ ∀ other ∈ before, 0 ∉ other ∧ other.head? ≠ some 0x0d

instance (status : List UInt8) (before : List (List UInt8)) : Decidable (Reaches status before) :=
  inferInstanceAs (Decidable (_ ∧ _))

/-- What is up to the stop of the value is a text on one line, and the search for the stop ends on
that line or behind what fits the session. -/
def StopsInTime (header : List UInt8) (after : List (List UInt8)) (sessionSize : Nat) : Prop :=
  0 ∉ Reply.idOf header ∧ OnOneLine ((Reply.idOf header).take (sessionSize - 1)) ∧
    (0x3b ∈ Reply.valueOf header ∨ 0x3b ∉ cString (headerText after) ∨
      sessionSize - 1 ≤ (Reply.valueOf header).length)

instance (header : List UInt8) (after : List (List UInt8)) (sessionSize : Nat) :
    Decidable (StopsInTime header after sessionSize) :=
  inferInstanceAs (Decidable (_ ∧ _ ∧ _))

/-- The first session header is found and its value stops in time; an empty value may also be
missed, and a session of one byte has no place for any. -/
def StopsOnLine (reply : Reply) (sessionSize : Nat) : Prop :=
  match reply.headers.dropWhile (fun header => !isSession header) with
  | [] => True
  | header :: after =>
      sessionSize ≤ 1 ∨
        if Reaches reply.status (reply.headers.takeWhile fun header => !isSession header) then
          StopsInTime header after sessionSize
        else Reply.idOf header = []

/-! ## Lines -/

theorem header_text_cons (header : List UInt8) (headers : List (List UInt8)) :
    headerText (header :: headers) = header ++ crlf ++ headerText headers := by
  simp [headerText]

theorem Reply.block_eq (reply : Reply) :
    reply.block = reply.status ++ crlf ++ headerText reply.headers := by
  simp [Reply.block, headerText]

theorem OnOneLine.is_line {text : List UInt8} (h : OnOneLine text) : IsLine text :=
  fun hcrlf => (h 0x0d (hcrlf.subset List.mem_cons_self)).1 rfl

theorem IsLine.of_infix {line part : List UInt8} (h : IsLine line) (hpart : part <:+: line) :
    IsLine part :=
  fun hcrlf => h (hcrlf.trans hpart)

theorem IsLine.tail {byte : UInt8} {line : List UInt8} (h : IsLine (byte :: line)) : IsLine line :=
  h.of_infix (List.suffix_cons byte line).isInfix

/-- The end of a line does not start in the line before. -/
theorem IsLine.no_start {byte : UInt8} {line : List UInt8} (h : IsLine (byte :: line))
    (hbyte : byte = 0x0d) (rest tail : List UInt8) : line ++ crlf ++ rest ≠ 0x0a :: tail := by
  intro heq
  cases line with
  | nil => exact absurd (List.cons.inj heq).1 (by decide)
  | cons other line =>
      refine h ?_
      rw [hbyte, (List.cons.inj heq).1]
      exact (List.prefix_append crlf line).isInfix

theorem crlf_lines_ne_nil (text : List UInt8) : crlfLines text ≠ [] := by
  fun_cases crlfLines text <;> simp_all

/-- A byte that starts no end of a line is the first of its line. -/
theorem crlf_lines_cons {byte : UInt8} {text : List UInt8}
    (h : ∀ tail, byte = 0x0d → text = 0x0a :: tail → False) :
    ∃ line lines, crlfLines text = line :: lines ∧
      crlfLines (byte :: text) = (byte :: line) :: lines := by
  obtain ⟨line, lines, hlines⟩ := List.exists_cons_of_ne_nil (crlf_lines_ne_nil text)
  refine ⟨line, lines, hlines, ?_⟩
  rw [crlfLines, hlines]
  exact h

/-- The end of a line ends one. -/
theorem crlf_lines_append (text rest : List UInt8) :
    crlfLines (text ++ crlf ++ rest) = crlfLines text ++ crlfLines rest := by
  induction text using crlfLines.induct with
  | case1 => rfl
  | case2 text ih => exact congrArg ([] :: ·) ih
  | case3 byte text hplain hnone ih => exact absurd hnone (crlf_lines_ne_nil text)
  | case4 byte text hplain line lines hlines ih =>
      have hnext : ∀ tail, byte = 0x0d → text ++ crlf ++ rest = 0x0a :: tail → False := by
        intro tail hbyte htail
        cases text with
        | nil => exact absurd (List.cons.inj htail).1 (by decide)
        | cons other text => exact hplain text hbyte (by rw [(List.cons.inj htail).1])
      obtain ⟨first, others, hfirst, hcons⟩ := crlf_lines_cons hnext
      obtain ⟨line', lines', hline', hcons'⟩ := crlf_lines_cons hplain
      rw [ih, hline', List.cons_append] at hfirst
      obtain ⟨rfl, rfl⟩ := List.cons.inj hfirst
      exact hcons.trans (by rw [hcons']; rfl)

theorem crlf_lines_line {line : List UInt8} (h : IsLine line) : crlfLines line = [line] := by
  induction line with
  | nil => rfl
  | cons byte line ih =>
      have hplain : ∀ tail, byte = 0x0d → line = 0x0a :: tail → False := by
        intro tail hbyte hline
        exact h.no_start hbyte [] (tail ++ crlf) (by rw [hline, List.append_nil]; rfl)
      obtain ⟨first, others, hfirst, hcons⟩ := crlf_lines_cons hplain
      rw [ih h.tail] at hfirst
      obtain ⟨rfl, rfl⟩ := List.cons.inj hfirst
      exact hcons

theorem crlf_lines_headers {headers : List (List UInt8)}
    (h : ∀ header ∈ headers, IsLine header ∧ header ≠ []) :
    crlfLines (headerText headers) = headers ++ [[], []] := by
  induction headers with
  | nil => rfl
  | cons header headers ih =>
      obtain ⟨hheader, hlater⟩ := List.forall_mem_cons.mp h
      rw [header_text_cons, crlf_lines_append, crlf_lines_line hheader.1, ih hlater]
      rfl

/-- A text of one empty line. -/
theorem crlf_lines_empty {text : List UInt8} (h : crlfLines text = [[]]) : text = [] := by
  fun_cases crlfLines text with
  | case1 => rfl
  | case2 rest => exact absurd (List.cons.inj h).2 (crlf_lines_ne_nil rest)
  | case3 byte rest hplain hnone => exact absurd hnone (crlf_lines_ne_nil rest)
  | case4 byte rest hplain line lines hlines =>
      obtain ⟨first, others, -, hcons⟩ := crlf_lines_cons hplain
      exact absurd (List.cons.inj (hcons.symm.trans h)).1 (List.cons_ne_nil _ _)

/-- Behind lines that are not empty, only the last of two empty ones has none after it. -/
theorem empty_line_last {headers front back : List (List UInt8)}
    (hheaders : ∀ header ∈ headers, header ≠ []) (hback : back ≠ [])
    (h : headers ++ [[], []] = front ++ [] :: back) : back = [[]] := by
  induction headers generalizing front with
  | nil =>
      rcases front with _ | ⟨first, _ | ⟨second, front⟩⟩
      · exact (List.cons.inj h).2.symm
      · exact absurd (List.cons.inj (List.cons.inj h).2).2.symm hback
      · exact absurd (List.cons.inj (List.cons.inj h).2).2.symm (by simp)
  | cons header headers ih =>
      obtain ⟨hheader, hlater⟩ := List.forall_mem_cons.mp hheaders
      cases front with
      | nil => exact absurd (List.cons.inj h).1 hheader
      | cons first front => exact ih hlater (List.cons.inj h).2

/-! ## The search for the header -/

theorem c_string_append (bytes rest : List UInt8) :
    cString (bytes ++ rest) = if 0 ∈ bytes then cString bytes else bytes ++ cString rest := by
  unfold cString
  split
  · rename_i hzero
    rw [List.takeWhile_append, if_neg]
    intro hall
    have hwhole := (List.takeWhile_prefix fun byte : UInt8 => decide (byte ≠ 0)).eq_of_length hall
    exact absurd (List.mem_takeWhile_imp (hwhole ▸ hzero)) (by decide)
  · rename_i hzero
    refine List.takeWhile_append_of_pos fun byte hbyte => ?_
    rw [decide_eq_true_eq]
    rintro rfl
    exact hzero hbyte

theorem IsLine.c_string {line : List UInt8} (h : IsLine line) : IsLine (cString line) :=
  h.of_infix (List.takeWhile_prefix _).isInfix

theorem find_session_plain {text : List UInt8} (h : IsLine text) : findSession text = none := by
  induction text with
  | nil => rfl
  | cons byte text ih =>
      rw [findSession]
      · exact ih h.tail
      · intro tail hbyte htext
        exact h.no_start hbyte [] (tail ++ crlf) (by rw [htext, List.append_nil]; rfl)

theorem find_session_line {line : List UInt8} (h : IsLine line) (rest : List UInt8) :
    findSession (line ++ crlf ++ rest) =
      if rest = [] ∨ rest.head? = some 0x0d then none
      else if isSession rest then some (rest.drop 8) else findSession rest := by
  induction line with
  | nil => simp only [crlf, List.cons_append, List.nil_append, findSession]
  | cons byte line ih =>
      rw [List.cons_append, List.cons_append, findSession]
      · exact ih h.tail
      · exact fun tail hbyte => h.no_start hbyte rest tail

theorem is_session_length {header : List UInt8} (h : isSession header = true) :
    8 ≤ header.length := by
  have heq := congrArg List.length (of_decide_eq_true h)
  have height : (bytesOf "session:").length = 8 := by decide
  rw [List.length_map, List.length_take, height] at heq
  omega

/-- The bytes of the name. -/
theorem is_session_mem {header : List UInt8} (h : isSession header = true) {byte : UInt8}
    (hbyte : byte ∈ header.take 8) : lowerByte byte ∈ bytesOf "session:" := by
  rw [← of_decide_eq_true h]
  exact List.mem_map_of_mem hbyte

theorem is_session_append {line rest : List UInt8} (h : 8 ≤ line.length) :
    isSession (line ++ rest) = isSession line := by
  unfold isSession
  rw [List.take_append_of_le_length h]

/-- A name does not go on over the end of a line. -/
theorem is_session_line (line rest : List UInt8) :
    isSession (line ++ crlf ++ rest) = isSession line := by
  by_cases hlong : 8 ≤ line.length
  · rw [List.append_assoc, is_session_append hlong]
  · have hshort : isSession line = false := by
      rw [← Bool.not_eq_true]
      exact fun h => hlong (is_session_length h)
    rw [hshort, ← Bool.not_eq_true]
    intro h
    refine absurd (@is_session_mem _ h 0x0d ?_) (by decide)
    rw [List.append_assoc, List.take_append, List.mem_append]
    right
    obtain ⟨left, hleft⟩ := Nat.exists_eq_add_of_lt (Nat.lt_of_not_le hlong)
    rw [show 8 - line.length = left + 1 by omega]
    exact List.mem_cons_self

/-- The name is in front of a zero. -/
theorem c_string_session {header : List UInt8} (h : isSession header = true) (rest : List UInt8) :
    cString (header ++ rest) = header.take 8 ++ cString (header.drop 8 ++ rest) := by
  rw [← List.take_append_drop 8 header, List.append_assoc, c_string_append, if_neg,
    List.take_append_drop]
  exact fun hzero => absurd (is_session_mem h hzero) (by decide)

theorem is_session_c_string (line rest : List UInt8) :
    isSession (cString (line ++ crlf ++ rest)) = isSession line := by
  cases hsession : isSession line with
  | true =>
      have hname : (line.take 8).length = 8 := by
        rw [List.length_take]
        exact Nat.min_eq_left (is_session_length hsession)
      rw [List.append_assoc, c_string_session hsession, is_session_append hname.ge]
      unfold isSession at hsession ⊢
      rwa [List.take_take, Nat.min_self]
  | false =>
      rw [← Bool.not_eq_true]
      intro h
      obtain ⟨tail, htail⟩ := List.takeWhile_prefix (l := line ++ crlf ++ rest)
        fun byte : UInt8 => decide (byte ≠ 0)
      have hwhole : isSession (cString (line ++ crlf ++ rest) ++ tail) = true := by
        rwa [is_session_append (is_session_length h)]
      rw [cString, htail, is_session_line, hsession] at hwhole
      exact Bool.noConfusion hwhole

/-- What is behind the name. -/
theorem c_string_drop {header : List UInt8} (h : isSession header = true) (rest : List UInt8) :
    (cString (header ++ rest)).drop 8 = cString (header.drop 8 ++ rest) := by
  have hname : (header.take 8).length = 8 := by
    rw [List.length_take]
    exact Nat.min_eq_left (is_session_length h)
  rw [c_string_session h, List.drop_append_of_le_length hname.ge, List.drop_eq_nil_of_le hname.le,
    List.nil_append]

/-- One turn of the loop over the lines. -/
theorem find_session_header {line header : List UInt8} (hline : IsLine line)
    (hheader : header ≠ []) (rest : List UInt8) :
    findSession (cString (line ++ crlf ++ (header ++ crlf ++ rest))) =
      if 0 ∈ line ∨ header.head? = some 0x0d then none
      else if isSession header then some (cString (header.drop 8 ++ (crlf ++ rest)))
      else findSession (cString (header ++ crlf ++ rest)) := by
  have hcrlf : (0 : UInt8) ∉ crlf := by decide
  rw [List.append_assoc line, c_string_append]
  by_cases hzero : 0 ∈ line
  · rw [if_pos hzero, if_pos (.inl hzero), find_session_plain hline.c_string]
  rw [if_neg hzero, c_string_append, if_neg hcrlf, ← List.append_assoc, find_session_line hline,
    is_session_c_string]
  obtain ⟨first, tail, rfl⟩ := List.exists_cons_of_ne_nil hheader
  by_cases hfirst : first = 0
  · subst hfirst
    rw [if_pos (.inl rfl), if_neg (by simp [hzero])]
    rfl
  have hhead : cString (first :: tail ++ crlf ++ rest) = first :: cString (tail ++ crlf ++ rest) :=
    List.takeWhile_cons_of_pos (by simpa using hfirst)
  by_cases hreturn : first = 0x0d
  · rw [if_pos (.inr (by rw [hhead, hreturn]; rfl)), if_pos (.inr (by rw [hreturn]; rfl))]
  have hon : ¬ (cString (first :: tail ++ crlf ++ rest) = [] ∨
      (cString (first :: tail ++ crlf ++ rest)).head? = some 0x0d) := by
    rw [hhead]
    simpa using hreturn
  have hon' : ¬ (0 ∈ line ∨ (first :: tail).head? = some 0x0d) := by simp [hzero, hreturn]
  rw [if_neg hon, if_neg hon']
  cases hsession : isSession (first :: tail) with
  | true => rw [if_pos rfl, if_pos rfl, List.append_assoc, c_string_drop hsession]
  | false => rfl

theorem find_session_none {line : List UInt8} {headers : List (List UInt8)} (hline : IsLine line)
    (hheaders : ∀ header ∈ headers, IsLine header ∧ header ≠ [])
    (hnone : ∀ header ∈ headers, isSession header = false) :
    findSession (cString (line ++ crlf ++ headerText headers)) = none := by
  induction headers generalizing line with
  | nil =>
      rw [List.append_assoc, c_string_append]
      split
      · exact find_session_plain hline.c_string
      · exact (congrArg findSession (List.append_assoc line crlf crlf).symm).trans
          ((find_session_line hline crlf).trans (if_pos (.inr rfl)))
  | cons header headers ih =>
      obtain ⟨⟨hheader, hsome⟩, hlater⟩ := List.forall_mem_cons.mp hheaders
      obtain ⟨hother, hlaterNone⟩ := List.forall_mem_cons.mp hnone
      rw [header_text_cons, find_session_header hline hsome, hother, if_neg Bool.false_ne_true]
      split
      · rfl
      · exact ih hheader hlater hlaterNone

theorem find_session_some {line header : List UInt8} {before after : List (List UInt8)}
    (hline : IsLine line)
    (hheaders : ∀ other ∈ before ++ header :: after, IsLine other ∧ other ≠ [])
    (hbefore : ∀ other ∈ before, isSession other = false) (hsession : isSession header = true) :
    findSession (cString (line ++ crlf ++ headerText (before ++ header :: after))) =
      if Reaches line before then some (cString (header.drop 8 ++ (crlf ++ headerText after)))
      else none := by
  induction before generalizing line with
  | nil =>
      have hreturn : header.head? ≠ some 0x0d := by
        intro hhead
        obtain ⟨tail, rfl⟩ := List.head?_eq_some_iff.mp hhead
        exact absurd (@is_session_mem _ hsession 0x0d List.mem_cons_self) (by decide)
      rw [List.nil_append, header_text_cons,
        find_session_header hline (hheaders header (by simp)).2,
        hsession, if_pos rfl]
      by_cases hzero : 0 ∈ line
      · rw [if_pos (.inl hzero), if_neg fun h : Reaches line [] => h.1 hzero]
      · rw [if_neg (by simp [hzero, hreturn]), if_pos ⟨hzero, by simp⟩]
  | cons other before ih =>
      obtain ⟨hother, hlater⟩ := List.forall_mem_cons.mp hbefore
      rw [List.cons_append] at hheaders ⊢
      obtain ⟨⟨hfirst, hsome⟩, hrest⟩ := List.forall_mem_cons.mp hheaders
      rw [header_text_cons, find_session_header hline hsome, hother, if_neg Bool.false_ne_true,
        ih hfirst hrest hlater]
      by_cases hstop : 0 ∈ line ∨ other.head? = some 0x0d
      · rw [if_pos hstop, if_neg]
        rintro ⟨hzero, hthere⟩
        exact hstop.elim hzero (hthere other List.mem_cons_self).2
      · rw [if_neg hstop]
        refine if_congr ?_ rfl rfl
        rw [not_or] at hstop
        simp only [Reaches, List.forall_mem_cons]
        tauto

/-! ## The value -/

theorem until_crlf_plain {text : List UInt8} (h : IsLine text) : untilCrlf text = none := by
  induction text with
  | nil => rfl
  | cons byte text ih =>
      rw [untilCrlf, ih h.tail]
      · rfl
      · intro tail hbyte htext
        exact h.no_start hbyte [] (tail ++ crlf) (by rw [htext, List.append_nil]; rfl)

theorem until_crlf_line {line : List UInt8} (h : IsLine line) (rest : List UInt8) :
    untilCrlf (line ++ crlf ++ rest) = some line := by
  induction line with
  | nil => rfl
  | cons byte line ih =>
      rw [List.cons_append, List.cons_append, untilCrlf, ih h.tail]
      · rfl
      · exact fun tail hbyte => h.no_start hbyte rest tail

theorem value_inside (header : List UInt8) : Reply.valueOf header <:+: header :=
  (List.dropWhile_suffix _).isInfix.trans (List.drop_suffix 8 header).isInfix

theorem c_string_spaces (text : List UInt8) :
    (cString text).dropWhile (· = 0x20) = cString (text.dropWhile (· = 0x20)) := by
  induction text with
  | nil => rfl
  | cons byte text ih =>
      by_cases hspace : byte = 0x20
      · subst hspace
        exact ih
      · rw [List.dropWhile_cons_of_neg (by simpa using hspace)]
        unfold cString
        by_cases hzero : byte = 0
        · subst hzero
          rfl
        · rw [List.takeWhile_cons_of_pos (by simpa using hzero),
            List.dropWhile_cons_of_neg (by simpa using hspace)]

/-- What the search takes for the value, with the rest of the reply behind its line. -/
def taken (header rest : List UInt8) : List UInt8 :=
  if 0x3b ∈ Reply.valueOf header then Reply.idOf header
  else if 0x3b ∈ cString rest then
    Reply.valueOf header ++ crlf ++ (cString rest).takeWhile (· ≠ 0x3b)
  else Reply.valueOf header

theorem id_whole {header : List UInt8} (h : 0x3b ∉ Reply.valueOf header) :
    Reply.idOf header = Reply.valueOf header := by
  rw [Reply.idOf, List.takeWhile_eq_self_iff]
  intro byte hbyte
  rw [decide_eq_true_eq]
  rintro rfl
  exact h hbyte

/-- The search for the stop of a value. -/
theorem session_value_line {header : List UInt8} (hheader : IsLine header) (rest : List UInt8) :
    sessionValue (cString (header.drop 8 ++ (crlf ++ rest))) =
      if 0 ∈ Reply.idOf header then none else some (taken header rest) := by
  have hvalue : (cString (header.drop 8 ++ (crlf ++ rest))).dropWhile (· = 0x20) =
      cString (Reply.valueOf header ++ (crlf ++ rest)) := by
    rw [c_string_spaces, List.dropWhile_append, ← Reply.valueOf]
    split
    · rename_i hempty
      rw [List.isEmpty_iff.mp hempty]
      rfl
    · rfl
  have hline : IsLine (Reply.valueOf header) := hheader.of_infix (value_inside header)
  have hid : ∀ byte ∈ Reply.idOf header, byte ≠ 0x3b := fun byte hbyte =>
    of_decide_eq_true (List.mem_takeWhile_imp (p := fun byte => decide (byte ≠ 0x3b)) hbyte)
  have hcrlf : (0x3b : UInt8) ∉ crlf := by decide
  have hsplit : Reply.idOf header ++ (Reply.valueOf header).dropWhile (· ≠ 0x3b) =
      Reply.valueOf header := List.takeWhile_append_dropWhile
  have htake : ∀ more, (Reply.idOf header ++ 0x3b :: more).takeWhile (· ≠ 0x3b) =
      Reply.idOf header := by
    intro more
    rw [List.takeWhile_append_of_pos fun byte hbyte => decide_eq_true (hid byte hbyte)]
    exact List.append_nil _
  unfold sessionValue taken
  rw [hvalue]
  dsimp only
  by_cases hzero : 0 ∈ Reply.idOf header
  · have hplain : IsLine (cString (Reply.idOf header)) :=
      IsLine.c_string (hline.of_infix (List.takeWhile_prefix _).isInfix)
    have hnone : (0x3b : UInt8) ∉ cString (Reply.idOf header) :=
      fun hmem => hid _ ((List.takeWhile_sublist _).subset hmem) rfl
    rw [← hsplit, List.append_assoc, c_string_append, if_pos hzero, if_neg hnone, if_pos hzero,
      until_crlf_plain hplain]
  rw [if_neg hzero]
  by_cases hcolon : 0x3b ∈ Reply.valueOf header
  · obtain ⟨more, hmore⟩ : ∃ more, Reply.valueOf header = Reply.idOf header ++ 0x3b :: more := by
      cases hrest : (Reply.valueOf header).dropWhile (· ≠ 0x3b) with
      | nil =>
          rw [hrest, List.append_nil] at hsplit
          exact absurd rfl (hid 0x3b (hsplit ▸ hcolon))
      | cons byte more =>
          have hstop := List.head?_dropWhile_not (fun byte : UInt8 => decide (byte ≠ 0x3b))
            (Reply.valueOf header)
          rw [hrest] at hstop
          have hbyte : byte = 0x3b := by simpa using hstop
          exact ⟨more, by rw [← hsplit, hrest, hbyte]⟩
    have hcut : cString (Reply.valueOf header ++ (crlf ++ rest)) =
        Reply.idOf header ++ 0x3b :: cString (more ++ (crlf ++ rest)) := by
      rw [hmore, List.append_assoc, c_string_append, if_neg hzero]
      rfl
    rw [hcut, if_pos (by simp), if_pos hcolon, htake]
  · have hwhole : Reply.idOf header = Reply.valueOf header := id_whole hcolon
    have hcut : cString (Reply.valueOf header ++ (crlf ++ rest)) =
        Reply.valueOf header ++ crlf ++ cString rest := by
      rw [c_string_append, if_neg (hwhole ▸ hzero), c_string_append, if_neg (by decide),
        List.append_assoc]
    rw [hcut, if_neg hcolon]
    have hplain : ∀ byte ∈ Reply.valueOf header ++ crlf, decide (byte ≠ 0x3b) = true := by
      intro byte hbyte
      rw [decide_eq_true_eq]
      rintro rfl
      exact (List.mem_append.mp hbyte).elim hcolon hcrlf
    by_cases hlater : 0x3b ∈ cString rest
    · rw [if_pos (by simp [hlater]), if_pos hlater, List.takeWhile_append_of_pos hplain]
    · rw [if_neg (by simp [hcolon, hlater, hcrlf]), if_neg hlater, until_crlf_line hline]

/-! ## The request -/

theorem on_one_line_append {text other : List UInt8} (h : OnOneLine text)
    (hother : OnOneLine other) : OnOneLine (text ++ other) := by
  intro byte hbyte
  exact (List.mem_append.mp hbyte).elim (h byte) (hother byte)

/-- A request with a session that stays on its line has one session header. -/
theorem record_one_session {url session : List UInt8} (hurl : OnOneLine url) (cseq : UInt32)
    (hsession : OnOneLine session) :
    ((crlfLines (recordRequest url cseq session)).filter isSession).length = 1 := by
  have hdigits : OnOneLine (Text.utf8Bytes (Nat.toDigits 10 cseq.toNat)) := by
    intro byte hbyte
    have hdigit := List.all_eq_true.mp (Text.decimal_bytes cseq.toNat) byte hbyte
    refine ⟨?_, ?_⟩ <;> rintro rfl <;> exact absurd hdigit (by decide)
  have hsplit : recordRequest url cseq session =
      (bytesOf "RECORD " ++ (url ++ bytesOf " RTSP/1.0")) ++ crlf ++
        ((bytesOf "CSeq: " ++ Text.utf8Bytes (Nat.toDigits 10 cseq.toNat)) ++ crlf ++
          ((bytesOf "Session: " ++ session) ++ crlf ++
            (bytesOf "Range: npt=0.000-" ++ crlf ++ crlf))) := by
    have hfirst : bytesOf " RTSP/1.0\r\nCSeq: "
        = bytesOf " RTSP/1.0" ++ (crlf ++ bytesOf "CSeq: ") := by
      decide
    have hsecond : bytesOf "\r\nSession: " = crlf ++ bytesOf "Session: " := by decide
    have hthird : bytesOf "\r\nRange: npt=0.000-\r\n\r\n" =
        crlf ++ (bytesOf "Range: npt=0.000-" ++ (crlf ++ crlf)) := by decide
    rw [recordRequest, hfirst, hsecond, hthird]
    simp only [List.append_assoc]
  have hstart : ∀ rest, isSession (bytesOf "RECORD " ++ rest) = false := fun rest => by
    rw [← Bool.not_eq_true, isSession, decide_eq_true_eq]
    exact fun heq => absurd (List.cons.inj heq).1 (by decide)
  have hcount : ∀ rest, isSession (bytesOf "CSeq: " ++ rest) = false := fun rest => by
    rw [← Bool.not_eq_true, isSession, decide_eq_true_eq]
    exact fun heq => absurd (List.cons.inj heq).1 (by decide)
  have hname : ∀ rest, isSession (bytesOf "Session: " ++ rest) = true := fun rest => rfl
  have hrange :
      (crlfLines (bytesOf "Range: npt=0.000-" ++ crlf ++ crlf)).filter isSession = [] := by
    decide
  have hrequest : OnOneLine (bytesOf "RECORD " ++ (url ++ bytesOf " RTSP/1.0")) :=
    on_one_line_append (by decide) (on_one_line_append hurl (by decide))
  have hnumber : OnOneLine (bytesOf "CSeq: " ++ Text.utf8Bytes (Nat.toDigits 10 cseq.toNat)) :=
    on_one_line_append (by decide) hdigits
  have hline : OnOneLine (bytesOf "Session: " ++ session) :=
    on_one_line_append (by decide) hsession
  rw [hsplit, crlf_lines_append, crlf_lines_append, crlf_lines_append,
    crlf_lines_line hrequest.is_line, crlf_lines_line hnumber.is_line,
    crlf_lines_line hline.is_line]
  simp only [List.singleton_append]
  rw [List.filter_cons_of_neg (by simp [hstart]), List.filter_cons_of_neg (by simp [hcount]),
    List.filter_cons_of_pos (hname session), hrange]
  rfl

/-! ## The reply as a whole -/

/-- What is read of a reply. -/
theorem session_out_block (reply : Reply) (sessionSize : Nat) :
    (reply.headers.find? isSession = none ∧ sessionOut (cString reply.block) sessionSize = []) ∨
    ∃ before header after, reply.headers = before ++ header :: after ∧
      (∀ other ∈ before, isSession other = false) ∧ isSession header = true ∧
      reply.headers.find? isSession = some header ∧
      sessionOut (cString reply.block) sessionSize =
        if Reaches reply.status before ∧ 0 ∉ Reply.idOf header then
          (taken header (headerText after)).take (sessionSize - 1)
        else [] := by
  rw [Reply.block_eq]
  cases hfind : reply.headers.find? isSession with
  | none =>
      left
      have hnone : ∀ header ∈ reply.headers, isSession header = false := by
        simpa using List.find?_eq_none.mp hfind
      rw [sessionOut, find_session_none reply.statusLine reply.headerLines hnone]
      exact ⟨rfl, rfl⟩
  | some header =>
      right
      obtain ⟨hsession, before, after, hsplit, hbefore⟩ := List.find?_eq_some_iff_append.mp hfind
      have hbefore' : ∀ other ∈ before, isSession other = false := by simpa using hbefore
      have hheaders := reply.headerLines
      rw [hsplit] at hheaders
      refine ⟨before, header, after, hsplit, hbefore', hsession, rfl, ?_⟩
      rw [sessionOut, hsplit, find_session_some reply.statusLine hheaders hbefore' hsession]
      by_cases hreaches : Reaches reply.status before
      · rw [if_pos hreaches, Option.bind_some, session_value_line (hheaders header (by simp)).1]
        by_cases hzero : 0 ∈ Reply.idOf header
        · rw [if_pos hzero, if_neg fun h : _ ∧ 0 ∉ Reply.idOf header => h.2 hzero]
        · rw [if_neg hzero, if_pos ⟨hreaches, hzero⟩]
      · rw [if_neg hreaches, if_neg fun h => hreaches h.1]
        rfl

/-- A session that is the one of the reply and stays on a line does what it is for. -/
theorem session_read_iff (reply : Reply) (sessionSize : Nat) (out : List UInt8) :
    SessionRead reply sessionSize out ↔
      out = reply.session sessionSize ∧ OnOneLine (reply.session sessionSize) := by
  constructor
  · exact fun h => ⟨h.value, h.value ▸ h.line⟩
  · rintro ⟨rfl, hline⟩
    exact ⟨rfl, hline, fun url cseq hurl => record_one_session hurl cseq hline⟩

/-- What is taken is what is up to the stop exactly when the search stops in time. -/
theorem taken_iff {header : List UInt8} {after : List (List UInt8)} {sessionSize : Nat} :
    (taken header (headerText after)).take (sessionSize - 1) =
        (Reply.idOf header).take (sessionSize - 1) ↔
      0x3b ∈ Reply.valueOf header ∨ 0x3b ∉ cString (headerText after) ∨
        sessionSize - 1 ≤ (Reply.valueOf header).length := by
  unfold taken
  by_cases hcolon : 0x3b ∈ Reply.valueOf header
  · rw [if_pos hcolon]
    exact iff_of_true rfl (.inl hcolon)
  have hwhole : Reply.idOf header = Reply.valueOf header := id_whole hcolon
  rw [if_neg hcolon, hwhole]
  by_cases hlater : 0x3b ∈ cString (headerText after)
  · rw [if_pos hlater, List.append_assoc]
    constructor
    · intro heq
      have hlength := congrArg List.length heq
      have htwo : crlf.length = 2 := rfl
      simp only [List.length_take, List.length_append, htwo] at hlength
      exact .inr (.inr (by omega))
    · rintro (hin | hclear | hlong)
      · exact absurd hin hcolon
      · exact absurd hlater hclear
      · rw [List.take_append_of_le_length hlong]
  · rw [if_neg hlater]
    exact iff_of_true rfl (.inr (.inl hlater))

/-- The session is the one of the reply exactly when the search stops in time. -/
theorem session_out_iff (reply : Reply) (sessionSize : Nat) :
    (sessionOut (cString reply.block) sessionSize = reply.session sessionSize ∧
      OnOneLine (reply.session sessionSize)) ↔ StopsOnLine reply sessionSize := by
  obtain ⟨hnone, hout⟩ | ⟨before, header, after, hsplit, hbefore, hsession, hfind, hout⟩ :=
    session_out_block reply sessionSize
  · have hdrop : reply.headers.dropWhile (fun header => !isSession header) = [] := by
      rw [List.dropWhile_eq_nil_iff]
      simpa using List.find?_eq_none.mp hnone
    rw [hout, Reply.session, hnone, StopsOnLine, hdrop]
    exact iff_of_true ⟨rfl, fun byte hbyte => absurd hbyte List.not_mem_nil⟩ trivial
  have hother : ∀ other ∈ before, (!isSession other) = true := by simpa using hbefore
  have hdrop : reply.headers.dropWhile (fun header => !isSession header) = header :: after := by
    rw [hsplit, List.dropWhile_append_of_pos hother,
      List.dropWhile_cons_of_neg (by simp [hsession])]
  have htake : reply.headers.takeWhile (fun header => !isSession header) = before := by
    rw [hsplit, List.takeWhile_append_of_pos hother,
      List.takeWhile_cons_of_neg (by simp [hsession]), List.append_nil]
  rw [hout, Reply.session, hfind, StopsOnLine, hdrop, htake]
  dsimp only
  by_cases hsize : sessionSize ≤ 1
  · have hnothing : sessionSize - 1 = 0 := by omega
    rw [hnothing, List.take_zero, List.take_zero, ite_self]
    exact iff_of_true ⟨rfl, fun byte hbyte => absurd hbyte List.not_mem_nil⟩ (.inl hsize)
  rw [or_iff_right hsize]
  have hempty : [] = (Reply.idOf header).take (sessionSize - 1) ↔ Reply.idOf header = [] := by
    rw [eq_comm, List.take_eq_nil_iff]
    exact or_iff_right (by omega)
  by_cases hreaches : Reaches reply.status before
  · rw [if_pos hreaches, StopsInTime]
    by_cases hzero : 0 ∈ Reply.idOf header
    · rw [if_neg fun h : _ ∧ 0 ∉ Reply.idOf header => h.2 hzero, hempty]
      refine iff_of_false ?_ fun h => h.1 hzero
      rintro ⟨hnil, -⟩
      rw [hnil] at hzero
      exact absurd hzero List.not_mem_nil
    · rw [if_pos ⟨hreaches, hzero⟩, taken_iff]
      tauto
  · rw [if_neg hreaches, if_neg fun h => hreaches h.1, hempty]
    refine ⟨And.left, fun hnil => ⟨hnil, ?_⟩⟩
    rw [hnil, List.take_nil]
    exact fun byte hbyte => absurd hbyte List.not_mem_nil

theorem read_block_from {block : List UInt8} (hfits : block.length < 1024)
    (hends : crlf ++ crlf <:+ block)
    (hlast : ∀ front back, block = front ++ back → crlf ++ crlf <:+ front → back = [])
    (more : List UInt8) {buf stream : List UInt8} (hblock : block = buf ++ stream)
    (hsome : stream ≠ []) : readBlock buf (stream ++ more) = some (block, more) := by
  induction stream generalizing buf with
  | nil => exact absurd rfl hsome
  | cons byte rest ih =>
      have hnext : block = buf ++ [byte] ++ rest := by simpa using hblock
      have hlength := congrArg List.length hblock
      rw [List.length_append, List.length_cons] at hlength
      rw [List.cons_append, readBlock, if_neg (by omega)]
      by_cases hend : crlf ++ crlf <:+ buf ++ [byte]
      · have hrest := hlast _ _ hnext hend
        subst hrest
        rw [if_pos (List.isSuffixOf_iff_suffix.mpr hend), hnext, List.append_nil, List.nil_append]
      · rw [if_neg (by rwa [List.isSuffixOf_iff_suffix])]
        refine ih hnext ?_
        rintro rfl
        rw [List.append_nil] at hnext
        exact hend (hnext ▸ hends)

/-- The loop reads the header block. -/
theorem read_block_reply (reply : Reply) (hfits : reply.block.length < 1024) (more : List UInt8) :
    readBlock [] (reply.block ++ more) = some (reply.block, more) := by
  refine read_block_from hfits ?_ ?_ more rfl ?_
  · rw [Reply.block]
    cases hheaders : reply.headers using List.reverseRecOn with
    | nil => exact ⟨reply.status, by simp⟩
    | append_singleton headers header =>
        exact ⟨reply.status ++ crlf ++ headers.flatMap (· ++ crlf) ++ header, by simp⟩
  · rintro front back hsplit ⟨before, rfl⟩
    have hlines : [reply.status] ++ (reply.headers ++ [[], []]) =
        crlfLines before ++ [] :: crlfLines back := by
      have hblock : reply.status ++ crlf ++ headerText reply.headers =
          before ++ crlf ++ (crlf ++ back) := by
        rw [← reply.block_eq, hsplit,
          ← List.append_assoc before, List.append_assoc (before ++ crlf)]
      have heq := congrArg crlfLines hblock
      rwa [crlf_lines_append, crlf_lines_line reply.statusLine,
        crlf_lines_headers reply.headerLines, crlf_lines_append] at heq
    obtain ⟨first, front, hfront⟩ := List.exists_cons_of_ne_nil (crlf_lines_ne_nil before)
    rw [hfront] at hlines
    exact crlf_lines_empty
      (empty_line_last (fun header hheader => (reply.headerLines header hheader).2)
      (crlf_lines_ne_nil back) (List.cons.inj hlines).2)
  · simp [Reply.block, crlf]

/-- A reply whose header block fits the buffer is read to its session exactly when the search comes
to its session header and stops on the line of it. -/
theorem session_iff (overflow : Int → Int32) (reply : Reply) {sessionSize : Nat} {status : Int32}
    (hfits : reply.block.length < 1024)
    (hstatus : scanStatus overflow (cString reply.block) = some status) (more : List UInt8) :
    (∃ out, rtspReadReply overflow (reply.block ++ more) sessionSize = some (status, out) ∧
      SessionRead reply sessionSize out) ↔ StopsOnLine reply sessionSize := by
  have hread : rtspReadReply overflow (reply.block ++ more) sessionSize =
      some (status, sessionOut (cString reply.block) sessionSize) := by
    rw [rtspReadReply, read_block_reply reply hfits more]
    simp only [Option.bind_eq_bind, Option.bind_some, hstatus]
    rfl
  simp only [hread, session_read_iff, Option.some.injEq, Prod.mk.injEq, true_and,
    exists_eq_left', ← session_out_iff]

/-- A reply that names the session and how long it lasts. -/
def timedReply : Reply :=
  ⟨bytesOf "RTSP/1.0 200 OK", [bytesOf "CSeq: 2", bytesOf "Session: 1234;timeout=60"], by decide,
    by decide⟩

theorem session_iff_timed :
    ∃ out, rtspReadReply (fun _ => -1) (timedReply.block ++ [0x24]) 80 = some (200, out) ∧
      SessionRead timedReply 80 out := by
  refine (session_iff (fun _ => -1) timedReply (by decide) (by decide) [0x24]).mpr (.inr ?_)
  decide

/-- A reply with a semicolon in a header after the session. -/
def laterReply : Reply :=
  ⟨bytesOf "RTSP/1.0 200 OK", [bytesOf "Session: 1", bytesOf "Transport: RTP/AVP/TCP;unicast"],
    by decide, by decide⟩

/-- The session goes on into the next header. -/
theorem session_runs_on :
    laterReply.block.length < 1024 ∧ laterReply.session 80 = bytesOf "1" ∧
      rtspReadReply (fun _ => -1) laterReply.block 80 =
        some (200, bytesOf "1\r\nTransport: RTP/AVP/TCP") := by
  refine ⟨by decide, by decide, ?_⟩
  decide +kernel

end NanoKvm.Bridge
