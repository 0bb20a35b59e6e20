import Mathlib.Data.List.Induction
import NanoKvm.Text.Numerals

/-!
# The boot arguments over short commands

`bootm_handoff_commands` of `usb_boot_mainline.py`: the kernel command line goes to U-Boot in
quoted pieces that each fit a fastboot command. `setenv` and the double quotes of U-Boot are
modelled as far as the commands use them. `handoff_sets_bootargs`: the commands are short, and
after them `bootargs` is the given line.
-/

namespace NanoKvm.Boot

/-- The length of a text in UTF-8. -/
def encodedLength (text : List Char) : Nat := (Text.utf8Bytes text).length

/-- The characters that a backslash keeps in double quotes. -/
def isSpecial (char : Char) : Bool := ['\\', '"', '$', '`'].contains char

/-- A character in double quotes. -/
def escaped (char : Char) : List Char := if isSpecial char then ['\\', char] else [char]

/-- The part of every piece before its characters. -/
def opening : List Char := "setenv bootargs \"$\x7bbootargs\x7d".toList

/-- The command of a piece. -/
def piece (chunk : List Char) : List Char := opening ++ chunk ++ ['"']

/-- What is sent for a command. -/
def oemRun (command : List Char) : List Char := "oem run:".toList ++ command

/-- The loop over the characters: the commands so far and the open chunk. -/
def chunkStep (state : List (List Char) × List Char) (char : Char) : List (List Char) × List Char :=
  let (commands, chunk) := state
  if encodedLength (oemRun (opening ++ chunk ++ escaped char ++ ['"'])) > 64 then
    (commands ++ [piece chunk], escaped char)
  else (commands, chunk ++ escaped char)

/-- The commands that set `bootargs`. -/
def bootargsCommands (bootargs : List Char) : List (List Char) :=
  let (commands, chunk) := bootargs.foldl chunkStep (["setenv bootargs".toList], [])
  if chunk = [] then commands else commands ++ [piece chunk]

/-- `bootm_handoff_commands`; a line that is refused raises. -/
def bootmHandoffCommands (bootargs : Option (List Char)) (softDisconnect : Bool) :
    Option (List (List Char) × List Char) :=
  let limits := ["setenv fdt_high 0xffffffff".toList, "setenv initrd_high 0xffffffff".toList]
  let handoff := if softDisconnect then "mw.l 4340804 2; sleep 1; ".toList else []
  let bootm := handoff ++ "bootm 82000000".toList
  match bootargs with
  | none => some (limits, bootm)
  | some line =>
      if line.any fun char => ['\x00', '\r', '\n'].contains char then none
      else some (bootargsCommands line ++ limits, bootm)

/-! ## U-Boot -/

/-- The variables that are set. -/
abbrev Environment := List Char → Option (List Char)

/-- The value of a variable; one that is not set is empty. -/
def Environment.value (env : Environment) (name : List Char) : List Char := (env name).getD []

def Environment.set (env : Environment) (name : List Char) (value : Option (List Char)) :
    Environment := fun other => if other = name then value else env other

/-- The text of a double-quoted word up to its closing quote, which ends the command. -/
def unquote (bootargs : List Char) : List Char → Option (List Char)
  | [] => none
  | ['"'] => some []
  | '"' :: _ => none
  | '\\' :: char :: rest =>
      if isSpecial char then (unquote bootargs rest).map (char :: ·)
      else (unquote bootargs (char :: rest)).map ('\\' :: ·)
  | '$' :: '{' :: 'b' :: 'o' :: 'o' :: 't' :: 'a' :: 'r' :: 'g' :: 's' :: '}' :: rest =>
      (unquote bootargs rest).map (bootargs ++ ·)
  | char :: rest => (unquote bootargs rest).map (char :: ·)

/-- A command: `setenv` of a quoted word, of a plain one or of none; the others leave the
variables as they are. -/
def execute (env : Environment) (command : List Char) : Option Environment :=
  if "setenv ".toList.isPrefixOf command then
    let name := (command.drop 7).takeWhile (· ≠ ' ')
    match (command.drop 7).dropWhile (· ≠ ' ') with
    | [] => some (env.set name none)
    | _ :: '"' :: body => (unquote (env.value "bootargs".toList) body).map fun word =>
        env.set name (some word)
    | _ :: word => some (env.set name (some word))
  else some env

/-- The commands in order. -/
def executeAll (env : Environment) (commands : List (List Char)) : Option Environment :=
  commands.foldlM execute env

/-! ## Lengths -/

theorem encoded_length_append (text other : List Char) :
    encodedLength (text ++ other) = encodedLength text + encodedLength other := by
  simp [encodedLength, Text.utf8Bytes]

theorem utf8_encode_length (char : Char) : (String.utf8EncodeChar char).length ≤ 4 := by
  rw [String.length_utf8EncodeChar]
  exact Char.utf8Size_le_four char

theorem escaped_length (char : Char) : encodedLength (escaped char) ≤ 4 := by
  unfold escaped
  split
  · rename_i hspecial
    have hall : ∀ c ∈ ['\\', '"', '$', '`'], encodedLength ['\\', c] ≤ 4 := by
      simp only [List.forall_mem_cons, List.not_mem_nil, false_implies, implies_true]
      decide
    exact hall char (List.contains_iff_mem.mp hspecial)
  · simpa [encodedLength, Text.utf8Bytes] using utf8_encode_length char

theorem piece_length (chunk : List Char) :
    encodedLength (oemRun (piece chunk)) = 37 + encodedLength chunk := by
  have hstart : encodedLength "oem run:".toList = 8 := by decide
  have hopening : encodedLength opening = 28 := by decide
  have hquote : encodedLength ['"'] = 1 := by decide
  unfold oemRun piece
  rw [encoded_length_append, encoded_length_append, encoded_length_append, hstart, hopening, hquote]
  omega

/-! ## Pieces -/

theorem unquote_escaped (bootargs text : List Char) :
    unquote bootargs (text.flatMap escaped ++ ['"']) = some text := by
  induction text with
  | nil => rfl
  | cons char text ih =>
      rw [List.flatMap_cons, List.append_assoc, escaped]
      split
      · rename_i hspecial
        rw [List.cons_append, List.cons_append, List.nil_append, unquote, if_pos hspecial, ih]
        rfl
      · rename_i hplain
        have hother : ∀ c ∈ ['\\', '"', '$', '`'], char ≠ c := by
          rintro c hc rfl
          exact hplain (List.contains_iff_mem.mpr hc)
        rw [List.singleton_append, unquote, ih]
        · rfl
        · exact fun heq => absurd heq (hother '"' (by decide))
        · exact fun heq => absurd heq (hother '"' (by decide))
        · exact fun _ _ heq => absurd heq (hother '\\' (by decide))
        · exact fun _ heq => absurd heq (hother '$' (by decide))

/-- A piece appends its characters to the value. -/
theorem execute_piece (env : Environment) (text : List Char) :
    execute env (piece (text.flatMap escaped)) =
      some (env.set "bootargs".toList (some (env.value "bootargs".toList ++ text))) := by
  have hpiece : piece (text.flatMap escaped) = "setenv bootargs \"".toList ++
      ("$\x7bbootargs\x7d".toList ++ (text.flatMap escaped ++ ['"'])) := by
    have hopening : opening = "setenv bootargs \"".toList ++ "$\x7bbootargs\x7d".toList := by decide
    rw [piece, hopening, List.append_assoc, List.append_assoc]
  have hbody : unquote (env.value "bootargs".toList)
      ("$\x7bbootargs\x7d".toList ++ (text.flatMap escaped ++ ['"'])) =
        some (env.value "bootargs".toList ++ text) := by
    have hvalue : unquote (env.value "bootargs".toList)
        ("$\x7bbootargs\x7d".toList ++ (text.flatMap escaped ++ ['"'])) =
          (unquote (env.value "bootargs".toList) (text.flatMap escaped ++ ['"'])).map
            (env.value "bootargs".toList ++ ·) := rfl
    rw [hvalue, unquote_escaped]
    rfl
  rw [hpiece]
  generalize "$\x7bbootargs\x7d".toList ++ (text.flatMap escaped ++ ['"']) = body at hbody ⊢
  have hexecute : execute env ("setenv bootargs \"".toList ++ body) =
      (unquote (env.value "bootargs".toList) body).map fun word =>
        env.set "bootargs".toList (some word) := by
    rfl
  rw [hexecute, hbody]
  rfl

theorem set_value (env : Environment) (name : List Char) (value : Option (List Char)) :
    (env.set name value).value name = value.getD [] := by
  simp [Environment.value, Environment.set]

theorem execute_all_append (env : Environment) (commands others : List (List Char)) :
    executeAll env (commands ++ others) =
      (executeAll env commands).bind fun env => executeAll env others := by
  rw [executeAll, List.foldlM_append]
  rfl

/-- The commands so far and the chunk after some characters. -/
structure Chunked (env : Environment) (taken : List Char)
    (state : List (List Char) × List Char) : Prop where
  short : ∀ command ∈ state.1, encodedLength (oemRun command) ≤ 64
  fits : encodedLength (oemRun (piece state.2)) ≤ 64
  sets : ∃ before pending env', taken = before ++ pending ∧ state.2 = pending.flatMap escaped ∧
    executeAll env state.1 = some env' ∧ env'.value "bootargs".toList = before

theorem chunked_start (env : Environment) :
    Chunked env [] (["setenv bootargs".toList], []) where
  short := by decide
  fits := by decide
  sets := ⟨[], [], env.set "bootargs".toList none, rfl, rfl, rfl, set_value _ _ _⟩

theorem Chunked.step {env : Environment} {taken : List Char} {state : List (List Char) × List Char}
    (h : Chunked env taken state) (char : Char) :
    Chunked env (taken ++ [char]) (chunkStep state char) := by
  obtain ⟨commands, chunk⟩ := state
  obtain ⟨before, pending, env', rfl, hchunk, hrun, hvalue⟩ := h.sets
  have hsingle : escaped char = [char].flatMap escaped := by simp
  have hlength : encodedLength (oemRun (opening ++ chunk ++ escaped char ++ ['"'])) =
      encodedLength (oemRun (piece (chunk ++ escaped char))) := by
    simp [piece]
  unfold chunkStep
  dsimp only
  rw [hlength]
  split
  · -- the chunk is sent and a new one begins
    refine ⟨?_, ?_, before ++ pending, [char],
      env'.set "bootargs".toList (some (before ++ pending)), rfl, hsingle, ?_, set_value _ _ _⟩
    · intro command hmem
      obtain hearlier | hpiece := List.mem_append.mp hmem
      · exact h.short command hearlier
      · rw [List.mem_singleton.mp hpiece]
        exact h.fits
    · have hescaped := escaped_length char
      rw [piece_length]
      dsimp only
      omega
    · dsimp only at hrun hchunk ⊢
      rw [execute_all_append, hrun, Option.bind_some, hchunk, executeAll, List.foldlM_cons,
        execute_piece, hvalue]
      rfl
  · rename_i hfits
    refine ⟨h.short, Nat.le_of_not_gt hfits, before, pending ++ [char], env', by simp, ?_, hrun,
      hvalue⟩
    dsimp only at hchunk ⊢
    rw [List.flatMap_append, hchunk, ← hsingle]

theorem chunked_line (env : Environment) (line : List Char) :
    Chunked env line (line.foldl chunkStep (["setenv bootargs".toList], [])) := by
  induction line using List.reverseRecOn with
  | nil => exact chunked_start env
  | append_singleton line char ih =>
      rw [List.foldl_append]
      exact ih.step char

/-- The commands for a line are short and leave `bootargs` at the line. -/
theorem bootargs_commands_set (env : Environment) (line : List Char) :
    (∀ command ∈ bootargsCommands line, encodedLength (oemRun command) ≤ 64) ∧
      ∃ env', executeAll env (bootargsCommands line) = some env' ∧
        env'.value "bootargs".toList = line := by
  have h := chunked_line env line
  unfold bootargsCommands
  generalize line.foldl chunkStep (["setenv bootargs".toList], []) = state at h ⊢
  obtain ⟨commands, chunk⟩ := state
  obtain ⟨before, pending, env', rfl, hchunk, hrun, hvalue⟩ := h.sets
  dsimp only at hchunk hrun ⊢
  split
  · rename_i hempty
    have hpending : pending = [] := by
      cases pending with
      | nil => rfl
      | cons char pending =>
          have hsome : escaped char ≠ [] := by
            unfold escaped
            split <;> simp
          rw [hchunk, List.flatMap_cons, List.append_eq_nil_iff] at hempty
          exact absurd hempty.1 hsome
    rw [hpending, List.append_nil]
    exact ⟨h.short, env', hrun, hvalue⟩
  · refine ⟨?_, env'.set "bootargs".toList (some (before ++ pending)), ?_, set_value _ _ _⟩
    · intro command hmem
      obtain hearlier | hpiece := List.mem_append.mp hmem
      · exact h.short command hearlier
      · rw [List.mem_singleton.mp hpiece]
        exact h.fits
    · rw [execute_all_append, hrun, Option.bind_some, hchunk, executeAll, List.foldlM_cons,
        execute_piece, hvalue]
      rfl

/-- A command that sets another variable leaves `bootargs`. -/
theorem limits_keep (env : Environment) :
    ∃ env', executeAll env ["setenv fdt_high 0xffffffff".toList,
        "setenv initrd_high 0xffffffff".toList] = some env' ∧
      env'.value "bootargs".toList = env.value "bootargs".toList := by
  refine ⟨(env.set "fdt_high".toList (some "0xffffffff".toList)).set "initrd_high".toList
    (some "0xffffffff".toList), rfl, ?_⟩
  rfl

/-- For a single line the commands are short, and after them U-Boot boots with that line. -/
theorem handoff_sets_bootargs {line : List Char}
    (hline : ∀ char ∈ line, char ≠ '\x00' ∧ char ≠ '\r' ∧ char ≠ '\n') (softDisconnect : Bool)
    (env : Environment) :
    ∃ commands bootm, bootmHandoffCommands (some line) softDisconnect = some (commands, bootm) ∧
      (∀ command ∈ commands ++ [bootm], encodedLength (oemRun command) ≤ 64) ∧
      ∃ env', executeAll env commands = some env' ∧ env'.value "bootargs".toList = line := by
  have hallowed : (line.any fun char => ['\x00', '\r', '\n'].contains char) = false := by
    rw [List.any_eq_false]
    intro char hchar hmem
    obtain ⟨hnul, hreturn, hnewline⟩ := hline char hchar
    simp [hnul, hreturn, hnewline] at hmem
  obtain ⟨hshort, env', hrun, hvalue⟩ := bootargs_commands_set env line
  obtain ⟨last, hlast, hkept⟩ := limits_keep env'
  have hlimits : ∀ command ∈ ["setenv fdt_high 0xffffffff".toList,
      "setenv initrd_high 0xffffffff".toList], encodedLength (oemRun command) ≤ 64 := by
    decide
  have hbootm : ∀ soft : Bool, encodedLength (oemRun
      ((if soft then "mw.l 4340804 2; sleep 1; ".toList else []) ++ "bootm 82000000".toList)) ≤ 64 := by
    decide
  unfold bootmHandoffCommands
  dsimp only
  rw [hallowed]
  refine ⟨_, _, rfl, ?_, last, ?_, hkept.trans hvalue⟩
  · intro command hmem
    obtain hcommand | hfinal := List.mem_append.mp hmem
    · obtain hset | hlimit := List.mem_append.mp hcommand
      · exact hshort command hset
      · exact hlimits command hlimit
    · rw [List.mem_singleton.mp hfinal]
      exact hbootm softDisconnect
  · rw [execute_all_append, hrun, Option.bind_some, hlast]

/-- A line with all four special characters, in three pieces over an earlier value. -/
theorem handoff_sets_bootargs_special :
    (bootargsCommands "console=ttyS0,115200 a=\"é $b\" `c` \\ root=/dev/ram0".toList).length = 4 ∧
    ∃ commands bootm,
      bootmHandoffCommands (some "console=ttyS0,115200 a=\"é $b\" `c` \\ root=/dev/ram0".toList)
        true = some (commands, bootm) ∧
      (∀ command ∈ commands ++ [bootm], encodedLength (oemRun command) ≤ 64) ∧
      ∃ env', executeAll (fun _ => some "old".toList) commands = some env' ∧
        env'.value "bootargs".toList =
          "console=ttyS0,115200 a=\"é $b\" `c` \\ root=/dev/ram0".toList :=
  ⟨by decide +kernel, handoff_sets_bootargs (by simp) true fun _ => some "old".toList⟩

end NanoKvm.Boot
