import NanoKvm.Boot.Publication
import NanoKvm.Exec.Parallel

/-!
# The snapshot of a boot

The firmware starts over the records of an earlier boot while Linux takes its snapshot.
`boot_snapshot`: a snapshot of the new generation has the manifest of this generation and a
running status whose words this boot has written.

The manifest is revoked before its body is replaced, but the status line is written over the
old one without being revoked. So this needs that the leftovers do not pass for the new
boot already: the earlier boot was not left running beside a manifest of the generation that
comes now.
-/

namespace NanoKvm.Boot

open Contract Exec Firmware

/-- One operation of either side. -/
abbrev BootStep :
    Pair FirmwareOp LinuxOp FirmwareOp.Ret LinuxOp.Ret Memory Unit
      ((Fin 16 → Word) × Except Linux.Errno Linux.ContractSnapshot) →
    Pair FirmwareOp LinuxOp FirmwareOp.Ret LinuxOp.Ret Memory Unit
      ((Fin 16 → Word) × Except Linux.Errno Linux.ContractSnapshot) → Prop :=
  ParallelStep Memory.FirmwarePerforms Memory.LinuxPerforms

/-- The generation of the boot that starts over the given status line. -/
def bootGeneration (contract : ResolvedContract) (previous : StatusWords) : UInt32 :=
  (initialStatus contract (Status.ofWords previous)).generation

/-- The leftovers could pass for a snapshot of the boot that starts over them. -/
def Mistakable (contract : ResolvedContract) (previous : StatusWords) (manifest : ManifestWords) :
    Prop :=
  previous stateIndex = stateRunning ∧
    Manifest.ofWords manifest =
      expectedManifest contract (bootGeneration contract previous) manifestCommit

instance (contract : ResolvedContract) (previous : StatusWords) (manifest : ManifestWords) :
    Decidable (Mistakable contract previous manifest) :=
  inferInstanceAs (Decidable (_ ∧ _))

/-! ## Who has written what -/

/-- Every word of the status line is of this boot. -/
def Booted (m : Memory) : Prop := ∀ index, (m.status index).fresh = true

/-- Until the first status of the boot is complete, the manifest is the leftover one and the
firmware does not run. -/
def Valid (previous : StatusWords) (manifest : ManifestWords) (m : Memory) : Prop :=
  Booted m ∨ m.manifest = manifest ∧ ((m.status stateIndex).value = previous stateIndex ∨
    (m.status stateIndex).value = stateBooting)

/-- What the firmware stores before its first status is complete. -/
def Allowed (m : Memory) : FirmwareOp → Prop
  | .storeStatus index word => Booted m ∨ (index = stateIndex → word = stateBooting)
  | .storeManifest _ _ => Booted m
  | _ => True

/-- The reader changes nothing. -/
def firmwareMachine : Machine FirmwareOp FirmwareOp.Ret Memory where
  perform := Memory.FirmwarePerforms
  interfere m next := next = m

/-- What the reader expects of the firmware. -/
def linuxMachine (previous : StatusWords) (manifest : ManifestWords) :
    Machine LinuxOp LinuxOp.Ret Memory where
  perform := Memory.LinuxPerforms
  interfere m next :=
    (Booted m → Booted next) ∧ (Valid previous manifest m → Valid previous manifest next)

section

variable {contract : ResolvedContract} {previous : StatusWords} {manifest : ManifestWords}
variable {m next : Memory}

theorem booted_store_status (h : Booted m) (index : Fin 16) (word : UInt32) :
    Booted (m.storeStatus index word) := by
  intro other
  by_cases heq : other = index
  · simp [Memory.storeStatus, heq]
  · simp [Memory.storeStatus, heq, h other]

/-- A complete status stays one of this boot. -/
theorem booted_firmware {operation : FirmwareOp} {result : operation.Ret} (h : Booted m)
    (hperform : m.FirmwarePerforms operation result next) : Booted next := by
  cases operation with
  | storeStatus index word =>
      rw [show next = m.storeStatus index word from hperform]
      exact booted_store_status h index word
  | storeManifest index word =>
      rw [show next = m.storeManifest index word from hperform]
      exact h
  | loadStatus index | loadManifest index | arrangeStatus words | arrangeManifest words =>
      rw [hperform.2]
      exact h
  | platformStart | nextStatus =>
      rw [show next = m from hperform]
      exact h

/-- The leftovers are seen as long as the first status is not complete. -/
theorem valid_firmware {operation : FirmwareOp} {result : operation.Ret}
    (h : Valid previous manifest m) (hallowed : Allowed m operation)
    (hperform : m.FirmwarePerforms operation result next) : Valid previous manifest next := by
  obtain hbooted | ⟨hmanifest, hstate⟩ := h
  · exact .inl (booted_firmware hbooted hperform)
  cases operation with
  | storeStatus index word =>
      obtain hbooted | hbooting := hallowed
      · exact .inl (booted_firmware hbooted hperform)
      rw [show next = m.storeStatus index word from hperform]
      refine .inr ⟨hmanifest, ?_⟩
      by_cases heq : stateIndex = index
      · right
        simp [Memory.storeStatus, ← heq, hbooting heq.symm]
      · simp only [Memory.storeStatus, Function.update_of_ne heq]
        exact hstate
  | storeManifest index word => exact .inl (booted_firmware hallowed hperform)
  | loadStatus index | loadManifest index | arrangeStatus words | arrangeManifest words =>
      rw [hperform.2]
      exact .inr ⟨hmanifest, hstate⟩
  | platformStart | nextStatus =>
      rw [show next = m from hperform]
      exact .inr ⟨hmanifest, hstate⟩

/-- The leftovers are valid. -/
theorem valid_left_behind : Valid previous manifest (leftBehind previous manifest) :=
  .inr ⟨rfl, .inl rfl⟩

/-- A running state is one of this boot unless the earlier one was left running. -/
theorem Valid.booted_of_running (h : Valid previous manifest m)
    (hprevious : previous stateIndex ≠ stateRunning)
    (hstate : (m.status stateIndex).value = stateRunning) : Booted m := by
  obtain hbooted | ⟨_, hleft | hbooting⟩ := h
  · exact hbooted
  · exact absurd (hleft.symm.trans hstate) hprevious
  · rw [hbooting] at hstate
    exact absurd hstate (by decide)

/-- A word that the leftover manifest does not have is one of this boot. -/
theorem Valid.booted_of_manifest (h : Valid previous manifest m) {index : Fin 32}
    (hword : m.manifest index ≠ manifest index) : Booted m := by
  obtain hbooted | ⟨hmanifest, _⟩ := h
  · exact hbooted
  · exact absurd (congrFun hmanifest index) hword

/-! ## The firmware -/

theorem firmware_stable (assertion : Memory → Prop) : firmwareMachine.Stable assertion := by
  intro m next hm hnext
  rw [show next = m from hnext]
  exact hm

/-- Once the first status is complete, the firmware may store what it wants. -/
theorem booted_runs {α : Type} (program : FirmwareCode α) (h : Booted m) :
    firmwareMachine.wp Allowed program (fun _ => Booted) m := by
  refine Machine.wp_only (firmware_stable Booted) ?_ ?_ (Prog.Only.any program) h
  · intro m operation hbooted _
    cases operation with
    | storeStatus index word => exact .inl hbooted
    | storeManifest index word => exact hbooted
    | _ => trivial
  · intro m operation result next hbooted _ hperform
    exact booted_firmware hbooted hperform

/-- The words of a booting status arrive. -/
theorem store_status_runs {words : StatusWords} (hwords : words stateIndex = stateBooting)
    (order : List (Fin 16)) (h : ∀ index, index ∈ order ∨ (m.status index).fresh = true) :
    firmwareMachine.wp Allowed (storeStatus words order) (fun _ => Booted) m := by
  induction order generalizing m with
  | nil =>
      refine Machine.wp_pure (firmware_stable Booted) ?_
      intro index
      exact (h index).resolve_left List.not_mem_nil
  | cons head rest ih =>
      refine Machine.wp_perform (firmware_stable (· = m)) rfl ?_ ?_
      · intro before _
        refine .inr fun hindex => ?_
        rw [hindex, hwords]
      · intro before _ next hbefore hnext
        rw [show next = before.storeStatus head (words head) from hnext, hbefore]
        refine ih fun index => ?_
        by_cases heq : index = head
        · right
          simp [Memory.storeStatus, heq]
        · simp only [Memory.storeStatus, Function.update_of_ne heq]
          exact (h index).imp_left fun hmem => (List.mem_cons.1 hmem).resolve_left heq

/-- The whole boot stores only what is allowed. -/
theorem rust_main_runs (turns : Nat) :
    firmwareMachine.wp Allowed (rustMain contract turns) (fun _ => Booted) m := by
  have hword : ∀ index state, firmwareMachine.wp Allowed (firmwareDo (.loadStatus index))
      (firmwareMachine.Seen (fun m : Memory => (m.status index).value) state) state := by
    intro index state
    exact Machine.wp_load (fun _ => trivial) fun before result next hnext => hnext
  have hload : firmwareMachine.wp Allowed loadStatus (fun _ _ => True) m := by
    refine Machine.wp_bind (Machine.wp_mono (Machine.wp_collect hword _ _) ?_)
    intro words after _
    exact Machine.wp_pure (firmware_stable _) trivial
  refine Machine.wp_bind (Machine.wp_mono hload ?_)
  intro loaded after _
  refine Machine.wp_bind (Machine.wp_mono ?_ fun _ _ hbooted => booted_runs _ hbooted)
  refine Machine.wp_perform (firmware_stable fun _ => True) trivial (fun _ _ => trivial) ?_
  intro before order next _ hnext
  refine store_status_runs rfl order fun index => .inl ?_
  exact (show order.Perm _ from hnext.1).mem_iff.2 (List.mem_finRange index)

/-! ## The reader -/

theorem linux_booted {after : Memory}
    (h : (linuxMachine previous manifest).Interferes m after) (hbooted : Booted m) :
    Booted after := by
  have hstable : (linuxMachine previous manifest).Stable Booted :=
    fun _ _ hm hnext => hnext.1 hm
  exact hstable.reachable hbooted h

theorem linux_valid {after : Memory}
    (h : (linuxMachine previous manifest).Interferes m after)
    (hvalid : Valid previous manifest m) : Valid previous manifest after := by
  have hstable : (linuxMachine previous manifest).Stable (Valid previous manifest) :=
    fun _ _ hm hnext => hnext.2 hm
  exact hstable.reachable hvalid h

/-- The reader leaves the memory alone. -/
theorem linux_keeps {operation : LinuxOp} {result : operation.Ret}
    (hperform : m.LinuxPerforms operation result next) : next = m := by
  cases operation with
  | loadStatus index | loadManifest index => exact hperform.2

/-- Every word of a copy of the status line was there at some moment of the copy. -/
theorem copy_status_runs :
    (linuxMachine previous manifest).wp (fun _ _ => True) copyStatus
      (fun words after => (linuxMachine previous manifest).Interferes m after ∧
        ∀ index, (linuxMachine previous manifest).Seen (·.status index) m (words index) after)
      m := by
  have hword : ∀ index state, (linuxMachine previous manifest).wp (fun _ _ => True)
      (linuxDo (.loadStatus index))
      ((linuxMachine previous manifest).Seen (fun m : Memory => m.status index) state) state := by
    intro index state
    exact Machine.wp_load (fun _ => trivial) fun before result next hnext => hnext
  refine Machine.wp_mono (Machine.wp_collect hword _ _) ?_
  intro words after hwords
  exact ⟨hwords.1, fun index => hwords.2.1 index (List.mem_finRange index)⟩

/-- Every word of a copy of the manifest was there at some moment of the copy. -/
theorem copy_manifest_runs :
    (linuxMachine previous manifest).wp (fun _ _ => True) copyManifest
      (fun words after => (linuxMachine previous manifest).Interferes m after ∧
        ∀ index, (linuxMachine previous manifest).Seen (·.manifest index) m (words index) after)
      m := by
  have hword : ∀ index state, (linuxMachine previous manifest).wp (fun _ _ => True)
      (linuxDo (.loadManifest index))
      ((linuxMachine previous manifest).Seen (fun m : Memory => m.manifest index) state) state := by
    intro index state
    exact Machine.wp_load (fun _ => trivial) fun before result next hnext => hnext
  refine Machine.wp_mono (Machine.wp_collect hword _ _) ?_
  intro words after hwords
  exact ⟨hwords.1, fun index => hwords.2.1 index (List.mem_finRange index)⟩

/-- The first status of this boot was complete before the second copy if the leftovers cannot pass
for the snapshot: either its state or its manifest is not the leftover one. -/
theorem booted_of_copies (hleftover : ¬ Mistakable contract previous manifest)
    {first second last : Memory} (hvalid : Valid previous manifest m)
    (hfirst : (linuxMachine previous manifest).Interferes m first)
    (hsecond : (linuxMachine previous manifest).Interferes second last)
    {before : Fin 16 → Word} {copied : ManifestWords}
    (hbefore : ∀ index,
      (linuxMachine previous manifest).Seen (·.status index) m (before index) first)
    (hcopied : ∀ index,
      (linuxMachine previous manifest).Seen (·.manifest index) first (copied index) second)
    (hstate : (before stateIndex).value = stateRunning)
    (hmanifest : Manifest.ofWords copied =
      expectedManifest contract (bootGeneration contract previous) manifestCommit) :
    Booted last := by
  apply linux_booted hsecond
  by_cases hprevious : previous stateIndex = stateRunning
  · -- The leftover status runs, so the manifest must have changed.
    have hchanged : copied ≠ manifest := by
      rintro rfl
      exact hleftover ⟨hprevious, hmanifest⟩
    obtain ⟨index, hindex⟩ := Function.ne_iff.1 hchanged
    obtain ⟨moment, hmoment, hafter, hword⟩ := hcopied index
    rw [hword] at hindex
    have hthen := linux_valid (hfirst.trans hmoment) hvalid
    exact linux_booted hafter (hthen.booted_of_manifest hindex)
  · obtain ⟨moment, hmoment, hafter, hword⟩ := hbefore stateIndex
    rw [hword] at hstate
    have hthen := linux_valid hmoment hvalid
    have hcopies : (linuxMachine previous manifest).Interferes first second := by
      obtain ⟨_, hone, htwo, _⟩ := hcopied commitIndex
      exact hone.trans htwo
    exact linux_booted (hafter.trans hcopies) (hthen.booted_of_running hprevious hstate)

/-- A snapshot of the new generation is one of the new boot. -/
theorem read_snapshot_runs (hleftover : ¬ Mistakable contract previous manifest)
    (hvalid : Valid previous manifest m) :
    (linuxMachine previous manifest).wp (fun _ _ => True) (readSnapshot contract)
      (fun result _ => ∀ snapshot, result.2 = .ok snapshot →
        snapshot.status.generation = bootGeneration contract previous →
        snapshot.manifest =
            expectedManifest contract (bootGeneration contract previous) manifestCommit ∧
          snapshot.status.state = stateRunning ∧ snapshot.status = statusOf result.1 ∧
          ∀ index, (result.1 index).fresh = true) m := by
  refine Machine.wp_bind (Machine.wp_mono copy_status_runs ?_)
  intro before atFirst hbefore
  refine Machine.wp_bind (Machine.wp_mono copy_manifest_runs ?_)
  intro first atSecond hfirst
  refine Machine.wp_bind (Machine.wp_mono copy_manifest_runs ?_)
  intro second atStatus hsecond
  refine Machine.wp_bind (Machine.wp_mono copy_status_runs ?_)
  intro status atEnd hstatus last _ snapshot hread hgeneration
  obtain ⟨_, hsame, hequal, _, _, _, _, hstate, hmatches, hsnapshot⟩ :=
    Linux.read_contract_snapshot_ok hread
  rw [hsnapshot] at hgeneration ⊢
  have hmanifest : Manifest.ofWords first =
      expectedManifest contract (bootGeneration contract previous) manifestCommit := by
    rw [← hgeneration, ← hequal]
    exact Linux.manifest_matches_expected hmatches
  have hbooted : Booted atStatus :=
    booted_of_copies hleftover hvalid hbefore.1 hsecond.1 hbefore.2 hfirst.2
      (by rw [← hsame] at hstate; exact hstate) hmanifest
  refine ⟨hmanifest, hstate, rfl, fun index => ?_⟩
  obtain ⟨moment, hmoment, _, hword⟩ := hstatus.2 index
  show (status index).fresh = true
  rw [hword]
  exact linux_booted hmoment hbooted index

end

/-! ## Whole publications -/

section

variable {contract : ResolvedContract} {m : Memory} {turns : Nat}
variable {reader : LinuxCode ((Fin 16 → Word) × Except Linux.Errno Linux.ContractSnapshot)}

/-- The memory once all words of a status are there. -/
def Memory.withStatus (m : Memory) (status : Status) : Memory :=
  { m with status := fun index => ⟨status.toWords index, true⟩ }

/-- The memory once all words of a manifest are there. -/
def Memory.withManifest (m : Memory) (manifest : Manifest) : Memory :=
  { m with manifest := manifest.toWords }

/-- A loaded status is the one in memory. -/
theorem run_load_status (rest : Status → FirmwareCode Unit) :
    Relation.ReflTransGen BootStep (loadStatus >>= rest, reader, m)
      (rest (statusOf m.status), reader, m) := by
  rw [loadStatus, Prog.bind_assoc]
  refine Machine.run_collect (fun program => (program, reader, m)) ?_ _ _ ?_
  · intro index rest
    exact run_left _ ⟨rfl, rfl⟩ .refl
  · intro index hindex
    exact absurd (List.mem_finRange index) hindex

/-- A loaded manifest is the one in memory. -/
theorem run_load_manifest (rest : Manifest → FirmwareCode Unit) :
    Relation.ReflTransGen BootStep (loadManifest >>= rest, reader, m)
      (rest (Manifest.ofWords m.manifest), reader, m) := by
  rw [loadManifest, Prog.bind_assoc]
  refine Machine.run_collect (fun program => (program, reader, m)) ?_ _ _ ?_
  · intro index rest
    exact run_left _ ⟨rfl, rfl⟩ .refl
  · intro index hindex
    exact absurd (List.mem_finRange index) hindex

/-- The words of a status arrive, after those that are there already. -/
theorem run_store_status {status : Status} {order : List (Fin 16)}
    (h : ∀ index, index ∉ order → m.status index = ⟨status.toWords index, true⟩)
    (rest : Unit → FirmwareCode Unit) :
    Relation.ReflTransGen BootStep (storeStatus status.toWords order >>= rest, reader, m)
      (rest (), reader, m.withStatus status) := by
  induction order generalizing m with
  | nil =>
      have hall : m.withStatus status = m := by
        have hwords : m.status = fun index => ⟨status.toWords index, true⟩ :=
          funext fun index => h index List.not_mem_nil
        rw [Memory.withStatus, ← hwords]
      rw [hall]
      exact .refl
  | cons head tail ih =>
      have htail : ∀ index, index ∉ tail →
          (m.storeStatus head (status.toWords head)).status index =
            ⟨status.toWords index, true⟩ := by
        intro index hindex
        by_cases heq : index = head
        · simp [Memory.storeStatus, heq]
        · simp only [Memory.storeStatus, Function.update_of_ne heq]
          exact h index (by simp [heq, hindex])
      exact run_left () rfl (ih htail)

/-- The words of a manifest arrive, after those that are there already. -/
theorem run_store_manifest {manifest : Manifest} {order : List (Fin 32)}
    (h : ∀ index, index ∉ order → m.manifest index = manifest.toWords index)
    (rest : Unit → FirmwareCode Unit) :
    Relation.ReflTransGen BootStep (storeManifest manifest.toWords order >>= rest, reader, m)
      (rest (), reader, m.withManifest manifest) := by
  induction order generalizing m with
  | nil =>
      have hall : m.withManifest manifest = m := by
        have hwords : m.manifest = manifest.toWords :=
          funext fun index => h index List.not_mem_nil
        rw [Memory.withManifest, ← hwords]
      rw [hall]
      exact .refl
  | cons head tail ih =>
      have htail : ∀ index, index ∉ tail →
          (m.storeManifest head (manifest.toWords head)).manifest index =
            manifest.toWords index := by
        intro index hindex
        by_cases heq : index = head
        · simp [Memory.storeManifest, heq]
        · simp only [Memory.storeManifest, Function.update_of_ne heq]
          exact h index (by simp [heq, hindex])
      exact run_left () rfl (ih htail)

/-- A publication puts the status in place. -/
theorem run_publish (status : Status) (rest : Unit → FirmwareCode Unit) :
    Relation.ReflTransGen BootStep (publish status >>= rest, reader, m)
      (rest (), reader, m.withStatus status) :=
  run_left (List.finRange 16) ⟨.refl _, rfl⟩
    (run_store_status (fun index hindex => absurd (List.mem_finRange index) hindex) rest)

/-- The commit completes the words of a manifest. -/
theorem store_commit (generation : UInt32) :
    (m.withManifest (expectedManifest contract generation 0)).storeManifest commitIndex
        manifestCommit =
      m.withManifest (expectedManifest contract generation manifestCommit) := by
  have hwords : Function.update (expectedManifest contract generation 0).toWords commitIndex
      manifestCommit = (expectedManifest contract generation manifestCommit).toWords := by
    funext index
    by_cases heq : index = commitIndex
    · rw [heq, Function.update_self]
      rfl
    · have hne : index.val ≠ 31 := fun hval => heq (Fin.ext hval)
      have hlast : index.val < 31 := by omega
      rw [Function.update_of_ne heq]
      simp only [Manifest.toWords, hlast]
      rfl
  rw [Memory.storeManifest]
  dsimp only [Memory.withManifest]
  rw [hwords]

/-- The manifest is published. -/
theorem run_publish_manifest (generation : UInt32) (rest : Bool → FirmwareCode Unit) :
    Relation.ReflTransGen BootStep (publishManifest contract generation >>= rest, reader, m)
      (rest true, reader,
        m.withManifest (expectedManifest contract generation manifestCommit)) := by
  simp only [publishManifest, Prog.bind_assoc]
  refine run_left () rfl (run_left (List.finRange 32) ⟨.refl _, rfl⟩ ?_)
  refine (run_store_manifest
    (fun index hindex => absurd (List.mem_finRange index) hindex) _).trans ?_
  refine run_left () rfl ((run_load_manifest _).trans ?_)
  have hmemory := @store_commit contract (m.storeManifest commitIndex 0) generation
  rw [hmemory]
  have hpublished : Manifest.ofWords ((m.storeManifest commitIndex 0).withManifest
      (expectedManifest contract generation manifestCommit)).manifest =
      expectedManifest contract generation manifestCommit := manifest_of_words _
  rw [hpublished, decide_eq_true rfl]
  exact .refl

/-- The boot over any leftovers, up to the first turn of the control task. -/
theorem run_rust_main (previous : StatusWords) (manifest : ManifestWords) :
    Relation.ReflTransGen BootStep
      (rustMain contract turns, reader, leftBehind previous manifest)
      (controlLoop turns, reader,
        ((leftBehind previous manifest).withManifest (expectedManifest contract
          (bootGeneration contract previous) manifestCommit)).withStatus
          (controlStart contract (initialStatus contract (Status.ofWords previous)))) := by
  refine (run_load_status _).trans ((run_publish _ _).trans ?_)
  refine (run_publish_manifest _ _).trans (run_left none rfl ?_)
  -- The control task loads the status that the boot has published.
  refine (run_load_status _).trans ((run_publish _ _).trans ?_)
  have hloaded : ∀ (m : Memory) status manifest,
      statusOf ((m.withStatus status).withManifest manifest).status = status :=
    fun m status manifest => status_of_words status
  rw [hloaded]
  exact .refl

/-- The boot over any leftovers, up to the first word of its status. -/
theorem run_first_word (previous : StatusWords) (manifest : ManifestWords) :
    ∃ firmware, Relation.ReflTransGen BootStep
      (rustMain contract turns, reader, leftBehind previous manifest)
      (firmware, reader, (leftBehind previous manifest).storeStatus 0 shmemMagic) := by
  have horder : (0 :: (List.finRange 15).map Fin.succ).Perm (List.finRange 16) := by
    rw [← List.finRange_succ]
  exact ⟨_, (run_load_status _).trans (run_left (0 :: (List.finRange 15).map Fin.succ)
    ⟨horder, rfl⟩ (run_left () rfl .refl))⟩

/-- The snapshot of a memory that does not change, with a running status and the manifest of its
generation. -/
theorem run_read_snapshot (firmware : FirmwareCode Unit) {status : Status}
    (hstatus : statusOf m.status = status) (hmagic : status.magic = shmemMagic)
    (hmajor : status.abiMajor = abiMajor) (hminor : status.abiMinor = abiMinor)
    (hsize : status.structSize = statusSize) (hstate : status.state = stateRunning)
    (hmanifest : Manifest.ofWords m.manifest =
      expectedManifest contract status.generation manifestCommit) :
    Relation.ReflTransGen BootStep (firmware, readSnapshot contract, m)
      (firmware, .pure (m.status, .ok ⟨status,
        expectedManifest contract status.generation manifestCommit⟩), m) := by
  have hcopy : ∀ rest : (Fin 16 → Word) → LinuxCode _,
      Relation.ReflTransGen BootStep (firmware, copyStatus >>= rest, m)
        (firmware, rest m.status, m) := by
    intro rest
    refine Machine.run_collect (fun program => (firmware, program, m)) ?_ _ _ ?_
    · intro index rest
      exact run_right _ ⟨rfl, rfl⟩ .refl
    · intro index hindex
      exact absurd (List.mem_finRange index) hindex
  have hmanifestCopy : ∀ rest : ManifestWords → LinuxCode _,
      Relation.ReflTransGen BootStep (firmware, copyManifest >>= rest, m)
        (firmware, rest m.manifest, m) := by
    intro rest
    refine Machine.run_collect (fun program => (firmware, program, m)) ?_ _ _ ?_
    · intro index rest
      exact run_right _ ⟨rfl, rfl⟩ .refl
    · intro index hindex
      exact absurd (List.mem_finRange index) hindex
  refine (hcopy _).trans ((hmanifestCopy _).trans ((hmanifestCopy _).trans ((hcopy _).trans ?_)))
  rw [hstatus, hmanifest,
    Linux.read_contract_snapshot_expected hmagic hmajor hminor hsize hstate]
  exact .refl

end

/-- In every interleaving of the boot and the reader, over all leftovers that cannot pass for the
new boot already: a snapshot with the generation of this boot has exactly the committed manifest of
this generation, and its status runs and consists of words that this boot has written. -/
theorem boot_snapshot {contract : ResolvedContract} {previous : StatusWords}
    {manifest : ManifestWords}
    {turns : Nat} {firmware : FirmwareCode Unit} {words : Fin 16 → Word}
    {snapshot : Linux.ContractSnapshot} {m : Memory}
    (hleftover : ¬ Mistakable contract previous manifest)
    (hrun : Relation.ReflTransGen BootStep
      (rustMain contract turns, readSnapshot contract, leftBehind previous manifest)
      (firmware, .pure (words, .ok snapshot), m))
    (hgeneration : snapshot.status.generation = bootGeneration contract previous) :
    snapshot.manifest =
        expectedManifest contract (bootGeneration contract previous) manifestCommit ∧
      snapshot.status.state = stateRunning ∧ snapshot.status = statusOf words ∧
      ∀ index, (words index).fresh = true := by
  obtain ⟨_, _, hreader⟩ := parallel_run firmwareMachine (linuxMachine previous manifest)
    (fun state operation result next hallowed hperform =>
      ⟨⟨fun hbooted => booted_firmware hbooted hperform,
        fun hvalid => valid_firmware hvalid hallowed hperform⟩, fun _ => trivial⟩)
    (fun state operation result next _ hperform =>
      ⟨linux_keeps hperform, fun _ => trivial⟩)
    trivial (rust_main_runs turns) (read_snapshot_runs hleftover valid_left_behind) hrun
  exact Machine.wp_result hreader snapshot rfl hgeneration

/-- The first boot after the power came on, up to its first turn. -/
theorem boot_snapshot_cold :
    ∃ words snapshot m,
      Relation.ReflTransGen BootStep
        (rustMain picoclawContract 0, readSnapshot picoclawContract,
          leftBehind (fun _ => 0) (fun _ => 0))
        (controlLoop 0, .pure (words, .ok snapshot), m) ∧
      snapshot.status.generation = 1 ∧
      snapshot.manifest = expectedManifest picoclawContract 1 manifestCommit ∧
      snapshot.status.state = stateRunning ∧ ∀ index, (words index).fresh = true := by
  have hread := @run_read_snapshot picoclawContract
    (((leftBehind (fun _ => 0) fun _ => 0).withManifest
      (expectedManifest picoclawContract 1 manifestCommit)).withStatus
        (controlStart picoclawContract (initialStatus picoclawContract (Status.ofWords fun _ => 0))))
    (controlLoop 0) _ (status_of_words _) rfl rfl rfl rfl rfl (manifest_of_words _)
  have hrun := (run_rust_main (fun _ => 0) fun _ => 0).trans hread
  have hleftover : ¬ Mistakable picoclawContract (fun _ => 0) fun _ => 0 := by decide
  obtain ⟨hmanifest, hstate, _, hfresh⟩ := boot_snapshot hleftover hrun rfl
  exact ⟨_, _, _, hrun, rfl, hmanifest, hstate, hfresh⟩

/-- The status of a first boot that was left running, without its first word. -/
def damagedStatus : StatusWords :=
  { controlStart picoclawContract (initialStatus picoclawContract zeroStatus) with
    magic := 0 }.toWords

/-- The firmware takes the damaged line for no record and starts with generation 1 again. Once the
first word of its status is in memory, the old status and the old manifest make a snapshot of
generation 1, whose state this boot has not written. -/
theorem leftover_snapshot :
    ∃ firmware words snapshot m,
      Relation.ReflTransGen BootStep
        (rustMain picoclawContract 0, readSnapshot picoclawContract,
          leftBehind damagedStatus (expectedManifest picoclawContract 1 manifestCommit).toWords)
        (firmware, .pure (words, .ok snapshot), m) ∧
      snapshot.status.generation = bootGeneration picoclawContract damagedStatus ∧
      (words stateIndex).fresh = false := by
  obtain ⟨firmware, hfirst⟩ := @run_first_word picoclawContract 0
    (readSnapshot picoclawContract) damagedStatus
    (expectedManifest picoclawContract 1 manifestCommit).toWords
  have hread := @run_read_snapshot picoclawContract
    ((leftBehind damagedStatus (expectedManifest picoclawContract 1 manifestCommit).toWords
      ).storeStatus 0 shmemMagic)
    firmware _ rfl rfl rfl rfl rfl rfl (manifest_of_words _)
  exact ⟨firmware, _, _, _, hfirst.trans hread, rfl, rfl⟩

end NanoKvm.Boot
