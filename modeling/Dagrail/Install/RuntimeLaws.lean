import Dagrail.Install.RuntimeSteps

/-!
# The way back of a runtime

In every run the receipt that can be read names only a previous runtime whose backup is there. A
call that fails leaves the destination and the receipt as they were, unless a step behind a
replacement fails. A retried upgrade keeps the runtime it replaces, if it does not find the new
runtime at the destination with a receipt that does not name both.
-/

namespace Dagrail

namespace Install

section Laws

variable {Binary : Type} {binaries : Binaries Binary}

/-! ### What a call does -/

/-- A receipt is read when it can be. -/
theorem readRuntimeReceipt_eq_got
    {fault : Fault} {world : World Binary} {receipt : RuntimeReceipt} :
  readRuntimeReceipt binaries fault world = .got receipt
    ↔ fault = .none ∧ world.readable binaries = some receipt
  := by
  unfold readRuntimeReceipt World.readable Read.ofFile
  cases fault with
  | error => simp
  | crash => simp
  | none =>
      cases world.receipt with
      | none => simp
      | some file =>
          cases read : receiptOfFile binaries file with
          | none => simp [read]
          | some other => simp [read]

/-- The places that a receipt that can be read names. -/
theorem paths_of_readable
    {world : World Binary} {receipt : RuntimeReceipt}
    (readable : world.readable binaries = some receipt) :
  receipt.current.path = .destination
    ∧ ∀ previous, receipt.previous = some previous → previous.path = .backup previous.sha256
  := by
  obtain ⟨file, -, read⟩ := Option.bind_eq_some_iff.mp readable
  cases file with
  | other => cases read
  | legacy version sha256 =>
      simp only [receiptOfFile] at read
      split_ifs at read
      obtain rfl := Option.some.inj read
      exact ⟨rfl, fun _ none_ => absurd none_ (Option.some_ne_none _).symm⟩
  | receipt own =>
      simp only [receiptOfFile] at read
      split_ifs at read with valid
      obtain rfl := Option.some.inj read
      simp only [validReceipt, Bool.and_eq_true, decide_eq_true_eq] at valid
      refine ⟨valid.1.1.1.2, fun previous same => ?_⟩
      have shape := valid.1.2
      rw [same] at shape
      simp only [Option.all_some, Bool.and_eq_true, decide_eq_true_eq] at shape
      exact shape.2

/-- The artifact of a source. -/
def sourceArtifact (binaries : Binaries Binary) (source : Binary) (version : String) :
    RuntimeArtifact where
  version
  sha256 := binaries.digest source
  path := .destination

/-- The receipt of an installation of what is at the destination. -/
def noopReceipt (binaries : Binaries Binary) (faults : CallFaults) (source : Binary)
    (version : String) (world : World Binary) : RuntimeReceipt :=
  runtimeReceipt (sourceArtifact binaries source version)
    (keptPrevious (binaries.digest source)
      (readRuntimeReceipt binaries faults.receiptRead world))

/-- What an installation does. -/
inductive Installed (binaries : Binaries Binary) (faults : CallFaults) (source : Binary)
    (world : World Binary) (outcome : World Binary × Ended RuntimeResult) : Prop where
  | refused (files : outcome.1 = world) (failed : ∀ result, outcome.2 ≠ .ok result)
  | noop {version : String} {binary : Binary} (probed : binaries.probe source = some version)
      (there : world.destination = some binary)
      (same : binaries.digest binary = binaries.digest source)
      (files : outcome.1 = (writeRuntimeReceipt faults.receipt
        (noopReceipt binaries faults source version world) world).1)
      (error : ∀ message, outcome.2 = .error message → (writeRuntimeReceipt faults.receipt
        (noopReceipt binaries faults source version world) world).2 = .error message)
      (ok : ∀ result, outcome.2 = .ok result → (writeRuntimeReceipt faults.receipt
        (noopReceipt binaries faults source version world) world).2 = .ok ())
  | first {version : String} (probed : binaries.probe source = some version)
      (absent : world.destination = none)
      (outcome_eq : outcome = switchRuntime binaries faults (installTexts "installed")
        (some source) (sourceArtifact binaries source version) none world)
  | unstored {binary : Binary} {oldVersion : String} (there : world.destination = some binary)
      (probedOld : binaries.probe binary = some oldVersion)
      (files : outcome.1 = (storeRuntimeBackup binaries faults.backup
        (sourceArtifact binaries binary oldVersion) world).1)
      (failed : ∀ result, outcome.2 ≠ .ok result)
  | upgraded {version : String} {binary : Binary} {oldVersion : String} {backup : RuntimeArtifact}
      (probed : binaries.probe source = some version) (there : world.destination = some binary)
      (other : binaries.digest binary ≠ binaries.digest source)
      (probedOld : binaries.probe binary = some oldVersion)
      (stored : (storeRuntimeBackup binaries faults.backup
        (sourceArtifact binaries binary oldVersion) world).2 = .ok backup)
      (outcome_eq : outcome = switchRuntime binaries faults (installTexts "upgraded")
        (some source) (sourceArtifact binaries source version) (some backup)
        (storeRuntimeBackup binaries faults.backup
          (sourceArtifact binaries binary oldVersion) world).1)

/-- The receipt of what is at the destination ends the installation. -/
theorem Installed.of_receipt
    (faults : CallFaults) {source binary : Binary} {version : String} {world : World Binary}
    {receipt : RuntimeReceipt} (probed : binaries.probe source = some version)
    (there : world.destination = some binary)
    (same : binaries.digest binary = binaries.digest source)
    (own : receipt = noopReceipt binaries faults source version world) :
  Installed binaries faults source world
    (match writeRuntimeReceipt faults.receipt receipt world with
    | (world, written) =>
      match written with
      | .crash => (world, .crash)
      | .error message => (world, .error message)
      | .ok _ =>
          (world, .ok
            { status := "noop", current := receipt.current, previous := receipt.previous }))
  := by
  subst own
  cases written : writeRuntimeReceipt faults.receipt
      (noopReceipt binaries faults source version world) world with
  | mk world₁ ended =>
      cases ended with
      | crash => exact .noop probed there same (by rw [written]) (by simp) (by simp)
      | error text =>
          refine .noop probed there same (by rw [written]) ?_ (by simp)
          intro message failed
          rw [written]
          cases failed
          rfl
      | ok _ =>
          refine .noop probed there same (by rw [written]) (by simp) ?_
          intro result _
          rw [written]

theorem installRuntimeFrom_installed
    (binaries : Binaries Binary) (faults : CallFaults) (source : Binary) (world : World Binary) :
  Installed binaries faults source world (installRuntimeFrom binaries faults source world)
  := by
  unfold installRuntimeFrom
  cases probed : binaries.probe source with
  | none => exact .refused rfl (by simp)
  | some version =>
      simp only
      split_ifs with empty
      · exact .refused rfl (by simp)
      · cases readSource : fileSHA256 binaries faults.sourceDigest (some source) with
        | crashed => exact .refused rfl (by simp)
        | failed => exact .refused rfl (by simp)
        | absent => exact .refused rfl (by simp)
        | got sha256 =>
            obtain ⟨-, content, same, digest⟩ := Read.ofFile_eq_got.mp readSource
            obtain rfl := Option.some.inj same
            subst digest
            simp only
            cases readOld : fileSHA256 binaries faults.destinationDigest world.destination with
            | crashed => exact .refused rfl (by simp)
            | failed => exact .refused rfl (by simp)
            | absent =>
                exact .first probed (Read.ofFile_eq_absent.mp readOld).2 rfl
            | got old =>
                obtain ⟨-, binary, there, digest⟩ := Read.ofFile_eq_got.mp readOld
                subst digest
                simp only [there, Option.bind_some]
                cases probedOld : binaries.probe binary with
                | none => exact .refused rfl (by simp)
                | some oldVersion =>
                    simp only
                    split_ifs with same
                    · cases read : readRuntimeReceipt binaries faults.receiptRead world with
                      | crashed => exact .refused rfl (by simp)
                      | got receipt =>
                          apply Installed.of_receipt faults probed there same
                          rw [noopReceipt, read]
                          rfl
                      | absent =>
                          apply Installed.of_receipt faults probed there same
                          rw [noopReceipt, read]
                          rfl
                      | failed =>
                          apply Installed.of_receipt faults probed there same
                          rw [noopReceipt, read]
                          rfl
                    · have folded :
                          RuntimeArtifact.mk oldVersion (binaries.digest binary) .destination
                            = sourceArtifact binaries binary oldVersion := rfl
                      rw [folded]
                      cases stored : storeRuntimeBackup binaries faults.backup
                          (sourceArtifact binaries binary oldVersion) world with
                      | mk world₁ ended =>
                          cases ended with
                          | crash => exact .unstored there probedOld (by rw [stored]) (by simp)
                          | error text => exact .unstored there probedOld (by rw [stored]) (by simp)
                          | ok backup =>
                              refine .upgraded probed there same probedOld
                                (congrArg Prod.snd stored) ?_
                              rw [stored]
                              rfl

/-- What a rollback does. -/
inductive RolledBack (binaries : Binaries Binary) (faults : CallFaults) (world : World Binary)
    (outcome : World Binary × Ended RuntimeResult) : Prop where
  | refused (files : outcome.1 = world) (failed : ∀ result, outcome.2 ≠ .ok result)
  | unstored {receipt : RuntimeReceipt} (readable : world.readable binaries = some receipt)
      (current : IsArtifact binaries world.destination receipt.current.sha256
        receipt.current.version)
      (files : outcome.1 = (storeRuntimeBackup binaries faults.backup receipt.current world).1)
      (failed : ∀ result, outcome.2 ≠ .ok result)
  | switched {receipt : RuntimeReceipt} {previous backup : RuntimeArtifact}
      (readable : world.readable binaries = some receipt)
      (current : IsArtifact binaries world.destination receipt.current.sha256
        receipt.current.version)
      (named : receipt.previous = some previous)
      (old : IsArtifact binaries (world.backup previous.sha256) previous.sha256 previous.version)
      (stored : (storeRuntimeBackup binaries faults.backup receipt.current world).2 = .ok backup)
      (outcome_eq : outcome = switchRuntime binaries faults rollbackTexts
        ((storeRuntimeBackup binaries faults.backup receipt.current world).1.backup previous.sha256)
        { previous with path := .destination } (some backup)
        (storeRuntimeBackup binaries faults.backup receipt.current world).1)

theorem rollbackRuntime_rolledBack
    (binaries : Binaries Binary) (faults : CallFaults) (world : World Binary) :
  RolledBack binaries faults world (rollbackRuntime binaries faults world)
  := by
  unfold rollbackRuntime
  cases read : readRuntimeReceipt binaries faults.receiptRead world with
  | crashed => exact .refused rfl (by simp)
  | absent => exact .refused rfl (by simp)
  | failed => exact .refused rfl (by simp)
  | got receipt =>
      obtain ⟨-, readable⟩ := readRuntimeReceipt_eq_got.mp read
      obtain ⟨currentPath, previousPath⟩ := paths_of_readable readable
      simp only
      cases named : receipt.previous with
      | none => exact .refused rfl (by simp)
      | some previous =>
          simp only
          split_ifs with schema
          · exact .refused rfl (by simp)
          · cases current : verifyRuntimeArtifact binaries faults.destinationDigest receipt.current
                world with
            | crash => exact .refused rfl (by simp)
            | error text => exact .refused rfl (by simp)
            | ok _ =>
                have isCurrent := verifyRuntimeArtifact_ok current
                rw [currentPath] at isCurrent
                simp only
                cases old : verifyRuntimeArtifact binaries faults.previousDigest previous world with
                | crash => exact .refused rfl (by simp)
                | error text => exact .refused rfl (by simp)
                | ok _ =>
                    have isOld := verifyRuntimeArtifact_ok old
                    rw [previousPath previous named] at isOld
                    simp only
                    cases stored : storeRuntimeBackup binaries faults.backup receipt.current
                        world with
                    | mk world₁ ended =>
                        cases ended with
                        | crash => exact .unstored readable isCurrent (by rw [stored]) (by simp)
                        | error text =>
                            exact .unstored readable isCurrent (by rw [stored]) (by simp)
                        | ok backup =>
                            refine .switched readable isCurrent named isOld
                              (congrArg Prod.snd stored) ?_
                            rw [stored, previousPath previous named]
                            rfl

/-! ### The way back is kept -/

/-- The backups have the bytes of their digests, and the previous runtime of the receipt that can be
read is one of them. -/
structure Kept (binaries : Binaries Binary) (world : World Binary) : Prop where
  sound : world.Sound binaries
  previous : ∀ receipt previous, world.readable binaries = some receipt →
    receipt.previous = some previous → (world.backup previous.sha256).isSome

/-- What a call may change: backups are added, and a new receipt names a previous runtime that is
one of them. -/
structure Stepped (binaries : Binaries Binary) (world world' : World Binary) : Prop where
  sound : world'.Sound binaries
  kept : ∀ sha256 binary, world.backup sha256 = some binary →
    world'.backup sha256 = some binary
  receipt : world'.receipt = world.receipt ∨ world'.receipt = none
    ∨ ∃ current previous, world'.receipt = some (.receipt (runtimeReceipt current previous))
      ∧ ∀ artifact, previous = some artifact → (world'.backup artifact.sha256).isSome

/-- A step keeps the way back. -/
theorem Kept.step
    {world world' : World Binary} (kept : Kept binaries world)
    (stepped : Stepped binaries world world') :
  Kept binaries world'
  := by
  refine ⟨stepped.sound, fun receipt previous readable named => ?_⟩
  rcases stepped.receipt with same | lost | ⟨current, own, written, stored⟩
  · rw [World.readable, same] at readable
    obtain ⟨binary, there⟩ := Option.isSome_iff_exists.mp
      (kept.previous receipt previous readable named)
    rw [stepped.kept _ _ there]
    rfl
  · rw [World.readable, lost] at readable
    cases readable
  · rw [World.readable, written, Option.bind_some, receiptOfFile] at readable
    split_ifs at readable
    obtain rfl := Option.some.inj readable
    exact stored previous named

/-- A switch keeps the way back, if the previous runtime is a backup. -/
theorem Switched.stepped
    {source : Option Binary} {current : RuntimeArtifact} {previous : Option RuntimeArtifact}
    {world world' : World Binary} {ended : Ended RuntimeResult}
    (switched : Switched source current previous world world' ended)
    (sound : world.Sound binaries)
    (stored : ∀ artifact, previous = some artifact → (world.backup artifact.sha256).isSome) :
  Stepped binaries world world'
  := by
  refine ⟨?_, ?_, ?_⟩
  · intro sha256 binary there
    rw [switched.backup] at there
    exact sound sha256 binary there
  · intro sha256 binary there
    rw [switched.backup]
    exact there
  · rcases switched.receipt with same | lost | written
    · exact .inl same
    · exact .inr (.inl lost)
    · refine .inr (.inr ⟨current, previous, written, fun artifact own => ?_⟩)
      rw [switched.backup]
      exact stored artifact own

/-- The switch of a first installation. -/
theorem switchRuntime_first
    (binaries : Binaries Binary) (faults : CallFaults) (texts : SwitchTexts)
    (source : Option Binary) (current : RuntimeArtifact) (world : World Binary) :
  Switched source current none world
    (switchRuntime binaries faults texts source current none world).1
    (switchRuntime binaries faults texts source current none world).2
  :=
  switchRuntime_switched fun _ own => absurd own (Option.some_ne_none _).symm

/-- What is stored as a backup, and where. -/
theorem Stored.backup
    {artifact backup : RuntimeArtifact} {world world' : World Binary}
    {ended : Ended RuntimeArtifact} (stored : Stored binaries artifact world world' ended)
    (done : ended = .ok backup) :
  backup.sha256 = artifact.sha256 ∧ backup.version = artifact.version
    ∧ backup.path = .backup artifact.sha256
    ∧ IsArtifact binaries (world'.backup artifact.sha256) artifact.sha256 artifact.version
  := by
  obtain ⟨rfl, is⟩ := stored.ok backup done
  exact ⟨rfl, rfl, rfl, is⟩

/-- Storing a backup keeps the way back. -/
theorem Stored.stepped
    {artifact : RuntimeArtifact} {world world' : World Binary} {ended : Ended RuntimeArtifact}
    (stored : Stored binaries artifact world world' ended) :
  Stepped binaries world world'
  :=
  ⟨stored.sound, stored.kept, .inl stored.receipt⟩

/-- Two steps are one. -/
theorem Stepped.trans
    {world₁ world₂ world₃ : World Binary} (first : Stepped binaries world₁ world₂)
    (second : Stepped binaries world₂ world₃) :
  Stepped binaries world₁ world₃
  := by
  refine ⟨second.sound, fun sha256 binary there => ?_, ?_⟩
  · exact second.kept sha256 binary (first.kept sha256 binary there)
  · rcases second.receipt with same | lost | written
    · rw [same]
      rcases first.receipt with same | lost | ⟨current, previous, written, stored⟩
      · exact .inl same
      · exact .inr (.inl lost)
      · refine .inr (.inr ⟨current, previous, written, fun artifact own => ?_⟩)
        obtain ⟨binary, there⟩ := Option.isSome_iff_exists.mp (stored artifact own)
        rw [second.kept _ _ there]
        rfl
    · exact .inr (.inl lost)
    · exact .inr (.inr written)

/-- A backup that was stored and the switch behind it keep the way back. -/
theorem Stored.switch_stepped
    {artifact backup : RuntimeArtifact} {world world₁ : World Binary}
    {ended : Ended RuntimeArtifact} (stored : Stored binaries artifact world world₁ ended)
    (done : ended = .ok backup) (faults : CallFaults) (texts : SwitchTexts)
    (source : Option Binary) (current : RuntimeArtifact) :
  Switched source current (some backup) world₁
      (switchRuntime binaries faults texts source current (some backup) world₁).1
      (switchRuntime binaries faults texts source current (some backup) world₁).2
    ∧ Stepped binaries world
      (switchRuntime binaries faults texts source current (some backup) world₁).1
  := by
  obtain ⟨digest, -, path, is⟩ := stored.backup done
  have switched : Switched source current (some backup) world₁
      (switchRuntime binaries faults texts source current (some backup) world₁).1
      (switchRuntime binaries faults texts source current (some backup) world₁).2 := by
    apply switchRuntime_switched
    intro other own
    obtain rfl := Option.some.inj own
    exact ⟨_, path⟩
  refine ⟨switched, stored.stepped.trans (switched.stepped stored.sound fun other own => ?_)⟩
  obtain rfl := Option.some.inj own
  obtain ⟨binary, there, -⟩ := is
  rw [digest, there]
  rfl

/-- The runtime at the destination is stored under its digest. -/
theorem Kept.stored
    {world : World Binary} (kept : Kept binaries world) {binary : Binary}
    (there : world.destination = some binary) (version : String) (faults : BackupFaults) :
  Stored binaries (sourceArtifact binaries binary version) world
    (storeRuntimeBackup binaries faults (sourceArtifact binaries binary version) world).1
    (storeRuntimeBackup binaries faults (sourceArtifact binaries binary version) world).2
  :=
  storeRuntimeBackup_stored kept.sound there rfl

/-- The runtime that a receipt names as the current one is stored under its digest. -/
theorem Kept.stored_current
    {world : World Binary} (kept : Kept binaries world) (artifact : RuntimeArtifact)
    (current : IsArtifact binaries world.destination artifact.sha256 artifact.version)
    (faults : BackupFaults) :
  Stored binaries artifact world (storeRuntimeBackup binaries faults artifact world).1
    (storeRuntimeBackup binaries faults artifact world).2
  := by
  obtain ⟨binary, there, digest, -⟩ := current
  exact storeRuntimeBackup_stored kept.sound there digest

/-- The world is a step from itself. -/
theorem Kept.stay
    {world : World Binary} (kept : Kept binaries world) :
  Stepped binaries world world
  :=
  ⟨kept.sound, fun _ _ same => same, .inl rfl⟩

/-- A call keeps the way back. -/
theorem Kept.call
    {world : World Binary} (kept : Kept binaries world) (faults : CallFaults)
    (call : Call Binary) :
  Kept binaries (call.run binaries faults world).1
  := by
  refine kept.step ?_
  cases call with
  | install source =>
      rw [Call.run]
      cases installRuntimeFrom_installed binaries faults source world with
      | refused files failed =>
          rw [files]
          exact kept.stay
      | noop probed there same files error ok =>
          rename_i version binary
          obtain ⟨file, touched, isFile⟩ := writeRuntimeReceipt_world faults.receipt
            (noopReceipt binaries faults source version world) world
          rw [files, touched]
          refine ⟨kept.sound, fun _ _ same => same, ?_⟩
          rcases isFile with same | lost | written
          · exact .inl same
          · exact .inr (.inl lost)
          · refine .inr (.inr ⟨_, _, written, fun artifact own => ?_⟩)
            cases read : readRuntimeReceipt binaries faults.receiptRead world with
            | got receipt =>
                rw [read, keptPrevious] at own
                split_ifs at own
                exact kept.previous receipt artifact (readRuntimeReceipt_eq_got.mp read).2 own
            | absent => simp [read, keptPrevious] at own
            | failed => simp [read, keptPrevious] at own
            | crashed => simp [read, keptPrevious] at own
      | first probed absent outcome =>
          rw [outcome]
          apply (switchRuntime_first binaries faults _ (some source) _ world).stepped kept.sound
          exact fun _ own => absurd own (Option.some_ne_none _).symm
      | unstored there probedOld files failed =>
          rename_i binary oldVersion
          rw [files]
          exact (kept.stored there oldVersion faults.backup).stepped
      | upgraded probed there other probedOld stored outcome =>
          rename_i version binary oldVersion backup
          rw [outcome]
          exact ((kept.stored there oldVersion faults.backup).switch_stepped stored _ _ _ _).2
  | rollback =>
      rw [Call.run]
      cases rollbackRuntime_rolledBack binaries faults world with
      | refused files failed =>
          rw [files]
          exact kept.stay
      | unstored readable current files failed =>
          rw [files]
          exact (kept.stored_current _ current faults.backup).stepped
      | switched readable current named old stored outcome =>
          rw [outcome]
          exact ((kept.stored_current _ current faults.backup).switch_stepped stored _ _ _ _).2

/-! ### Errors -/

/-- After a backup is stored the destination can be given back. -/
theorem Stored.returnable
    (inj : Function.Injective binaries.digest) {artifact backup : RuntimeArtifact}
    {world world' : World Binary} {ended : Ended RuntimeArtifact}
    (stored : Stored binaries artifact world world' ended) (done : ended = .ok backup)
    {binary : Binary} (there : world.destination = some binary)
    (digest : binaries.digest binary = artifact.sha256) :
  Returnable (some backup) world'
  := by
  obtain ⟨-, -, path, other, kept, same, -⟩ := stored.backup done
  obtain rfl := inj (same.trans digest.symm)
  refine .inr ⟨backup, artifact.sha256, rfl, path, ?_, ?_⟩
  · rw [kept, stored.destination, there]
  · rw [stored.destination, there]
    rfl

/-- No step fails behind the replacement of the receipt, nor, when there was nothing at the
destination, behind its replacement. -/
def CallFaults.NotLate (faults : CallFaults) (world : World Binary) : Prop :=
  faults.receipt.replace.NotLate
    ∧ (world.destination = none → faults.publish.replace.NotLate)

/-- A call that fails and gives back leaves the destination and the receipt as they were. -/
theorem Kept.call_error
    {world : World Binary} (kept : Kept binaries world)
    (inj : Function.Injective binaries.digest) {faults : CallFaults} {call : Call Binary}
    {message : String} (restoring : faults.Restoring) (notLate : faults.NotLate world)
    (failed : (call.run binaries faults world).2 = .error message) :
  (call.run binaries faults world).1.destination = world.destination
    ∧ (call.run binaries faults world).1.receipt = world.receipt
  := by
  obtain ⟨receiptNotLate, firstNotLate⟩ := notLate
  cases call with
  | install source =>
      rw [Call.run] at failed ⊢
      cases installRuntimeFrom_installed binaries faults source world with
      | refused files _ =>
          rw [files]
          exact ⟨rfl, rfl⟩
      | noop probed there same files error ok =>
          rw [files, writeRuntimeReceipt_error (error message failed) receiptNotLate
            restoring.receipt]
          exact ⟨rfl, rfl⟩
      | first probed absent outcome =>
          rw [outcome] at failed ⊢
          rw [switchRuntime_error (.inl ⟨rfl, absent⟩) (fun binary own => ?_) restoring
            receiptNotLate (fun _ => firstNotLate absent) failed]
          · exact ⟨rfl, rfl⟩
          · obtain rfl := Option.some.inj own
            rfl
      | unstored there probedOld files refused =>
          rename_i binary oldVersion
          have stored := kept.stored there oldVersion faults.backup
          rw [files]
          exact ⟨stored.destination, stored.receipt⟩
      | upgraded probed there other probedOld done outcome =>
          rename_i version binary oldVersion backup
          have stored := kept.stored there oldVersion faults.backup
          rw [outcome] at failed ⊢
          rw [switchRuntime_error (stored.returnable inj done there rfl) (fun binary own => ?_)
            restoring receiptNotLate (fun none_ => ?_) failed]
          · exact ⟨stored.destination, stored.receipt⟩
          · obtain rfl := Option.some.inj own
            rfl
          · cases none_
  | rollback =>
      rw [Call.run] at failed ⊢
      cases rollbackRuntime_rolledBack binaries faults world with
      | refused files _ =>
          rw [files]
          exact ⟨rfl, rfl⟩
      | unstored readable current files _ =>
          have stored := kept.stored_current _ current faults.backup
          rw [files]
          exact ⟨stored.destination, stored.receipt⟩
      | switched readable current named old done outcome =>
          have stored := kept.stored_current _ current faults.backup
          obtain ⟨binary, there, digest, -⟩ := current
          rw [outcome] at failed ⊢
          rw [switchRuntime_error (stored.returnable inj done there digest) (fun other own => ?_)
            restoring receiptNotLate (fun none_ => ?_) failed]
          · exact ⟨stored.destination, stored.receipt⟩
          · exact stored.sound _ other own
          · cases none_

/-! ### Upgrades that are retried -/

/-- A binary as an artifact. -/
def artifactOf (binaries : Binaries Binary) (binary : Binary) (path : Place) : RuntimeArtifact where
  version := (binaries.probe binary).getD ""
  sha256 := binaries.digest binary
  path

/-- The receipt that names a current and a previous binary. -/
def receiptOf (binaries : Binaries Binary) (current previous : Binary) : RuntimeReceipt :=
  runtimeReceipt (artifactOf binaries current .destination)
    (some (artifactOf binaries previous (.backup (binaries.digest previous))))

/-- The binary is at the destination, and the receipt that can be read names it and another one as
the previous runtime. -/
def Upgraded (binaries : Binaries Binary) (current previous : Binary) (world : World Binary) :
    Prop :=
  world.destination = some current
    ∧ world.readable binaries = some (receiptOf binaries current previous)

/-- A receipt that was written is read if its text is not too long. -/
theorem readable_receipt
    (binaries : Binaries Binary) {world : World Binary} {current : RuntimeArtifact}
    {previous : Option RuntimeArtifact}
    (written : world.receipt = some (.receipt (runtimeReceipt current previous)))
    (writable : (runtimeReceipt current previous).Writable)
    (paths : ∀ artifact, previous = some artifact → artifact.path = .backup artifact.sha256) :
  world.readable binaries
    = if binaries.fits (runtimeReceipt current previous)
      then some (runtimeReceipt current previous) else none
  := by
  have valid : validReceipt (runtimeReceipt current previous) = true := by
    have isCurrent := writable.current
    have path := writable.path
    have isPrevious := writable.previous
    simp only [runtimeReceipt] at isCurrent path isPrevious
    cases previous with
    | none => simp [validReceipt, runtimeReceipt, isCurrent, path]
    | some artifact =>
        simp [validReceipt, runtimeReceipt, isCurrent, path, isPrevious artifact rfl,
          paths artifact rfl]
  rw [World.readable, written, Option.bind_some, receiptOfFile, valid, Bool.true_and]

/-- Without a fault the runtime at the destination is stored as a backup. -/
theorem Kept.store
    {world : World Binary} (kept : Kept binaries world)
    (inj : Function.Injective binaries.digest) (artifact : RuntimeArtifact)
    (current : IsArtifact binaries world.destination artifact.sha256 artifact.version) :
  (storeRuntimeBackup binaries {} artifact world).2
    = .ok { artifact with path := .backup artifact.sha256 }
  := by
  obtain ⟨binary, there, digest, probed⟩ := current
  unfold storeRuntimeBackup
  cases backup : world.backup artifact.sha256 with
  | some other =>
      have same := kept.sound _ other backup
      obtain rfl := inj (same.trans digest.symm)
      have verified : verifyRuntimeArtifact binaries .none
          { artifact with path := .backup artifact.sha256 } world = .ok () :=
        verifyRuntimeArtifact_of_isArtifact ⟨other, backup, digest, probed⟩
      simp [fileSHA256, Read.ofFile, same, verified]
  | none =>
      have verified : verifyRuntimeArtifact binaries .none
          { artifact with path := .backup artifact.sha256 }
          (world.setBackup artifact.sha256 (some binary)) = .ok () := by
        apply verifyRuntimeArtifact_of_isArtifact
        refine ⟨binary, ?_, digest, probed⟩
        simp [World.at_, World.setBackup]
      simp [fileSHA256, Read.ofFile, there, verified]

/-- The versions that a receipt of binaries names are those of the binaries. -/
theorem probe_of_valid
    {binary : Binary} {path : Place}
    (valid : validRuntimeArtifact (artifactOf binaries binary path) = true) :
  binaries.probe binary = some (artifactOf binaries binary path).version
  := by
  cases probed : binaries.probe binary with
  | none => simp [validRuntimeArtifact, artifactOf, probed] at valid
  | some version => simp [artifactOf, probed]

/-- A receipt of binaries that can be read can be written. -/
theorem valid_of_readable
    {world : World Binary} {current previous : Binary}
    (readable : world.readable binaries = some (receiptOf binaries current previous)) :
  (∀ path, validRuntimeArtifact (artifactOf binaries current path) = true)
    ∧ ∀ path, validRuntimeArtifact (artifactOf binaries previous path) = true
  := by
  obtain ⟨file, -, read⟩ := Option.bind_eq_some_iff.mp readable
  cases file with
  | other => cases read
  | legacy version sha256 =>
      simp only [receiptOfFile] at read
      split_ifs at read
      have schema := congrArg (Option.map RuntimeReceipt.schemaVersion) read
      have schema : (1 : Nat) = 2 := Option.some.inj schema
      exact absurd schema (by decide)
  | receipt own =>
      simp only [receiptOfFile] at read
      split_ifs at read with valid
      obtain rfl := Option.some.inj read
      simp only [validReceipt, receiptOf, runtimeReceipt, Option.all_some, Bool.and_eq_true]
        at valid
      exact ⟨fun path => valid.1.1.2, fun path => valid.1.2.1⟩

/-- A fault-free rollback exchanges the current and the previous runtime. -/
theorem Kept.rollback
    {world : World Binary} (kept : Kept binaries world)
    (inj : Function.Injective binaries.digest) {current previous : Binary}
    (upgraded : Upgraded binaries current previous world) :
  (rollbackRuntime binaries {} world).1.destination = some previous
    ∧ (rollbackRuntime binaries {} world).1.readable binaries
      = if binaries.fits (receiptOf binaries previous current)
        then some (receiptOf binaries previous current) else none
  := by
  obtain ⟨there, readable⟩ := upgraded
  obtain ⟨validCurrent, validPrevious⟩ := valid_of_readable readable
  obtain ⟨old, backup⟩ := Option.isSome_iff_exists.mp (kept.previous _ _ readable rfl)
  obtain rfl : old = previous := inj (kept.sound _ old backup)
  have isCurrent : IsArtifact binaries world.destination (binaries.digest current)
      (artifactOf binaries current .destination).version :=
    ⟨current, there, rfl, probe_of_valid (validCurrent _)⟩
  have isOld : IsArtifact binaries (world.backup (binaries.digest old)) (binaries.digest old)
      (artifactOf binaries old .destination).version :=
    ⟨old, backup, rfl, probe_of_valid (validPrevious _)⟩
  have done := kept.store inj (artifactOf binaries current .destination) isCurrent
  have stored := kept.stored_current (artifactOf binaries current .destination) isCurrent {}
  obtain ⟨world₁, storing⟩ : ∃ world₁, storeRuntimeBackup binaries {}
      (artifactOf binaries current .destination) world
      = (world₁, .ok (artifactOf binaries current (.backup (binaries.digest current)))) :=
    ⟨_, Prod.ext rfl done⟩
  rw [storing] at stored
  have source : IsArtifact binaries (world₁.backup (binaries.digest old)) (binaries.digest old)
      (artifactOf binaries old .destination).version :=
    ⟨old, stored.kept _ _ backup, rfl, probe_of_valid (validPrevious .destination)⟩
  have writable : (receiptOf binaries old current).Writable := by
    refine ⟨rfl, validPrevious _, rfl, fun artifact own => ?_⟩
    obtain rfl := Option.some.inj own
    exact validCurrent _
  have read : readRuntimeReceipt binaries .none world = .got (receiptOf binaries current old) :=
    readRuntimeReceipt_eq_got.mpr ⟨rfl, readable⟩
  have verifiedCurrent : verifyRuntimeArtifact binaries .none
      (artifactOf binaries current .destination) world = .ok () :=
    verifyRuntimeArtifact_of_isArtifact isCurrent
  have verifiedOld : verifyRuntimeArtifact binaries .none
      (artifactOf binaries old (.backup (binaries.digest old))) world = .ok () :=
    verifyRuntimeArtifact_of_isArtifact isOld
  have switched := switchRuntime_none rollbackTexts world₁ source rfl writable
  have run : rollbackRuntime binaries {} world
      = switchRuntime binaries {} rollbackTexts (world₁.backup (binaries.digest old))
        (artifactOf binaries old .destination)
        (some (artifactOf binaries current (.backup (binaries.digest current)))) world₁ := by
    unfold rollbackRuntime
    simp only [read]
    simp only [receiptOf, runtimeReceipt, verifiedCurrent, verifiedOld, storing, ne_eq,
      not_true_eq_false, if_false]
    rfl
  rw [run, switched]
  refine ⟨stored.kept _ _ backup, readable_receipt binaries rfl writable fun artifact own => ?_⟩
  obtain rfl := Option.some.inj own
  rfl

/-- Install a runtime again and again. -/
def retry (binaries : Binaries Binary) (source : Binary) (attempts : List CallFaults)
    (world : World Binary) : World Binary :=
  attempts.foldl (fun world faults => (installRuntimeFrom binaries faults source world).1) world

/-- The destination has one of two runtimes, or nothing. -/
def Between (current previous : Binary) (world : World Binary) : Prop :=
  world.destination = some previous ∨ world.destination = some current
    ∨ world.destination = none

/-- An installation leaves at the destination what was there, the new runtime, or nothing. -/
theorem Kept.between
    {world : World Binary} (kept : Kept binaries world)
    (inj : Function.Injective binaries.digest) {current previous : Binary} (faults : CallFaults)
    (between : Between current previous world) :
  Between current previous (installRuntimeFrom binaries faults current world).1
  := by
  cases installRuntimeFrom_installed binaries faults current world with
  | refused files _ =>
      rw [files]
      exact between
  | noop probed there same files error ok =>
      obtain ⟨file, touched, -⟩ := writeRuntimeReceipt_world faults.receipt
        (noopReceipt binaries faults current _ world) world
      rw [files, touched]
      exact between
  | first probed absent outcome =>
      rename_i version
      have switched := switchRuntime_first binaries faults (installTexts "installed") (some current)
        (sourceArtifact binaries current version) world
      rw [outcome]
      rcases switched.destination with same | lost | new | ⟨sha256, own, -⟩
      · exact .inr (.inr (same.trans absent))
      · exact .inr (.inr lost)
      · exact .inr (.inl new)
      · cases own
  | unstored there probedOld files refused =>
      rename_i binary oldVersion
      have stored := kept.stored there oldVersion faults.backup
      rw [files]
      unfold Between
      rw [stored.destination]
      exact between
  | upgraded probed there other probedOld done outcome =>
      rename_i version binary oldVersion backup
      have stored := kept.stored there oldVersion faults.backup
      obtain ⟨-, -, path, content, isKept, same, -⟩ := stored.backup done
      obtain rfl := inj same
      have switched := (stored.switch_stepped done faults (installTexts "upgraded")
        (some current) (sourceArtifact binaries current version)).1
      rw [outcome]
      rcases switched.destination with same | lost | new | ⟨sha256, own, old⟩
      · unfold Between
        rw [same, stored.destination]
        exact between
      · exact .inr (.inr lost)
      · exact .inr (.inl new)
      · rw [Option.map_some, path] at own
        obtain rfl := Place.backup.inj (Option.some.inj own)
        unfold Between
        rw [old, isKept, ← there]
        exact between

/-- Retries keep the way back, and the destination has one of the two runtimes, or nothing. -/
theorem Kept.retry
    {world : World Binary} (kept : Kept binaries world)
    (inj : Function.Injective binaries.digest) {current previous : Binary}
    (between : Between current previous world) (attempts : List CallFaults) :
  Kept binaries (retry binaries current attempts world)
    ∧ Between current previous (retry binaries current attempts world)
  := by
  induction attempts generalizing world with
  | nil => exact ⟨kept, between⟩
  | cons faults attempts ih =>
      exact ih (kept.call faults (.install current)) (kept.between inj faults between)

/-- A retry resumes an upgrade: the previous runtime still is at the destination, or the receipt
that is read already names both runtimes. -/
def Resumable (binaries : Binaries Binary) (current previous : Binary) (faults : CallFaults)
    (world : World Binary) : Prop :=
  world.destination = some previous
    ∨ (world.destination = some current ∧ faults.receiptRead = .none
      ∧ ∃ receipt, world.readable binaries = some receipt
        ∧ receipt.current.sha256 = binaries.digest current
        ∧ receipt.previous
          = some (artifactOf binaries previous (.backup (binaries.digest previous))))

/-- What is kept of a receipt that is read. -/
theorem keptPrevious_eq_some
    {sha256 : String} {read : Read RuntimeReceipt} {artifact : RuntimeArtifact} :
  keptPrevious sha256 read = some artifact
    ↔ ∃ receipt, read = .got receipt ∧ receipt.current.sha256 = sha256
      ∧ receipt.previous = some artifact
  := by
  cases read with
  | got receipt =>
      rw [keptPrevious]
      split_ifs with same
      · simp [same]
      · simp [same]
  | absent => simp [keptPrevious]
  | failed => simp [keptPrevious]
  | crashed => simp [keptPrevious]

/-- The artifact of a source that was probed. -/
theorem sourceArtifact_eq
    {binary : Binary} {version : String} (probed : binaries.probe binary = some version) :
  sourceArtifact binaries binary version = artifactOf binaries binary .destination
  := by
  simp [sourceArtifact, artifactOf, probed]

/-- An installation that succeeds leaves the upgraded runtime and its receipt exactly when it
resumes the upgrade, and the text of the receipt is not too long. -/
theorem Kept.upgraded_iff
    {world : World Binary} (kept : Kept binaries world)
    (inj : Function.Injective binaries.digest) {current previous : Binary}
    (other : previous ≠ current) (between : Between current previous world) {faults : CallFaults}
    {result : RuntimeResult}
    (done : (installRuntimeFrom binaries faults current world).2 = .ok result) :
  Upgraded binaries current previous (installRuntimeFrom binaries faults current world).1
    ↔ Resumable binaries current previous faults world
      ∧ binaries.fits (receiptOf binaries current previous) = true
  := by
  cases installRuntimeFrom_installed binaries faults current world with
  | refused files failed => exact absurd done (failed result)
  | noop probed there same files error ok =>
      rename_i version binary
      obtain rfl := inj same
      obtain ⟨written, writable⟩ := writeRuntimeReceipt_ok (ok result done)
      rw [files, written]
      have paths : ∀ artifact, keptPrevious (binaries.digest binary)
          (readRuntimeReceipt binaries faults.receiptRead world) = some artifact →
          artifact.path = .backup artifact.sha256 := by
        intro artifact own
        obtain ⟨receipt, read, -, named⟩ := keptPrevious_eq_some.mp own
        exact (paths_of_readable (readRuntimeReceipt_eq_got.mp read).2).2 artifact named
      have readable : (world.setReceipt (some (.receipt
          (noopReceipt binaries faults binary version world)))).readable binaries
          = if binaries.fits (noopReceipt binaries faults binary version world)
            then some (noopReceipt binaries faults binary version world) else none :=
        readable_receipt binaries rfl writable paths
      have names : noopReceipt binaries faults binary version world
          = receiptOf binaries binary previous
          ↔ faults.receiptRead = .none ∧ ∃ receipt, world.readable binaries = some receipt
            ∧ receipt.current.sha256 = binaries.digest binary
            ∧ receipt.previous
              = some (artifactOf binaries previous (.backup (binaries.digest previous))) := by
        rw [noopReceipt, receiptOf, sourceArtifact_eq probed]
        simp only [runtimeReceipt, RuntimeReceipt.mk.injEq, true_and, keptPrevious_eq_some,
          readRuntimeReceipt_eq_got, and_assoc, exists_and_left]
      unfold Upgraded Resumable
      rw [readable, there]
      have apart : ¬ some binary = some previous := fun same => other (Option.some.inj same).symm
      simp only [apart, false_or, true_and, ← names]
      constructor
      · rintro ⟨-, both⟩
        split_ifs at both with fits
        have named := Option.some.inj both
        exact ⟨named, named ▸ fits⟩
      · rintro ⟨named, fits⟩
        refine ⟨there, ?_⟩
        rw [named, if_pos fits]
  | first probed absent outcome =>
      rename_i version
      have switched := switchRuntime_first binaries faults (installTexts "installed") (some current)
        (sourceArtifact binaries current version) world
      rw [outcome] at done ⊢
      obtain ⟨-, written, writable⟩ := switched.ok result done
      have readable := readable_receipt binaries written writable
        fun _ own => absurd own (Option.some_ne_none _).symm
      constructor
      · rintro ⟨-, both⟩
        rw [readable] at both
        split_ifs at both
        have named := congrArg RuntimeReceipt.previous (Option.some.inj both)
        cases named
      · rintro ⟨resumable, -⟩
        rcases resumable with here | ⟨here, -⟩
        · rw [absent] at here
          cases here
        · rw [absent] at here
          cases here
  | unstored there probedOld files failed => exact absurd done (failed result)
  | upgraded probed there apart probedOld stored outcome =>
      rename_i version binary oldVersion backup
      obtain rfl : binary = previous := by
        rcases between with here | here | here
        · exact Option.some.inj (there.symm.trans here)
        · rw [Option.some.inj (there.symm.trans here)] at apart
          exact absurd rfl apart
        · rw [there] at here
          cases here
      have isStored := kept.stored there oldVersion faults.backup
      have switched := (isStored.switch_stepped stored faults (installTexts "upgraded")
        (some current) (sourceArtifact binaries current version)).1
      have isBackup : backup = artifactOf binaries binary (.backup (binaries.digest binary)) := by
        rw [(isStored.ok backup stored).1, sourceArtifact_eq probedOld]
        rfl
      subst isBackup
      rw [outcome] at done ⊢
      obtain ⟨new, written, writable⟩ := switched.ok result done
      have named : runtimeReceipt (sourceArtifact binaries current version)
          (some (artifactOf binaries binary (.backup (binaries.digest binary))))
          = receiptOf binaries current binary := by
        rw [receiptOf, sourceArtifact_eq probed]
      have paths : ∀ artifact,
          some (artifactOf binaries binary (.backup (binaries.digest binary))) = some artifact →
          artifact.path = .backup artifact.sha256 := by
        intro artifact own
        obtain rfl := Option.some.inj own
        rfl
      have readable := readable_receipt binaries written writable paths
      rw [named] at readable
      unfold Upgraded Resumable
      rw [readable]
      constructor
      · rintro ⟨-, both⟩
        split_ifs at both with fits
        exact ⟨.inl there, fits⟩
      · rintro ⟨-, fits⟩
        exact ⟨new, if_pos fits⟩

/-! ### Runs -/

/-- The states of files that calls lead to, from a state without backups whose receipt, if it can be
read, names no previous runtime. -/
inductive Reached (binaries : Binaries Binary) : World Binary → Prop where
  | start {world : World Binary} (backups : ∀ sha256, world.backup sha256 = none)
      (receipt : ∀ receipt, world.readable binaries = some receipt → receipt.previous = none) :
      Reached binaries world
  | call {world : World Binary} (reached : Reached binaries world) (faults : CallFaults)
      (call : Call Binary) : Reached binaries (call.run binaries faults world).1

/-- Every run keeps the way back. -/
theorem Reached.kept
    {world : World Binary} (reached : Reached binaries world) :
  Kept binaries world
  := by
  induction reached with
  | start backups receipt =>
      refine ⟨fun sha256 binary there => ?_, fun own previous readable named => ?_⟩
      · rw [backups] at there
        cases there
      · rw [receipt own readable] at named
        cases named
  | call _ faults call ih => exact ih.call faults call

/-- The upgraded runtime and its receipt are there, a rollback brings the previous runtime back, and
another one the upgraded runtime. -/
def Reversible (binaries : Binaries Binary) (current previous : Binary) (world : World Binary) :
    Prop :=
  Upgraded binaries current previous world
    ∧ (rollbackRuntime binaries {} world).1.destination = some previous
    ∧ (rollbackRuntime binaries {} (rollbackRuntime binaries {} world).1).1.destination
      = some current

/-- An upgrade can be reversed exactly when the receipt of the reversed upgrade can be read. -/
theorem Kept.reversible_iff
    {world : World Binary} (kept : Kept binaries world)
    (inj : Function.Injective binaries.digest) {current previous : Binary}
    (other : previous ≠ current) :
  Reversible binaries current previous world
    ↔ Upgraded binaries current previous world
      ∧ binaries.fits (receiptOf binaries previous current) = true
  := by
  unfold Reversible
  rw [and_congr_right_iff]
  intro upgraded
  obtain ⟨there, readable⟩ := kept.rollback inj upgraded
  have kept₁ : Kept binaries (rollbackRuntime binaries {} world).1 := kept.call {} .rollback
  constructor
  · rintro ⟨-, again⟩
    by_contra long
    rw [if_neg long] at readable
    -- without a receipt the second rollback is refused
    have refused : (rollbackRuntime binaries {} (rollbackRuntime binaries {} world).1).1
        = (rollbackRuntime binaries {} world).1 := by
      cases rollbackRuntime_rolledBack binaries {} (rollbackRuntime binaries {} world).1 with
      | refused files _ => exact files
      | unstored own _ _ _ =>
          rw [readable] at own
          cases own
      | switched own _ _ _ _ _ =>
          rw [readable] at own
          cases own
    rw [refused, there] at again
    exact other (Option.some.inj again)
  · intro fits
    rw [if_pos fits] at readable
    exact ⟨there, (kept₁.rollback inj ⟨there, readable⟩).1⟩

/-- In every run: the receipt names only previous runtimes whose backup is there; a call that fails
and gives back leaves the destination and the receipt as they were, if no step behind a replacement
fails; and the retries of an upgrade end with an upgrade that can be reversed exactly when the one
that succeeds resumes it and both receipts can be read. -/
theorem runtime_way_back
    (binaries : Binaries Binary) (inj : Function.Injective binaries.digest)
    {world : World Binary} (reached : Reached binaries world) :
  (∀ receipt previous, world.readable binaries = some receipt →
      receipt.previous = some previous →
      ∃ binary, world.backup previous.sha256 = some binary
        ∧ binaries.digest binary = previous.sha256)
    ∧ (∀ (call : Call Binary) faults message, faults.Restoring → faults.NotLate world →
      (call.run binaries faults world).2 = .error message →
      (call.run binaries faults world).1.destination = world.destination
        ∧ (call.run binaries faults world).1.receipt = world.receipt)
    ∧ ∀ current previous attempts faults result, world.destination = some previous →
      previous ≠ current →
      (installRuntimeFrom binaries faults current
        (retry binaries current attempts world)).2 = .ok result →
      (Reversible binaries current previous (installRuntimeFrom binaries faults current
          (retry binaries current attempts world)).1
        ↔ Resumable binaries current previous faults (retry binaries current attempts world)
          ∧ binaries.fits (receiptOf binaries current previous) = true
          ∧ binaries.fits (receiptOf binaries previous current) = true)
  := by
  have kept := reached.kept
  refine ⟨fun receipt previous readable named => ?_, ?_, ?_⟩
  · obtain ⟨binary, there⟩ := Option.isSome_iff_exists.mp
      (kept.previous receipt previous readable named)
    exact ⟨binary, there, kept.sound _ _ there⟩
  · intro call faults message restoring notLate failed
    exact kept.call_error inj restoring notLate failed
  · intro current previous attempts faults result there other done
    have start : Between current previous world := .inl there
    obtain ⟨kept₁, between⟩ := kept.retry inj start attempts
    have kept₂ : Kept binaries (installRuntimeFrom binaries faults current
        (retry binaries current attempts world)).1 := kept₁.call faults (.install current)
    rw [kept₂.reversible_iff inj other, kept₁.upgraded_iff inj other between done, and_assoc]

end Laws

/-! ### An interrupted upgrade -/

namespace RuntimeSample

/-- Two runtimes. -/
def binaries : Binaries Bool where
  probe binary := some (if binary then "2.0.0" else "1.0.0")
  digest binary := if binary then "b" else "a"
  fits _ := true

theorem digest_injective :
  Function.Injective binaries.digest
  := by
  unfold Function.Injective
  decide

/-- Nothing is installed. -/
def nothing : World Bool where
  destination := none
  backup _ := none
  receipt := none

/-- The first runtime is installed. -/
def installed : World Bool :=
  (Call.run binaries {} nothing (.install false)).1

theorem reached_installed :
  Reached binaries installed
  := by
  refine .call (.start (fun _ => rfl) fun receipt readable => ?_) {} (.install false)
  cases readable

/-- The process ends before the receipt is written. -/
def unreceipted : CallFaults :=
  { receipt := { prepare := .crash } }

/-- The process ends before the destination is replaced. -/
def unpublished : CallFaults :=
  { publish := { prepare := .crash } }

end RuntimeSample

open RuntimeSample in
/-- An upgrade ends before its receipt is written. Its retry succeeds, but the receipt names no
previous runtime and a rollback is refused. -/
theorem retry_forgets :
  Reached binaries installed ∧ installed.destination = some false
    ∧ (installRuntimeFrom binaries unreceipted true installed).2 = .crash
    ∧ (∃ result, (installRuntimeFrom binaries {} true
      (retry binaries true [unreceipted] installed)).2 = .ok result ∧ result.previous = none)
    ∧ (∃ message, (rollbackRuntime binaries {} (installRuntimeFrom binaries {} true
      (retry binaries true [unreceipted] installed)).1).2 = .error message)
    ∧ ¬ Reversible binaries true false (installRuntimeFrom binaries {} true
      (retry binaries true [unreceipted] installed)).1
  := by
  refine ⟨reached_installed, by decide, by decide, ⟨_, rfl, rfl⟩, ⟨_, rfl⟩, ?_⟩
  rintro ⟨⟨-, readable⟩, -⟩
  have previous := congrArg (Option.bind · RuntimeReceipt.previous) readable
  exact absurd previous (by decide)

open RuntimeSample in
/-- An upgrade that ends before the destination is replaced is resumed. -/
theorem runtime_way_back_sample :
  (installRuntimeFrom binaries unpublished true installed).2 = .crash
    ∧ Reversible binaries true false (installRuntimeFrom binaries {} true
      (retry binaries true [unpublished] installed)).1
  := by
  refine ⟨by decide, ?_⟩
  obtain ⟨-, -, retried⟩ := runtime_way_back binaries digest_injective reached_installed
  exact (retried true false [unpublished] {} _ (by decide) (by decide) rfl).mpr
    ⟨.inl (by decide), rfl, rfl⟩

end Install

end Dagrail
