import Mathlib.Tactic.SplitIfs
import Dagrail.Install.Runtime

/-!
# What the steps on runtimes do

A step leaves a file as it was, puts the new content there, or loses it while it is moved aside.
Each function has one law about what it may leave behind however it ends, one about its success,
and one about its errors.
-/

namespace Dagrail

namespace Install

/-! ### Reading a file -/

@[simp]
theorem Read.ofFile_eq_got
    {α β : Type} {fault : Fault} {file : Option α} {value : α → β} {read : β} :
  Read.ofFile fault file value = .got read
    ↔ fault = .none ∧ ∃ content, file = some content ∧ value content = read
  := by
  cases fault <;> cases file <;> simp [Read.ofFile]

@[simp]
theorem Read.ofFile_eq_absent
    {α β : Type} {fault : Fault} {file : Option α} {value : α → β} :
  Read.ofFile fault file value = .absent ↔ fault = .none ∧ file = none
  := by
  cases fault <;> cases file <;> simp [Read.ofFile]

/-! ### Replacing a file -/

/-- A file is replaced, as it was, or moved aside. -/
theorem replaceFile_file
    {α : Type} (faults : ReplaceFaults) (new : α) (file : Option α) :
  (replaceFile faults new file).1 = file ∨ (replaceFile faults new file).1 = none
    ∨ (replaceFile faults new file).1 = some new
  := by
  unfold replaceFile syncDirectory
  repeat' split
  all_goals simp

theorem replaceFile_ok
    {α : Type} {faults : ReplaceFaults} {new : α} {file : Option α}
    (done : (replaceFile faults new file).2 = .ok ()) :
  (replaceFile faults new file).1 = some new
  := by
  unfold replaceFile syncDirectory at done ⊢
  repeat' split at done
  all_goals simp_all

/-- Does no step behind the replacement of a file fail? -/
def ReplaceFaults.NotLate (faults : ReplaceFaults) : Prop :=
  faults.remove ≠ .error ∧ faults.sync ≠ .error

/-- A replacement that fails before the file is replaced leaves it as it was, if the file that was
moved aside can be moved back. -/
theorem replaceFile_error
    {α : Type} {faults : ReplaceFaults} {new : α} {file : Option α} {message : String}
    (failed : (replaceFile faults new file).2 = .error message) (notLate : faults.NotLate)
    (restored : faults.restore = .none) :
  (replaceFile faults new file).1 = file
  := by
  obtain ⟨remove, sync⟩ := notLate
  unfold replaceFile syncDirectory at failed ⊢
  repeat' split at failed
  all_goals simp_all

/-! ### Publishing a file -/

theorem publishFile_file
    {α : Type} (faults : PublishFaults) (source file : Option α) :
  (publishFile faults source file).1 = file ∨ (publishFile faults source file).1 = none
    ∨ ((publishFile faults source file).1 = source ∧ source.isSome)
  := by
  unfold publishFile
  split
  · exact .inl rfl
  · exact .inl rfl
  · exact .inl rfl
  · exact (replaceFile_file _ _ _).imp_right (Or.imp_right fun same => ⟨same, rfl⟩)

theorem publishFile_ok
    {α : Type} {faults : PublishFaults} {source file : Option α}
    (done : (publishFile faults source file).2 = .ok ()) :
  (publishFile faults source file).1 = source ∧ source.isSome
  := by
  unfold publishFile at done ⊢
  split at done
  · cases done
  · cases done
  · cases done
  · exact ⟨replaceFile_ok done, rfl⟩

theorem publishFile_error
    {α : Type} {faults : PublishFaults} {source file : Option α} {message : String}
    (failed : (publishFile faults source file).2 = .error message)
    (notLate : faults.replace.NotLate) (restored : faults.replace.restore = .none) :
  (publishFile faults source file).1 = file
  := by
  unfold publishFile at failed ⊢
  split at failed
  · cases failed
  · rfl
  · rfl
  · exact replaceFile_error failed notLate restored

/-- Without a fault a file is published. -/
@[simp]
theorem publishFile_none
    {α : Type} (new : α) (file : Option α) :
  publishFile {} (some new) file = (some new, .ok ())
  := rfl

section Files

variable {Binary : Type} {binaries : Binaries Binary}

/-! ### Digests and versions -/

/-- The file is a runtime as an artifact names it. -/
def IsArtifact (binaries : Binaries Binary) (file : Option Binary) (sha256 version : String) :
    Prop :=
  ∃ binary, file = some binary ∧ binaries.digest binary = sha256
    ∧ binaries.probe binary = some version

theorem verifyRuntimeArtifact_ok
    {fault : Fault} {artifact : RuntimeArtifact} {world : World Binary}
    (verified : verifyRuntimeArtifact binaries fault artifact world = .ok ()) :
  IsArtifact binaries (world.at_ artifact.path) artifact.sha256 artifact.version
  := by
  unfold verifyRuntimeArtifact fileSHA256 Read.ofFile at verified
  cases file : world.at_ artifact.path with
  | none =>
      rw [file] at verified
      cases fault <;> cases verified
  | some binary =>
      rw [file] at verified
      cases fault with
      | error => cases verified
      | crash => cases verified
      | none =>
          simp only [Option.bind_some] at verified
          split_ifs at verified with other
          cases probed : binaries.probe binary with
          | none => simp [probed] at verified
          | some version =>
              simp only [probed] at verified
              split_ifs at verified with apart
              exact ⟨binary, rfl, not_not.mp other, probed.trans (congrArg some (not_not.mp apart))⟩

theorem verifyRuntimeArtifact_of_isArtifact
    {artifact : RuntimeArtifact} {world : World Binary}
    (is : IsArtifact binaries (world.at_ artifact.path) artifact.sha256 artifact.version) :
  verifyRuntimeArtifact binaries .none artifact world = .ok ()
  := by
  obtain ⟨binary, file, digest, probed⟩ := is
  unfold verifyRuntimeArtifact fileSHA256 Read.ofFile
  simp only [file, digest, Option.bind_some, probed, ne_eq, not_true_eq_false, if_false]

theorem removeRuntimeIfDigest_file
    (faults : RemoveFaults) (sha256 : String) (file : Option Binary) :
  (removeRuntimeIfDigest binaries faults sha256 file).1 = file
    ∨ (removeRuntimeIfDigest binaries faults sha256 file).1 = none
  := by
  unfold removeRuntimeIfDigest
  repeat' split
  all_goals simp

/-- Without a fault a runtime is removed. -/
theorem removeRuntimeIfDigest_none
    {sha256 : String} {binary : Binary} (digest : binaries.digest binary = sha256) :
  removeRuntimeIfDigest binaries {} sha256 (some binary) = (none, .ok ())
  := by
  simp [removeRuntimeIfDigest, fileSHA256, Read.ofFile, digest]

/-! ### Backups -/

/-- Every backup has the bytes of its digest. -/
def World.Sound (binaries : Binaries Binary) (world : World Binary) : Prop :=
  ∀ sha256 binary, world.backup sha256 = some binary → binaries.digest binary = sha256

/-- What storing a backup leaves behind. -/
structure Stored (binaries : Binaries Binary) (artifact : RuntimeArtifact)
    (world world' : World Binary) (ended : Ended RuntimeArtifact) : Prop where
  destination : world'.destination = world.destination
  receipt : world'.receipt = world.receipt
  kept : ∀ sha256 binary, world.backup sha256 = some binary →
    world'.backup sha256 = some binary
  sound : world'.Sound binaries
  ok : ∀ stored, ended = .ok stored →
    stored = { artifact with path := .backup artifact.sha256 }
      ∧ IsArtifact binaries (world'.backup artifact.sha256) artifact.sha256 artifact.version

/-- Storing the runtime at the destination under its digest keeps every backup. -/
theorem storeRuntimeBackup_stored
    {faults : BackupFaults} {artifact : RuntimeArtifact} {world : World Binary} {binary : Binary}
    (sound : world.Sound binaries) (there : world.destination = some binary)
    (digest : binaries.digest binary = artifact.sha256) :
  Stored binaries artifact world (storeRuntimeBackup binaries faults artifact world).1
    (storeRuntimeBackup binaries faults artifact world).2
  := by
  have same : ∀ ended : Ended RuntimeArtifact, (∀ stored, ended ≠ .ok stored) →
      Stored binaries artifact world world ended :=
    fun ended refused => ⟨rfl, rfl, fun _ _ same => same, sound, fun stored ok =>
      absurd ok (refused stored)⟩
  unfold storeRuntimeBackup
  cases read : fileSHA256 binaries faults.existing (world.backup artifact.sha256) with
  | crashed => exact same _ (by simp)
  | failed => exact same _ (by simp)
  | got old =>
      simp only
      split_ifs with corrupt
      · exact same _ (by simp)
      · split
        · rename_i verified
          have is := verifyRuntimeArtifact_ok verified
          refine ⟨rfl, rfl, fun _ _ same => same, sound, fun stored ok => ?_⟩
          cases ok
          exact ⟨rfl, is⟩
        · exact same _ (by simp)
        · exact same _ (by simp)
  | absent =>
      have none_ : world.backup artifact.sha256 = none := (Read.ofFile_eq_absent.mp read).2
      -- whatever is left under the digest has the bytes of the destination
      have put : ∀ (file : Option Binary) (ended : Ended RuntimeArtifact),
          (file = none ∨ file = some binary) →
          (∀ stored, ended = .ok stored → stored = { artifact with path := .backup artifact.sha256 }
            ∧ IsArtifact binaries file artifact.sha256 artifact.version) →
          Stored binaries artifact world (world.setBackup artifact.sha256 file) ended := by
        intro file ended content ok
        refine ⟨rfl, rfl, fun sha256 old kept => ?_, fun sha256 old kept => ?_, ?_⟩
        · have apart : sha256 ≠ artifact.sha256 := by
            rintro rfl
            rw [none_] at kept
            cases kept
          simpa [World.setBackup, Function.update_of_ne apart] using kept
        · by_cases own : sha256 = artifact.sha256
          · subst own
            simp only [World.setBackup, Function.update_self] at kept
            rcases content with content | content
            · rw [content] at kept
              cases kept
            · rw [content] at kept
              rw [← Option.some.inj kept]
              exact digest
          · simp only [World.setBackup, Function.update_of_ne own] at kept
            exact sound sha256 old kept
        · simpa [World.setBackup, Function.update_self] using ok
      have content := publishFile_file faults.publish world.destination
        (world.backup artifact.sha256)
      rw [none_, there] at content
      have content : (publishFile faults.publish (some binary) none).1 = none
          ∨ (publishFile faults.publish (some binary) none).1 = some binary := by
        rcases content with same | same | same
        · exact .inl same
        · exact .inl same
        · exact .inr same.1
      simp only [none_, there]
      cases (publishFile faults.publish (some binary) none).2 with
      | crash => exact put _ _ content (by simp)
      | error message => exact put _ _ content (by simp)
      | ok _ =>
          simp only
          split
          · rename_i verified
            have is := verifyRuntimeArtifact_ok verified
            refine put _ _ content fun stored ok => ?_
            cases ok
            refine ⟨rfl, ?_⟩
            simpa [World.at_, World.setBackup, Function.update_self] using is
          · exact put _ _ content (by simp)
          · rename_i message refused
            have again : ∀ file, (world.setBackup artifact.sha256
                (publishFile faults.publish (some binary) none).1).setBackup artifact.sha256 file
                = world.setBackup artifact.sha256 file := by
              intro file
              simp [World.setBackup]
            rw [again]
            refine put _ _ ?_ fun stored ok => ?_
            · rcases removeRuntimeIfDigest_file faults.remove artifact.sha256
                ((world.setBackup artifact.sha256
                  (publishFile faults.publish (some binary) none).1).backup artifact.sha256)
                with same | removed
              · rw [same]
                simpa [World.setBackup] using content
              · exact .inl removed
            · split at ok <;> cases ok

/-! ### Receipts -/

/-- Does a receipt that is written name versions? -/
structure RuntimeReceipt.Writable (receipt : RuntimeReceipt) : Prop where
  schema : receipt.schemaVersion = runtimeReceiptSchemaVersion
  current : validRuntimeArtifact receipt.current = true
  path : receipt.current.path = receipt.runtimePath
  previous : ∀ previous, receipt.previous = some previous → validRuntimeArtifact previous = true

/-- Writing a receipt touches nothing else. -/
theorem writeRuntimeReceipt_world
    (faults : PublishFaults) (receipt : RuntimeReceipt) (world : World Binary) :
  ∃ file, (writeRuntimeReceipt faults receipt world).1 = world.setReceipt file
    ∧ (file = world.receipt ∨ file = none ∨ file = some (.receipt receipt))
  := by
  unfold writeRuntimeReceipt
  split_ifs
  · exact ⟨world.receipt, rfl, .inl rfl⟩
  · exact ⟨world.receipt, rfl, .inl rfl⟩
  · exact ⟨_, rfl, (publishFile_file _ _ _).imp_right (Or.imp_right And.left)⟩

theorem writeRuntimeReceipt_ok
    {faults : PublishFaults} {receipt : RuntimeReceipt} {world : World Binary}
    (done : (writeRuntimeReceipt faults receipt world).2 = .ok ()) :
  (writeRuntimeReceipt faults receipt world).1 = world.setReceipt (some (.receipt receipt))
    ∧ receipt.Writable
  := by
  unfold writeRuntimeReceipt at done ⊢
  split_ifs at done ⊢ with shape versions
  simp only [not_or, ne_eq, not_not, Bool.not_eq_false] at shape
  refine ⟨congrArg world.setReceipt (publishFile_ok done).1, shape.1, shape.2.1, shape.2.2, ?_⟩
  intro previous same
  rw [same] at versions
  simpa using versions

theorem writeRuntimeReceipt_error
    {faults : PublishFaults} {receipt : RuntimeReceipt} {world : World Binary} {message : String}
    (failed : (writeRuntimeReceipt faults receipt world).2 = .error message)
    (notLate : faults.replace.NotLate) (restored : faults.replace.restore = .none) :
  (writeRuntimeReceipt faults receipt world).1 = world
  := by
  unfold writeRuntimeReceipt at failed ⊢
  split_ifs at failed ⊢
  · rfl
  · rfl
  · exact congrArg world.setReceipt (publishFile_error failed notLate restored)

/-- Without a fault a receipt that names versions is written. -/
theorem writeRuntimeReceipt_none
    {receipt : RuntimeReceipt} (writable : receipt.Writable) (world : World Binary) :
  writeRuntimeReceipt {} receipt world = (world.setReceipt (some (.receipt receipt)), .ok ())
  := by
  have versions :
      ¬ (receipt.previous.any fun previous => !validRuntimeArtifact previous) = true := by
    cases same : receipt.previous with
    | none => simp
    | some previous => simpa using writable.previous previous same
  unfold writeRuntimeReceipt
  rw [if_neg (by simp [writable.schema, writable.current, writable.path]), if_neg versions]
  rfl

/-! ### Switching the runtime -/

/-- Giving back touches the destination only. -/
theorem restoreDestination_world
    (binaries : Binaries Binary) (faults : CallFaults) (previous : Option RuntimeArtifact)
    (sha256 message : String) (world : World Binary) :
  ∃ file, (restoreDestination binaries faults previous sha256 message world).1
      = world.setDestination file
    ∧ (file = world.destination ∨ file = none
      ∨ ∃ artifact, previous = some artifact ∧ file = world.at_ artifact.path)
    ∧ ∀ result, (restoreDestination binaries faults previous sha256 message world).2 ≠ .ok result
  := by
  unfold restoreDestination
  refine ⟨_, rfl, ?_, fun result => ?_⟩
  · cases previous with
    | none => exact (removeRuntimeIfDigest_file _ _ _).imp_right .inl
    | some artifact =>
        exact (publishFile_file _ _ _).imp_right
          (Or.imp_right fun same => ⟨artifact, rfl, same.1⟩)
  · dsimp only
    split <;> simp

/-- What a switch leaves behind. -/
structure Switched (source : Option Binary) (current : RuntimeArtifact)
    (previous : Option RuntimeArtifact) (world world' : World Binary)
    (ended : Ended RuntimeResult) : Prop where
  backup : world'.backup = world.backup
  receipt : world'.receipt = world.receipt ∨ world'.receipt = none
    ∨ world'.receipt = some (.receipt (runtimeReceipt current previous))
  destination : world'.destination = world.destination ∨ world'.destination = none
    ∨ world'.destination = source
    ∨ ∃ sha256, previous.map RuntimeArtifact.path = some (.backup sha256)
      ∧ world'.destination = world.backup sha256
  ok : ∀ result, ended = .ok result → world'.destination = source
    ∧ world'.receipt = some (.receipt (runtimeReceipt current previous))
    ∧ (runtimeReceipt current previous).Writable

/-- A switch keeps the backups, and leaves at the destination what was there, the new runtime, the
previous one, or nothing. -/
theorem switchRuntime_switched
    {faults : CallFaults} {texts : SwitchTexts} {source : Option Binary}
    {current : RuntimeArtifact} {previous : Option RuntimeArtifact} {world : World Binary}
    (stored : ∀ artifact, previous = some artifact → ∃ sha256, artifact.path = .backup sha256) :
  Switched source current previous world
    (switchRuntime binaries faults texts source current previous world).1
    (switchRuntime binaries faults texts source current previous world).2
  := by
  have content := publishFile_file faults.publish source world.destination
  -- after the publication only the destination differs
  have restored : ∀ (published : Option Binary) (file : Option ReceiptFile) (message : String),
      (published = world.destination ∨ published = none ∨ published = source) →
      (file = world.receipt ∨ file = none
        ∨ file = some (.receipt (runtimeReceipt current previous))) →
      ∀ world', world' = (world.setDestination published).setReceipt file →
      Switched source current previous world
        (restoreDestination binaries faults previous current.sha256 message world').1
        (restoreDestination binaries faults previous current.sha256 message world').2 := by
    rintro published file message isContent isFile world' rfl
    obtain ⟨left, same, isLeft, refused⟩ := restoreDestination_world binaries faults
      previous current.sha256 message ((world.setDestination published).setReceipt file)
    rw [same]
    refine ⟨rfl, isFile, ?_, fun result ok => absurd ok (refused result)⟩
    rcases isLeft with isLeft | isLeft | ⟨artifact, own, isLeft⟩
    · rcases isContent with isContent | isContent | isContent
      · exact .inl (isLeft.trans isContent)
      · exact .inr (.inl (isLeft.trans isContent))
      · exact .inr (.inr (.inl (isLeft.trans isContent)))
    · exact .inr (.inl isLeft)
    · obtain ⟨sha256, path⟩ := stored artifact own
      refine .inr (.inr (.inr ⟨sha256, by rw [own, Option.map_some, path], ?_⟩))
      rw [path] at isLeft
      exact isLeft
  have content : (publishFile faults.publish source world.destination).1 = world.destination
      ∨ (publishFile faults.publish source world.destination).1 = none
      ∨ (publishFile faults.publish source world.destination).1 = source :=
    content.imp_right (Or.imp_right And.left)
  have plain : ∀ ended : Ended RuntimeResult, (∀ result, ended ≠ .ok result) →
      Switched source current previous world
        (world.setDestination (publishFile faults.publish source world.destination).1) ended :=
    fun ended refused => ⟨rfl, .inl rfl, by
      rcases content with same | same | same
      · exact .inl same
      · exact .inr (.inl same)
      · exact .inr (.inr (.inl same)), fun result ok => absurd ok (refused result)⟩
  unfold switchRuntime
  cases published : (publishFile faults.publish source world.destination).2 with
  | crash =>
      simp only [published]
      exact plain _ (by simp)
  | error message =>
      simp only [published]
      split_ifs
      · exact restored _ _ _ content (.inl rfl) _ rfl
      · exact plain _ (by simp)
  | ok _ =>
      have isSource := (publishFile_ok published).1
      simp only [published]
      split
      · exact plain _ (by simp)
      · exact restored _ _ _ content (.inl rfl) _ rfl
      · obtain ⟨file, same, isFile⟩ := writeRuntimeReceipt_world faults.receipt
          (runtimeReceipt current previous)
          (world.setDestination (publishFile faults.publish source world.destination).1)
        cases written : (writeRuntimeReceipt faults.receipt (runtimeReceipt current previous)
            (world.setDestination (publishFile faults.publish source world.destination).1)).2 with
        | crash =>
            simp only [same]
            refine ⟨rfl, isFile, .inr (.inr (.inl isSource)), fun result ok => ?_⟩
            cases ok
        | error message =>
            simp only [same]
            exact restored _ _ _ content isFile _ rfl
        | ok _ =>
            obtain ⟨all, writable⟩ := writeRuntimeReceipt_ok written
            simp only [all]
            exact ⟨rfl, .inr (.inr rfl), .inr (.inr (.inl isSource)),
              fun _ _ => ⟨isSource, rfl, writable⟩⟩

/-- The writes that give back succeed. -/
structure CallFaults.Restoring (faults : CallFaults) : Prop where
  restore : faults.restore = {}
  remove : faults.remove = {}
  publish : faults.publish.replace.restore = .none
  receipt : faults.receipt.replace.restore = .none

/-- What was at the destination before a switch can be given back: there is a backup of it, or there
was nothing. -/
def Returnable (previous : Option RuntimeArtifact) (world : World Binary) : Prop :=
  (previous = none ∧ world.destination = none)
    ∨ ∃ artifact sha256, previous = some artifact ∧ artifact.path = .backup sha256
      ∧ world.backup sha256 = world.destination ∧ world.destination.isSome

/-- A failed switch that gives back leaves the files as they were. -/
theorem switchRuntime_error
    {faults : CallFaults} {texts : SwitchTexts} {source : Option Binary}
    {current : RuntimeArtifact} {previous : Option RuntimeArtifact} {world : World Binary}
    {message : String} (returnable : Returnable previous world)
    (digest : ∀ binary, source = some binary → binaries.digest binary = current.sha256)
    (restoring : faults.Restoring) (receiptNotLate : faults.receipt.replace.NotLate)
    (firstNotLate : previous = none → faults.publish.replace.NotLate)
    (failed : (switchRuntime binaries faults texts source current previous world).2
      = .error message) :
  (switchRuntime binaries faults texts source current previous world).1 = world
  := by
  -- giving back undoes a publication of the source
  have restored : ∀ (published : Option Binary) (text : String),
      (previous = none → published = source ∧ source.isSome) →
      (restoreDestination binaries faults previous current.sha256 text
        (world.setDestination published)).1 = world := by
    intro published text isSource
    unfold restoreDestination
    rcases returnable with ⟨first, nothing⟩ | ⟨artifact, sha256, own, path, kept, there⟩
    · obtain ⟨rfl, some_⟩ := isSource first
      obtain ⟨binary, rfl⟩ := Option.isSome_iff_exists.mp some_
      rw [first, restoring.remove]
      have removed := removeRuntimeIfDigest_none (digest binary rfl)
      simp only [World.setDestination, removed]
      rw [← nothing]
    · obtain ⟨binary, there⟩ := Option.isSome_iff_exists.mp there
      rw [own, restoring.restore]
      have back : (world.setDestination published).at_ artifact.path = some binary := by
        rw [path]
        exact kept.trans there
      simp only [back, publishFile_none]
      simp only [World.setDestination]
      rw [← there]
  unfold switchRuntime at failed ⊢
  cases published : (publishFile faults.publish source world.destination).2 with
  | crash =>
      simp only [published] at failed
      cases failed
  | error text =>
      simp only [published]
      split_ifs with again
      · refine restored _ _ fun first => ?_
        rw [first] at again
        cases again
      · have first : previous = none := by simpa using again
        rw [publishFile_error published (firstNotLate first) restoring.publish]
        rfl
  | ok _ =>
      obtain ⟨isSource, some_⟩ := publishFile_ok published
      have given := fun text => restored source text fun _ => ⟨rfl, some_⟩
      simp only [published, isSource] at failed ⊢
      cases verified : verifyRuntimeArtifact binaries faults.verify current
          (world.setDestination source) with
      | crash =>
          simp only [verified] at failed
          cases failed
      | error text => exact given _
      | ok _ =>
          simp only [verified] at failed ⊢
          cases written : (writeRuntimeReceipt faults.receipt (runtimeReceipt current previous)
              (world.setDestination source)).2 with
          | crash =>
              simp only [written] at failed
              cases failed
          | ok _ =>
              simp only [written] at failed
              cases failed
          | error text =>
              have same := writeRuntimeReceipt_error written receiptNotLate restoring.receipt
              simp only [same]
              exact given _

/-- Without a fault a runtime that is as its artifact says is switched to. -/
theorem switchRuntime_none
    (texts : SwitchTexts) {source : Option Binary} {current : RuntimeArtifact}
    {previous : Option RuntimeArtifact} (world : World Binary)
    (is : IsArtifact binaries source current.sha256 current.version)
    (path : current.path = .destination) (writable : (runtimeReceipt current previous).Writable) :
  switchRuntime binaries {} texts source current previous world
    = ((world.setDestination source).setReceipt (some (.receipt (runtimeReceipt current previous))),
      .ok { status := texts.status, current, previous })
  := by
  obtain ⟨binary, rfl, digest, probed⟩ := is
  have verified : verifyRuntimeArtifact binaries .none current (world.setDestination (some binary))
      = .ok () := by
    apply verifyRuntimeArtifact_of_isArtifact
    rw [path]
    exact ⟨binary, rfl, digest, probed⟩
  unfold switchRuntime
  simp only [publishFile_none, verified, writeRuntimeReceipt_none writable]

end Files

end Install

end Dagrail
