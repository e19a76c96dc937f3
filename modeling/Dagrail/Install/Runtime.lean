import Mathlib.Logic.Function.Basic

/-!
# The runtime

An installation copies a runtime to its destination, keeps the runtime that was there as a backup
under its digest, and writes a receipt that names both. A rollback exchanges them
(`internal/install/runtime.go`). Every step on a file may fail, and the process may stop at any of
them.
-/

namespace Dagrail

namespace Install

/-! ### Steps on files -/

/-- What happens at a step: nothing bad, an error, or the end of the process. -/
inductive Fault where
  | none
  | error
  | crash
deriving DecidableEq

/-- How a call ends: with a value, with an error, or with the end of the process. -/
inductive Ended (α : Type) where
  | ok (value : α)
  | error (message : String)
  | crash
deriving DecidableEq

/-- What is read from a file. -/
inductive Read (α : Type) where
  | got (value : α)
  | absent
  | failed
  | crashed
deriving DecidableEq

/-- Read from a file. -/
def Read.ofFile {α β : Type} (fault : Fault) (file : Option α) (value : α → β) : Read β :=
  match fault, file with
  | .crash, _ => .crashed
  | .error, _ => .failed
  | .none, none => .absent
  | .none, some content => .got (value content)

/-- What happens at the steps of the replacement of a file: the renaming of the new file, the look
at the old one, the moves of the old file to the side, of the new one, and of the old one back, the
removal of the old file, and the synchronization of the directory. -/
structure ReplaceFaults where
  rename : Fault := .none
  stat : Fault := .none
  stage : Fault := .none
  second : Fault := .none
  restore : Fault := .none
  remove : Fault := .none
  sync : Fault := .none
deriving DecidableEq

/-- The synchronization of the directory, behind the replacement. -/
def syncDirectory {α : Type} (fault : Fault) (file : Option α) : Option α × Ended Unit :=
  match fault with
  | .none => (file, .ok ())
  | .error => (file, .error "sync directory")
  | .crash => (file, .crash)

/-- Replace a file by another one. -/
def replaceFile {α : Type} (faults : ReplaceFaults) (new : α) (file : Option α) :
    Option α × Ended Unit :=
  match faults.rename with
  | .crash => (file, .crash)
  | .none => syncDirectory faults.sync (some new)
  | .error =>
      match faults.stat, file with
      | .crash, _ => (file, .crash)
      | .none, none => (file, .error "publish runtime")
      | .error, none =>
          (file, if faults.stage = .crash then .crash else .error "stage existing runtime")
      | _, some old =>
          match faults.stage with
          | .crash => (some old, .crash)
          | .error => (some old, .error "stage existing runtime")
          | .none =>
              match faults.second with
              | .crash => (none, .crash)
              | .error =>
                  match faults.restore with
                  | .none => (some old, .error "publish runtime")
                  | .error => (none, .error "publish runtime")
                  | .crash => (none, .crash)
              | .none =>
                  match faults.remove with
                  | .crash => (some new, .crash)
                  | .error => (some new, .error "remove replaced runtime")
                  | .none => syncDirectory faults.sync (some new)

/-- What happens when a file is published: at the steps that write a temporary file, of which the
first one that does not succeed counts, and at the replacement. -/
structure PublishFaults where
  prepare : Fault := .none
  replace : ReplaceFaults := {}
deriving DecidableEq

/-- Publish new content of a file. There may be nothing to read it from. -/
def publishFile {α : Type} (faults : PublishFaults) (source : Option α) (file : Option α) :
    Option α × Ended Unit :=
  match faults.prepare, source with
  | .crash, _ => (file, .crash)
  | .error, _ => (file, .error "write temporary file")
  | .none, none => (file, .error "open source")
  | .none, some new => replaceFile faults.replace new file

/-! ### Runtimes and receipts -/

/-- Where a runtime is. -/
inductive Place where
  | destination
  | backup (sha256 : String)
deriving DecidableEq

/-- A runtime that a receipt names. -/
structure RuntimeArtifact where
  version : String
  sha256 : String
  path : Place
deriving DecidableEq

/-- A receipt. -/
structure RuntimeReceipt where
  schemaVersion : Nat
  runtimePath : Place
  current : RuntimeArtifact
  previous : Option RuntimeArtifact
deriving DecidableEq

/-- The version of the schema of receipts. -/
def runtimeReceiptSchemaVersion : Nat := 2

/-- The receipt of a runtime at the destination and of the previous one. -/
def runtimeReceipt (current : RuntimeArtifact) (previous : Option RuntimeArtifact) :
    RuntimeReceipt where
  schemaVersion := runtimeReceiptSchemaVersion
  runtimePath := .destination
  current
  previous

/-- What the file of the receipt has: a receipt, one of the first schema, or something else. -/
inductive ReceiptFile where
  | receipt (receipt : RuntimeReceipt)
  | legacy (version sha256 : String)
  | other
deriving DecidableEq

/-- What is known of binaries: the version that a probe finds, the digest, and whether the text of a
receipt is not too long to be read. -/
structure Binaries (Binary : Type) where
  probe : Binary → Option String
  digest : Binary → String
  fits : RuntimeReceipt → Bool

/-- The files. -/
structure World (Binary : Type) where
  destination : Option Binary
  backup : String → Option Binary
  receipt : Option ReceiptFile

namespace World

variable {Binary : Type}

/-- The runtime at a place. -/
def at_ (world : World Binary) : Place → Option Binary
  | .destination => world.destination
  | .backup sha256 => world.backup sha256

/-- The files with another destination. -/
def setDestination (world : World Binary) (file : Option Binary) : World Binary :=
  { world with destination := file }

/-- The files with another backup. -/
def setBackup (world : World Binary) (sha256 : String) (file : Option Binary) : World Binary :=
  { world with backup := Function.update world.backup sha256 file }

/-- The files with another receipt. -/
def setReceipt (world : World Binary) (file : Option ReceiptFile) : World Binary :=
  { world with receipt := file }

end World

/-- Does the artifact have a version? Its path is absolute and its digest is one. -/
def validRuntimeArtifact (artifact : RuntimeArtifact) : Bool :=
  artifact.version ≠ ""

/-- Is a receipt that is read as it is written? -/
def validReceipt (receipt : RuntimeReceipt) : Bool :=
  receipt.schemaVersion = runtimeReceiptSchemaVersion && receipt.runtimePath = .destination
    && receipt.current.path = .destination && validRuntimeArtifact receipt.current
    && receipt.previous.all fun previous =>
      validRuntimeArtifact previous && previous.path = .backup previous.sha256

section Calls

variable {Binary : Type} (binaries : Binaries Binary)

/-- What the file of the receipt says. -/
def receiptOfFile : ReceiptFile → Option RuntimeReceipt
  | .receipt receipt =>
      if validReceipt receipt && binaries.fits receipt then some receipt else none
  | .legacy version sha256 =>
      if version ≠ "" then
        some
          { schemaVersion := 1, runtimePath := .destination
            current := { version, sha256, path := .destination }, previous := none }
      else none
  | .other => none

/-- The receipt that can be read. -/
def World.readable (world : World Binary) : Option RuntimeReceipt :=
  world.receipt.bind (receiptOfFile binaries)

/-- Read the receipt. -/
def readRuntimeReceipt (fault : Fault) (world : World Binary) : Read RuntimeReceipt :=
  match Read.ofFile fault world.receipt (receiptOfFile binaries) with
  | .got (some receipt) => .got receipt
  | .got none => .failed
  | .absent => .absent
  | .failed => .failed
  | .crashed => .crashed

/-- Write a receipt. -/
def writeRuntimeReceipt (faults : PublishFaults) (receipt : RuntimeReceipt) (world : World Binary) :
    World Binary × Ended Unit :=
  if receipt.schemaVersion ≠ runtimeReceiptSchemaVersion
      ∨ validRuntimeArtifact receipt.current = false
      ∨ receipt.current.path ≠ receipt.runtimePath then
    (world, .error "invalid runtime receipt")
  else if receipt.previous.any fun previous => !validRuntimeArtifact previous then
    (world, .error "invalid rollback artifact in runtime receipt")
  else
    let (file, ended) := publishFile faults (some (.receipt receipt)) world.receipt
    (world.setReceipt file, ended)

/-- Read the digest of a runtime. -/
def fileSHA256 (fault : Fault) (file : Option Binary) : Read String :=
  Read.ofFile fault file binaries.digest

/-- Verify that a file has the digest and the version of an artifact. -/
def verifyRuntimeArtifact (fault : Fault) (artifact : RuntimeArtifact) (world : World Binary) :
    Ended Unit :=
  match fileSHA256 binaries fault (world.at_ artifact.path) with
  | .crashed => .crash
  | .absent => .error "runtime digest mismatch"
  | .failed => .error "runtime digest mismatch"
  | .got digest =>
      if digest ≠ artifact.sha256 then .error "runtime digest mismatch"
      else
        match (world.at_ artifact.path).bind binaries.probe with
        | none => .error "fresh runtime probe failed"
        | some version =>
            if version ≠ artifact.version then .error "runtime version mismatch" else .ok ()

/-- What happens when a file is removed. -/
structure RemoveFaults where
  digest : Fault := .none
  remove : Fault := .none
deriving DecidableEq

/-- Remove a runtime that has the digest. -/
def removeRuntimeIfDigest (faults : RemoveFaults) (sha256 : String) (file : Option Binary) :
    Option Binary × Ended Unit :=
  match fileSHA256 binaries faults.digest file with
  | .crashed => (file, .crash)
  | .absent => (file, .ok ())
  | .failed => (file, .ok ())
  | .got digest =>
      if digest ≠ sha256 then (file, .ok ())
      else
        match faults.remove with
        | .none => (none, .ok ())
        | .error => (file, .ok ())
        | .crash => (file, .crash)

/-- What happens when a backup is stored. -/
structure BackupFaults where
  existing : Fault := .none
  verifyExisting : Fault := .none
  publish : PublishFaults := {}
  verify : Fault := .none
  remove : RemoveFaults := {}
deriving DecidableEq

/-- Store the runtime at the destination as a backup. -/
def storeRuntimeBackup (faults : BackupFaults) (artifact : RuntimeArtifact) (world : World Binary) :
    World Binary × Ended RuntimeArtifact :=
  let stored := { artifact with path := .backup artifact.sha256 }
  match fileSHA256 binaries faults.existing (world.backup artifact.sha256) with
  | .crashed => (world, .crash)
  | .failed => (world, .error "read backup")
  | .got digest =>
      if digest ≠ artifact.sha256 then
        (world, .error "digest-addressed runtime backup is corrupt")
      else
        match verifyRuntimeArtifact binaries faults.verifyExisting stored world with
        | .ok _ => (world, .ok stored)
        | .error message => (world, .error message)
        | .crash => (world, .crash)
  | .absent =>
      let (file, ended) :=
        publishFile faults.publish world.destination (world.backup artifact.sha256)
      let world := world.setBackup artifact.sha256 file
      match ended with
      | .crash => (world, .crash)
      | .error message => (world, .error message)
      | .ok _ =>
          match verifyRuntimeArtifact binaries faults.verify stored world with
          | .ok _ => (world, .ok stored)
          | .crash => (world, .crash)
          | .error message =>
              let (file, removed) := removeRuntimeIfDigest binaries faults.remove artifact.sha256
                (world.backup artifact.sha256)
              (world.setBackup artifact.sha256 file,
                match removed with
                | .crash => .crash
                | _ => .error message)

/-- What a call reports. -/
structure RuntimeResult where
  status : String
  current : RuntimeArtifact
  previous : Option RuntimeArtifact
deriving DecidableEq

/-- What happens in a call. -/
structure CallFaults where
  receiptRead : Fault := .none
  sourceDigest : Fault := .none
  destinationDigest : Fault := .none
  previousDigest : Fault := .none
  backup : BackupFaults := {}
  publish : PublishFaults := {}
  verify : Fault := .none
  receipt : PublishFaults := {}
  restore : PublishFaults := {}
  remove : RemoveFaults := {}
deriving DecidableEq

/-- Give back what was at the destination: the previous runtime, or nothing. -/
def restoreDestination (faults : CallFaults) (previous : Option RuntimeArtifact)
    (sha256 message : String) (world : World Binary) : World Binary × Ended RuntimeResult :=
  let (file, ended) :=
    match previous with
    | some previous => publishFile faults.restore (world.at_ previous.path) world.destination
    | none => removeRuntimeIfDigest binaries faults.remove sha256 world.destination
  (world.setDestination file,
    match ended with
    | .crash => .crash
    | _ => .error message)

/-- What a call says: its status, and the texts of its errors. -/
structure SwitchTexts where
  status : String
  validation : String
  receipt : String

/-- Publish a runtime at the destination, verify it and write the receipt. What was there is given
back after an error; a first runtime stays when its publication is what failed. -/
def switchRuntime (faults : CallFaults) (texts : SwitchTexts) (source : Option Binary)
    (current : RuntimeArtifact) (previous : Option RuntimeArtifact) (world : World Binary) :
    World Binary × Ended RuntimeResult :=
  let (file, published) := publishFile faults.publish source world.destination
  let world := world.setDestination file
  match published with
  | .crash => (world, .crash)
  | .error message =>
      if previous.isSome then
        restoreDestination binaries faults previous current.sha256 message world
      else (world, .error message)
  | .ok _ =>
      match verifyRuntimeArtifact binaries faults.verify current world with
      | .crash => (world, .crash)
      | .error _ =>
          restoreDestination binaries faults previous current.sha256 texts.validation world
      | .ok _ =>
          let (world, written) :=
            writeRuntimeReceipt faults.receipt (runtimeReceipt current previous) world
          match written with
          | .crash => (world, .crash)
          | .error _ =>
              restoreDestination binaries faults previous current.sha256 texts.receipt world
          | .ok _ => (world, .ok { status := texts.status, current, previous })

/-- The texts of an installation. -/
def installTexts (status : String) : SwitchTexts where
  status
  validation := "published runtime validation failed; previous runtime restored when available"
  receipt := "write install receipt; previous runtime restored when available"

/-- The texts of a rollback. -/
def rollbackTexts : SwitchTexts where
  status := "rolled_back"
  validation := "rollback validation failed; current runtime restored"
  receipt := "rollback receipt failed; current runtime restored"

/-- The previous runtime of a receipt that was read, if the receipt names the runtime with the
digest. -/
def keptPrevious (sha256 : String) : Read RuntimeReceipt → Option RuntimeArtifact
  | .got receipt => if receipt.current.sha256 = sha256 then receipt.previous else none
  | _ => none

/-- Install a runtime. -/
def installRuntimeFrom (faults : CallFaults) (source : Binary) (world : World Binary) :
    World Binary × Ended RuntimeResult :=
  match binaries.probe source with
  | none => (world, .error "candidate runtime failed fresh-process validation")
  | some version =>
      if version = "" then
        (world, .error "candidate runtime fresh-process validation returned no version")
      else
        match fileSHA256 binaries faults.sourceDigest (some source) with
        | .crashed => (world, .crash)
        | .failed => (world, .error "read source")
        | .absent => (world, .error "read source")
        | .got sha256 =>
            let current : RuntimeArtifact := { version, sha256, path := .destination }
            match fileSHA256 binaries faults.destinationDigest world.destination with
            | .crashed => (world, .crash)
            | .failed => (world, .error "inspect runtime destination")
            | .absent =>
                switchRuntime binaries faults (installTexts "installed") (some source) current none
                  world
            | .got old =>
                match world.destination.bind binaries.probe with
                | none => (world, .error "installed runtime is not safely upgradable")
                | some oldVersion =>
                    if old = sha256 then
                      match readRuntimeReceipt binaries faults.receiptRead world with
                      | .crashed => (world, .crash)
                      | read =>
                          let previous := keptPrevious sha256 read
                          let (world, written) := writeRuntimeReceipt faults.receipt
                            (runtimeReceipt current previous) world
                          match written with
                          | .crash => (world, .crash)
                          | .error message => (world, .error message)
                          | .ok _ => (world, .ok { status := "noop", current, previous })
                    else
                      let artifact : RuntimeArtifact :=
                        { version := oldVersion, sha256 := old, path := .destination }
                      match storeRuntimeBackup binaries faults.backup artifact world with
                      | (world, .crash) => (world, .crash)
                      | (world, .error _) => (world, .error "preserve rollback runtime")
                      | (world, .ok backup) =>
                          switchRuntime binaries faults (installTexts "upgraded") (some source)
                            current (some backup) world

/-- Roll the runtime back. -/
def rollbackRuntime (faults : CallFaults) (world : World Binary) :
    World Binary × Ended RuntimeResult :=
  match readRuntimeReceipt binaries faults.receiptRead world with
  | .crashed => (world, .crash)
  | .absent => (world, .error "read receipt")
  | .failed => (world, .error "read receipt")
  | .got receipt =>
      match receipt.previous with
      | none => (world, .error "no verified rollback runtime is available")
      | some previous =>
          if receipt.schemaVersion ≠ runtimeReceiptSchemaVersion then
            (world, .error "no verified rollback runtime is available")
          else
            match verifyRuntimeArtifact binaries faults.destinationDigest receipt.current world with
            | .crash => (world, .crash)
            | .error _ => (world, .error "current runtime does not match install receipt")
            | .ok _ =>
                match verifyRuntimeArtifact binaries faults.previousDigest previous world with
                | .crash => (world, .crash)
                | .error _ => (world, .error "rollback runtime does not match install receipt")
                | .ok _ =>
                    match storeRuntimeBackup binaries faults.backup receipt.current world with
                    | (world, .crash) => (world, .crash)
                    | (world, .error message) => (world, .error message)
                    | (world, .ok backup) =>
                        switchRuntime binaries faults rollbackTexts (world.at_ previous.path)
                          { previous with path := .destination } (some backup) world

/-- The calls. -/
inductive Call (Binary : Type) where
  | install (source : Binary)
  | rollback

/-- Make a call. -/
def Call.run (faults : CallFaults) (world : World Binary) :
    Call Binary → World Binary × Ended RuntimeResult
  | .install source => installRuntimeFrom binaries faults source world
  | .rollback => rollbackRuntime binaries faults world

end Calls

end Install

end Dagrail
