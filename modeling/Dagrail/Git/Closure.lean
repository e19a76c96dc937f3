import Mathlib.Data.List.Infix
import Dagrail.Git.Reader

/-!
# The closure of Git artifacts

A manifest declares objects and the refs that retain them. A report says for each of them whether
the repository has it as declared (`internal/gitartifact/gitartifact.go`): refs are peeled, commits
are compared with their raw bytes, and an object is retained by a ref through the raw graph of
parents.
-/

namespace Dagrail

namespace Git

/-! ### The manifest -/

/-- An object that is expected. -/
structure ObjectExpectation where
  name : Bytes
  oid : Bytes
  type : ObjectType
  tree : Bytes := []
  parents : List Bytes := []
  retainedBy : List Bytes
deriving DecidableEq

/-- A ref that is expected. -/
structure RefExpectation where
  name : Bytes
  oid : Bytes
  peeled : Bytes := []
deriving DecidableEq

/-- The manifest of a closure. -/
structure ClosureManifest where
  apiVersion : String := "dagrail.io/git-artifact-closure/v1alpha1"
  kind : String := "GitArtifactClosure"
  objects : List ObjectExpectation
  refs : List RefExpectation

/-- Is the text the full name of a ref? -/
def validFullRefName (value : Bytes) : Bool :=
  (ascii "refs/").isPrefixOf value && !(ascii "/").isSuffixOf value
    && !(ascii ".").isSuffixOf value
    && !([ascii "..", ascii "@\x7b", ascii "//"].any fun part => decide (part <:+: value))
    && !([ascii " ", ascii "~", ascii "^", ascii ":", ascii "?", ascii "*", ascii "[",
      ascii "\\"].any fun part => decide (part <:+: value))
    && (value.all fun byte => 0x20 ≤ byte && byte ≠ 0x7f)
    && ((value.splitOn 47).all fun component =>
      component ≠ [] && !(ascii ".").isPrefixOf component
        && !(ascii ".lock").isSuffixOf component)

/-- Check the refs of a manifest, after refs with the names. -/
def validateRefs : List Bytes → List RefExpectation → Fallible (List Bytes)
  | names, [] => .ok names
  | names, ref :: refs => do
      check (validFullRefName ref.name && ref.name.length ≤ 1024 && !names.contains ref.name
          && validOID ref.oid && (ref.peeled = [] || validOID ref.peeled))
        "artifact closure refs must be unique full refs with exact object IDs"
      validateRefs (ref.name :: names) refs

/-- Check the refs that retain an object, after some of them. -/
def validateRetaining (refs : List Bytes) : List Bytes → List Bytes → Fallible Unit
  | _, [] => .ok ()
  | seen, ref :: rest => do
      check (refs.contains ref && !seen.contains ref)
        "object has an unknown or duplicate retaining ref"
      validateRetaining refs (ref :: seen) rest

/-- Check the objects of a manifest, after objects with the IDs. -/
def validateObjects (refs : List Bytes) : List Bytes → List ObjectExpectation → Fallible Unit
  | _, [] => .ok ()
  | oids, object :: objects => do
      check (object.name ≠ [] && object.name.length ≤ 128 && validOID object.oid
          && !oids.contains object.oid && object.type ≠ .blob && object.retainedBy ≠ [])
        ("artifact closure objects require unique IDs, bounded names, supported types and "
          ++ "retaining refs")
      check (object.type ≠ .commit || (validOID object.tree && object.parents.length ≤ 64))
        "commit expectations require a tree and at most 64 ordered parents"
      check (object.type = .commit || (object.tree = [] && object.parents = []))
        "only commit expectations may declare a tree or parents"
      check (object.parents.all validOID) "commit parent is not an exact object ID"
      validateRetaining refs [] object.retainedBy
      validateObjects refs (object.oid :: oids) objects

/-- Check a manifest. -/
def validateManifest (manifest : ClosureManifest) : Fallible Unit := do
  check (manifest.apiVersion = "dagrail.io/git-artifact-closure/v1alpha1"
      && manifest.kind = "GitArtifactClosure")
    "artifact closure manifest must be dagrail.io/git-artifact-closure/v1alpha1 GitArtifactClosure"
  check (manifest.objects ≠ [] && manifest.objects.length ≤ 256 && manifest.refs ≠ []
      && manifest.refs.length ≤ 256)
    "artifact closure manifest requires 1..256 objects and refs"
  let refs ← validateRefs [] manifest.refs
  validateObjects refs [] manifest.objects

/-! ### Commands -/

/-- A repository and what `git for-each-ref` lists for some names. -/
structure GitRefs where
  repo : Repo
  listed : List Bytes → List (Bytes × Bytes)
  listed_exact : ∀ names row, row ∈ listed names → repo.ref row.1 = some row.2
  listed_all : ∀ names name oid, name ∈ names → repo.ref name = some oid →
    (name, oid) ∈ listed names
  listed_plain : ∀ names row, row ∈ listed names →
    (nul ∉ row.1 ∧ newline ∉ row.1) ∧ nul ∉ row.2 ∧ newline ∉ row.2

/-- The line of a listed ref. -/
def refLine (row : Bytes × Bytes) : Bytes :=
  row.1 ++ nul :: row.2

/-- The lines of an output. -/
def outputLines (output : Bytes) : List Bytes :=
  (if output.getLast? = some newline then output.dropLast else output).splitOn newline

/-- Read the lines of listed refs. -/
def refLines : (Bytes → Bytes) → List Bytes → Fallible (Bytes → Bytes)
  | refs, [] => .ok refs
  | refs, line :: lines =>
      if line = [] then refLines refs lines
      else
        match line.splitOn nul with
        | [name, oid] => do
            check (validFullRefName name && validOID oid)
              "git for-each-ref returned malformed bounded output"
            refLines (Function.update refs name oid) lines
        | _ => .error "git for-each-ref returned malformed bounded output"

/-- The IDs of the expected refs. -/
def GitRefs.readRefs (git : GitRefs) (expected : List RefExpectation) :
    Fallible (Bytes → Bytes) := do
  let rows := git.listed (expected.map RefExpectation.name)
  let output ← gitContext "for-each-ref" (terminated newline (rows.map refLine))
  refLines (fun _ => []) (outputLines output)

/-- The line of `git cat-file --batch-check` for an ID. -/
def Repo.typeLine (repo : Repo) (oid : Bytes) : Bytes :=
  match repo.object oid with
  | none => spaced [oid, ascii "missing"]
  | some object => spaced [oid, object.type.text, decimal object.data.length]

/-- Read the lines of types. -/
def typeLines : (Bytes → Option ObjectType) → List (ObjectExpectation × Bytes) →
    Fallible (Bytes → Option ObjectType)
  | types, [] => .ok types
  | types, (expected, line) :: lines =>
      match fields line with
      | [oid, word] =>
          if oid = expected.oid ∧ word = ascii "missing" then typeLines types lines
          else .error "git cat-file returned a malformed type batch"
      | [oid, word, _] => do
          check (oid = expected.oid) "git cat-file returned a malformed type batch"
          let type ← need (ObjectType.ofText word) "git cat-file returned a malformed type batch"
          typeLines (Function.update types oid (some type)) lines
      | _ => .error "git cat-file returned a malformed type batch"

/-- The types of the expected objects. -/
def Repo.readObjectTypes (repo : Repo) (expected : List ObjectExpectation) :
    Fallible (Bytes → Option ObjectType) := do
  let output ← gitContext "cat-file"
    (terminated newline (expected.map fun object => repo.typeLine object.oid))
  let lines := outputLines output
  check (lines.length = expected.length) "git cat-file returned an incomplete type batch"
  typeLines (fun _ => none) (expected.zip lines)

/-! ### The raw graph -/

/-- The object behind tags, after tags that were seen. -/
def peelRawObject (repo : Repo) : Nat → List Bytes → Reader → Bytes →
    Option (Reader × Fallible (Bytes × ObjectType))
  | 0, _, reader, _ => some (reader, .error "raw Git tag chain exceeds 32 objects")
  | depth + 1, seen, reader, oid =>
      if oid ∈ seen then some (reader, .error "raw Git tag chain contains a cycle")
      else do
        let (reader, result) ← reader.read repo oid
        match result with
        | .error message => some (reader, .error message)
        | .ok object =>
            if object.type ≠ .tag then some (reader, .ok (oid, object.type))
            else
              match parseRawTagTarget object.data with
              | .error message => some (reader, .error message)
              | .ok target => peelRawObject repo depth (oid :: seen) reader target

/-- The largest depth of a chain of tags. -/
def maxTagDepth : Nat := 32

/-- Collect commits and their ancestors. There is no outcome when the fuel is used up. -/
def collectCommits (repo : Repo) : Nat → List Bytes → Reader → List Bytes →
    Option (Reader × Fallible (List Bytes))
  | 0, _, _, _ => none
  | _ + 1, found, reader, [] => some (reader, .ok found)
  | fuel + 1, found, reader, current :: queue =>
      if current ∈ found then collectCommits repo fuel found reader queue
      else do
        let (reader, result) ← reader.commit repo current
        match result with
        | .error message => some (reader, .error message)
        | .ok commit =>
            collectCommits repo fuel (current :: found) reader (commit.parents.reverse ++ queue)

/-- A commit and its ancestors. -/
def rawCommitClosure (repo : Repo) (fuel : Nat) (reader : Reader) (target : Bytes) :
    Option (Reader × Fallible (List Bytes)) :=
  if target = [] then some (reader, .ok []) else collectCommits repo fuel [] reader [target]

/-! ### The report -/

/-- What the report says of a ref. -/
structure RefResult where
  name : Bytes
  oid : Bytes
  peeled : Bytes := []
  valid : Bool := true
  reasons : List Bytes := []
deriving DecidableEq

/-- What the report says of an object. -/
structure ObjectResult where
  name : Bytes
  oid : Bytes
  type : Option ObjectType
  retainedBy : List Bytes := []
  valid : Bool := true
  reasons : List Bytes := []
deriving DecidableEq

/-- The report on a closure. -/
structure ClosureReport where
  valid : Bool
  objects : List ObjectResult
  refs : List RefResult
deriving DecidableEq

/-- Refuse a ref for a reason, if the condition fails. -/
def RefResult.demand (result : RefResult) (holds : Bool) (reason : Bytes) : RefResult :=
  if holds then result
  else { result with valid := false, reasons := result.reasons ++ [reason] }

/-- Refuse an object for a reason, if the condition fails. -/
def ObjectResult.demand (result : ObjectResult) (holds : Bool) (reason : Bytes) : ObjectResult :=
  if holds then result
  else { result with valid := false, reasons := result.reasons ++ [reason] }

/-- What is said of a ref, and the object that it was peeled to. -/
def verifyRef (repo : Repo) (refValues : Bytes → Bytes) (reader : Reader)
    (expected : RefExpectation) : Option (Reader × RefResult × Bytes) :=
  let result : RefResult := { name := expected.name, oid := refValues expected.name }
  if result.oid = [] then some (reader, result.demand false (ascii "ref_missing"), [])
  else do
    let result := result.demand (result.oid = expected.oid) (ascii "ref_oid_mismatch")
    let (reader, found) ← peelRawObject repo maxTagDepth [] reader result.oid
    match found with
    | .error _ => some (reader, result.demand false (ascii "ref_peel_failed"), [])
    | .ok (peeled, _) =>
        let result := if expected.peeled ≠ [] then { result with peeled } else result
        let result := result.demand (expected.peeled = [] || peeled = expected.peeled)
          (ascii "ref_peeled_mismatch")
        some (reader, result, peeled)

/-- What is said of the refs. -/
def verifyRefs (repo : Repo) (refValues : Bytes → Bytes) : Reader → List RefExpectation →
    Option (Reader × List (RefResult × Bytes))
  | reader, [] => some (reader, [])
  | reader, expected :: rest => do
      let (reader, result) ← verifyRef repo refValues reader expected
      let (reader, results) ← verifyRefs repo refValues reader rest
      some (reader, result :: results)

/-- The reader, the ancestors that were collected, and what is said of an object. -/
structure Retaining where
  reader : Reader
  ancestorSets : Bytes → Option (List Bytes)
  result : ObjectResult

/-- The ancestors of a target, collected once. -/
def ancestorsOf (repo : Repo) (fuel : Nat) (reader : Reader)
    (ancestorSets : Bytes → Option (List Bytes)) (target : Bytes) :
    Option (Reader × (Bytes → Option (List Bytes)) × List Bytes) :=
  match ancestorSets target with
  | some ancestors => some (reader, ancestorSets, ancestors)
  | none => do
      let (reader, result) ← rawCommitClosure repo fuel reader target
      let ancestors :=
        match result with
        | .ok found => found
        | .error _ => []
      some (reader, Function.update ancestorSets target (some ancestors), ancestors)

/-- Say that an object is retained by a ref, or that it is not. -/
def ObjectResult.retain (result : ObjectResult) (retained : Bool) (refName : Bytes) :
    ObjectResult :=
  if retained then { result with retainedBy := result.retainedBy ++ [refName] }
  else result.demand false (ascii "object_not_retained_by:" ++ refName)

/-- Is an object retained by a ref? -/
def retainedByRef (repo : Repo) (fuel : Nat) (manifest : ClosureManifest)
    (refs : List (RefResult × Bytes)) (expected : ObjectExpectation) (state : Retaining)
    (refName : Bytes) : Option Retaining :=
  match refs.find? fun ref => ref.1.name = refName with
  | none =>
      some { state with
        result := state.result.demand false (ascii "retaining_ref_invalid:" ++ refName) }
  | some (refResult, target) =>
      if refResult.valid = false then
        some { state with
          result := state.result.demand false (ascii "retaining_ref_invalid:" ++ refName) }
      else
        match expected.type with
        | .commit => do
            let (reader, ancestorSets, ancestors) ←
              ancestorsOf repo fuel state.reader state.ancestorSets target
            some
              { reader, ancestorSets
                result := state.result.retain (ancestors.contains expected.oid) refName }
        | .tag =>
            some { state with
              result := state.result.retain (refResult.oid = expected.oid) refName }
        | .tree =>
            let retained := manifest.objects.any fun commit =>
              commit.type = .commit && commit.tree = expected.oid
                && commit.retainedBy.contains refName
            some { state with result := state.result.retain retained refName }
        | .blob => some { state with result := state.result.retain false refName }

/-- Is an object retained by all refs? -/
def retainedByRefs (repo : Repo) (fuel : Nat) (manifest : ClosureManifest)
    (refs : List (RefResult × Bytes)) (expected : ObjectExpectation) :
    Retaining → List Bytes → Option Retaining
  | state, [] => some state
  | state, refName :: refNames => do
      let state ← retainedByRef repo fuel manifest refs expected state refName
      retainedByRefs repo fuel manifest refs expected state refNames

/-- What is said of the content of an object. -/
def verifyContent (repo : Repo) (objectTypes : Bytes → Option ObjectType) (reader : Reader)
    (expected : ObjectExpectation) : Option (Reader × ObjectResult) :=
  let type := objectTypes expected.oid
  let result : ObjectResult := { name := expected.name, oid := expected.oid, type }
  let result := result.demand type.isSome (ascii "object_missing")
  let result := result.demand (type.isNone || type = some expected.type)
    (ascii "object_type_mismatch")
  if expected.type = .commit ∧ type = some .commit then do
    let (reader, found) ← reader.commit repo expected.oid
    let result := result.demand
      (match found with
      | .ok commit => commit.tree = expected.tree
      | .error _ => false) (ascii "commit_tree_mismatch")
    let result := result.demand
      (match found with
      | .ok commit => commit.parents = expected.parents
      | .error _ => false) (ascii "commit_parent_order_mismatch")
    some (reader, result)
  else some (reader, result)

/-- Texts in order. -/
def sortBytes (texts : List Bytes) : List Bytes :=
  texts.mergeSort fun left right => decide (left ≤ right)

/-- What is said of the objects. -/
def verifyObjects (repo : Repo) (fuel : Nat) (manifest : ClosureManifest)
    (objectTypes : Bytes → Option ObjectType) (refs : List (RefResult × Bytes)) :
    Reader → (Bytes → Option (List Bytes)) → List ObjectExpectation → Option (List ObjectResult)
  | _, _, [] => some []
  | reader, ancestorSets, expected :: rest => do
      let (reader, result) ← verifyContent repo objectTypes reader expected
      let state ← retainedByRefs repo fuel manifest refs expected { reader, ancestorSets, result }
        expected.retainedBy
      let results ← verifyObjects repo fuel manifest objectTypes refs state.reader
        state.ancestorSets rest
      let result :=
        { state.result with
          retainedBy := sortBytes state.result.retainedBy
          reasons := sortBytes state.result.reasons }
      some (result :: results)

/-- Verify a manifest that was checked, with the outputs of the commands. -/
def GitRefs.report (git : GitRefs) (fuel : Nat) (manifest : ClosureManifest)
    (refValues : Bytes → Bytes) (objectTypes : Bytes → Option ObjectType) :
    Option ClosureReport := do
  let (reader, refs) ← verifyRefs git.repo refValues {} manifest.refs
  let objects ← verifyObjects git.repo fuel manifest objectTypes refs reader (fun _ => none)
    manifest.objects
  some
    { valid := refs.all (fun ref => ref.1.valid) && objects.all ObjectResult.valid
      objects, refs := refs.map Prod.fst }

/-- Check a manifest and read the outputs of the commands. -/
def GitRefs.readOutputs (git : GitRefs) (manifest : ClosureManifest) :
    Fallible ((Bytes → Bytes) × (Bytes → Option ObjectType)) := do
  validateManifest manifest
  let refValues ← git.readRefs manifest.refs
  let objectTypes ← git.repo.readObjectTypes manifest.objects
  .ok (refValues, objectTypes)

/-- Verify a manifest. There is no outcome when the reader waits for bytes that do not come, and
when the fuel is used up. -/
def GitRefs.verify (git : GitRefs) (fuel : Nat) (manifest : ClosureManifest) :
    Option (Fallible ClosureReport) :=
  match git.readOutputs manifest with
  | .error message => some (.error message)
  | .ok (refValues, objectTypes) =>
      (git.report fuel manifest refValues objectTypes).map .ok

end Git

end Dagrail
