import Mathlib.Data.List.Forall2
import Dagrail.Git.ClosureReads

/-!
# When reports on closures are truthful

A report is truthful when whatever it calls valid is so in the repository. Refs, commits and tags
are compared with what was read. A tree is said to be retained when an entry of the manifest
declares a commit with the tree, and nothing compares that entry with the commit it names: the
report is truthful exactly when every tree that is backed so is the tree of a retained commit. An
object that is too large to be read leaves its bytes on the stream, so the result is about objects
that can be read.
-/

namespace Dagrail

namespace Git

/-! ### What a report says -/

/-- The ref of a name that the manifest expects. -/
def ClosureManifest.expectedRef (manifest : ClosureManifest) (refName : Bytes) :
    Option RefExpectation :=
  manifest.refs.find? fun ref => ref.name = refName

/-- The ref is as declared, and the object is behind it. -/
def Repo.RefChecked (repo : Repo) (expected : RefExpectation) (peeled : Bytes) : Prop :=
  repo.ref expected.name = some expected.oid
    ∧ repo.peelFrom maxTagDepth [] expected.oid = some peeled
    ∧ (expected.peeled = [] ∨ peeled = expected.peeled)

/-- The named ref is as declared, and an entry of the manifest declares a commit with the tree to be
retained by it. -/
def ClosureManifest.Backs (manifest : ClosureManifest) (repo : Repo) (refName tree : Bytes) :
    Prop :=
  (∃ ref peeled, manifest.expectedRef refName = some ref ∧ repo.RefChecked ref peeled)
    ∧ ∃ commit ∈ manifest.objects,
      commit.type = .commit ∧ commit.tree = tree ∧ refName ∈ commit.retainedBy

@[simp]
theorem RefResult.demand_valid
    (result : RefResult) (holds : Bool) (reason : Bytes) :
  (result.demand holds reason).valid = (result.valid && holds)
  := by
  cases holds <;> simp [demand]

@[simp]
theorem RefResult.demand_name
    (result : RefResult) (holds : Bool) (reason : Bytes) :
  (result.demand holds reason).name = result.name
  := by
  cases holds <;> rfl

@[simp]
theorem ObjectResult.demand_valid
    (result : ObjectResult) (holds : Bool) (reason : Bytes) :
  (result.demand holds reason).valid = (result.valid && holds)
  := by
  cases holds <;> simp [demand]

/-- The sets of ancestors that were collected are right. -/
def AncestorsSound (repo : Repo) (ancestorSets : Bytes → Option (List Bytes)) : Prop :=
  ∀ target ancestors, ancestorSets target = some ancestors →
    ∀ oid ∈ ancestors, repo.Reaches target oid

/-- A further set of ancestors that is right. -/
theorem AncestorsSound.update
    {repo : Repo} {ancestorSets : Bytes → Option (List Bytes)}
    (sound : AncestorsSound repo ancestorSets) {target : Bytes} {ancestors : List Bytes}
    (reached : ∀ oid ∈ ancestors, repo.Reaches target oid) :
  AncestorsSound repo (Function.update ancestorSets target (some ancestors))
  := by
  intro other found same
  by_cases own : other = target
  · subst own
    rw [Function.update_self] at same
    obtain rfl := Option.some.inj same
    exact reached
  · rw [Function.update_of_ne own] at same
    exact sound other found same

namespace ClosureSample

/-- An object ID. -/
def oid (digit : Char) : Bytes :=
  List.replicate 40 (UInt8.ofNat digit.toNat)

/-- The only ref. -/
def main : Bytes := ascii "refs/heads/main"

/-- A commit with the tree `a`, and the trees `a` and `b`. -/
def repo : Repo where
  object id :=
    if id = oid '1' then
      some { type := .commit, data := ascii "tree " ++ oid 'a' ++ ascii "\n\nsample" }
    else if id = oid 'a' ∨ id = oid 'b' then some { type := .tree, data := [] }
    else none
  ref name := if name = main then some (oid '1') else none

/-- The repository and its ref. -/
def git : GitRefs where
  repo
  listed names := if main ∈ names then [(main, oid '1')] else []
  listed_exact names row mem := by
    split_ifs at mem
    · obtain rfl := List.mem_singleton.mp mem
      simp [repo]
    · cases mem
  listed_all names name value isIn named := by
    simp only [repo] at named
    split_ifs at named with own
    subst own
    rw [if_pos isIn, ← Option.some.inj named]
    exact List.mem_singleton_self _
  listed_plain names row mem := by
    split_ifs at mem
    · obtain rfl := List.mem_singleton.mp mem
      decide
    · cases mem

/-- A manifest of the commit, which is said to have the tree, and of the tree. -/
def manifest (tree : Bytes) : ClosureManifest where
  objects :=
    [{ name := ascii "commit", oid := oid '1', type := .commit, tree, retainedBy := [main] },
      { name := ascii "tree", oid := tree, type := .tree, retainedBy := [main] }]
  refs := [{ name := main, oid := oid '1' }]

/-- All objects can be read. -/
theorem small
    (id : Bytes) :
  repo.Small id
  := by
  intro object there
  rw [Repo.objectAt] at there
  split_ifs at there
  simp only [repo] at there
  split_ifs at there
  · rw [← Option.some.inj there]
    decide +kernel
  · rw [← Option.some.inj there]
    decide +kernel

end ClosureSample

end Git

end Dagrail
