import Dagrail.Git.Closure

/-!
# Reading for a closure

What the reader and the commands read for a closure is what the repository has: the values of refs,
the types of objects, the object behind tags, and the commits that are collected. All of it as long
as the reader stays in step.
-/

namespace Dagrail

namespace Git

/-! ### Outputs of commands -/

/-- The objects on the way of tags. -/
inductive Repo.Chain (repo : Repo) : Bytes → Bytes → Prop where
  | start {oid : Bytes} : Chain repo oid oid
  | tag {oid target last : Bytes} {object : Object} (there : repo.objectAt oid = some object)
      (isTag : object.type = .tag) (names : parseRawTagTarget object.data = .ok target)
      (rest : Chain repo target last) : Chain repo oid last

/-- The object behind at most so many tags, after tags that were seen. -/
def Repo.peelFrom (repo : Repo) : Nat → List Bytes → Bytes → Option Bytes
  | 0, _, _ => none
  | depth + 1, seen, oid =>
      if oid ∈ seen then none
      else
        (repo.objectAt oid).bind fun object =>
          if object.type ≠ .tag then some oid
          else
            match parseRawTagTarget object.data with
            | .error _ => none
            | .ok target => repo.peelFrom depth (oid :: seen) target

/-- The commits that are reached from a commit through parents. -/
inductive Repo.Reaches (repo : Repo) (start : Bytes) : Bytes → Prop where
  | start {commit : RawCommit} (there : repo.commitAt start = some commit) :
      Reaches repo start start
  | parent {oid parent : Bytes} {commit next : RawCommit} (reached : Reaches repo start oid)
      (there : repo.commitAt oid = some commit) (isParent : parent ∈ commit.parents)
      (known : repo.commitAt parent = some next) : Reaches repo start parent

end Git

end Dagrail
