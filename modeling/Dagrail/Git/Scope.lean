import Mathlib.Data.List.Dedup
import Mathlib.Tactic.SplitIfs
import Dagrail.Git.Reader

/-!
# The scope of an integration

`git diff` names the paths at which two trees differ, and `git ls-tree` lists a tree. The scope of
an integration puts every path at which the trees of four commits differ into a class, by the
entries that the four trees have there (`internal/gitartifact/gitartifact.go`). It is closed when
what was integrated is what a merge gives.
-/

namespace Dagrail

namespace Git

/-! ### Trees -/

/-- The tabulator. -/
def tab : UInt8 := 9

/-- The entry of a tree at a path. -/
structure TreeEntry where
  mode : Bytes := []
  oid : Bytes := []
deriving DecidableEq

/-- A line of the listing of a tree. -/
structure TreeRow where
  path : Bytes
  type : ObjectType
  entry : TreeEntry
deriving DecidableEq

/-- The record of a line. -/
def TreeRow.record (row : TreeRow) : Bytes :=
  spaced [row.entry.mode, row.type.text, row.entry.oid] ++ tab :: row.path

/-- Is the line one that git writes? -/
structure TreeRow.WellFormed (row : TreeRow) : Prop where
  some_path : row.path ≠ []
  path_free : nul ∉ row.path
  mode_length : row.entry.mode.length = 6
  mode_word : IsWord row.entry.mode
  mode_free : nul ∉ row.entry.mode
  oid_valid : validOID row.entry.oid = true

/-- The listing of a tree: all its files, under different paths. -/
structure Tree where
  rows : List TreeRow
  wellFormed : ∀ row ∈ rows, row.WellFormed
  paths_nodup : (rows.map TreeRow.path).Nodup

/-- The entry of a tree at a path. -/
def Tree.entry (tree : Tree) (path : Bytes) : Option TreeEntry :=
  (tree.rows.find? fun row => row.path = path).map TreeRow.entry

/-- What git knows: its objects, the trees of commits, and where two of them differ. -/
structure GitTrees where
  repo : Repo
  tree : Bytes → Tree
  diff : Bytes → Bytes → List Bytes
  diff_exact : ∀ left right path,
    path ∈ diff left right ↔ (tree left).entry path ≠ (tree right).entry path

/-! ### Commands -/

/-- `git diff --name-only --no-renames -z`. -/
def GitTrees.diffNames (git : GitTrees) (left right : Bytes) : Fallible Bytes :=
  gitContext "diff" (terminated nul (git.diff left right))

/-- `git ls-tree -r -z --full-tree`. -/
def GitTrees.lsTree (git : GitTrees) (commit : Bytes) : Fallible Bytes :=
  gitContext "ls-tree" (terminated nul ((git.tree commit).rows.map TreeRow.record))

/-! ### The listing of a tree is read -/

/-- The parts of a record in front of the first tabulator and after it. -/
def cutTab : Bytes → Option (Bytes × Bytes)
  | [] => none
  | byte :: bytes =>
      if byte = tab then some ([], bytes)
      else (cutTab bytes).map fun parts => (byte :: parts.1, parts.2)

/-- Read the records of a listing. -/
def treeRecords : (Bytes → Option TreeEntry) → List Bytes → Fallible (Bytes → Option TreeEntry)
  | entries, [] => .ok entries
  | entries, record :: records => do
      let (header, path) ← need (cutTab record) "git tree contains a malformed entry"
      match fields header with
      | [mode, _, oid] => do
          check (path ≠ [] && mode.length = 6 && validOID oid)
            "git tree contains a malformed entry"
          check ((entries path).isNone) "git tree repeats path"
          treeRecords (Function.update entries path (some { mode, oid })) records
      | _ => .error "git tree contains a malformed entry"

/-- Read a listing. -/
def readTree (value : Bytes) : Fallible (Bytes → Option TreeEntry) :=
  if value = [] then .ok fun _ => none
  else do
    check (value.getLast? = some nul) "git tree is not NUL terminated"
    treeRecords (fun _ => none) (value.dropLast.splitOn nul)

/-- The entries of the tree of a commit. -/
def GitTrees.treeEntriesAtCommit (git : GitTrees) (commit : Bytes) :
    Fallible (Bytes → Option TreeEntry) := do
  let value ← git.lsTree commit
  readTree value

/-! ### Classes of paths -/

/-- The classes of paths. -/
inductive ScopeClass where
  | unchangedOrEquivalent
  | targetHistoryOnly
  | candidateOnly
  | candidateResult
  | targetResult
  | conflictResolution
  | unexplainedProspectiveDelta
deriving DecidableEq

/-- The word for a class. -/
def ScopeClass.text : ScopeClass → String
  | .unchangedOrEquivalent => "unchanged_or_equivalent"
  | .targetHistoryOnly => "target_history_only"
  | .candidateOnly => "candidate_only"
  | .candidateResult => "candidate_result"
  | .targetResult => "target_result"
  | .conflictResolution => "conflict_resolution"
  | .unexplainedProspectiveDelta => "unexplained_prospective_delta"

/-- The class of a path at which the trees have the entries. -/
def classifyScope (base candidate target prospective : TreeEntry) : ScopeClass :=
  if candidate = base ∧ target = base ∧ prospective = base then .unchangedOrEquivalent
  else if candidate = base ∧ target ≠ base ∧ prospective = target then .targetHistoryOnly
  else if candidate ≠ base ∧ target = base ∧ prospective = candidate then .candidateOnly
  else if candidate ≠ base ∧ target ≠ base ∧ prospective = candidate then .candidateResult
  else if candidate ≠ base ∧ target ≠ base ∧ prospective = target then .targetResult
  else if candidate ≠ base ∧ target ≠ base ∧ candidate ≠ target ∧ prospective ≠ candidate
      ∧ prospective ≠ target then .conflictResolution
  else .unexplainedProspectiveDelta

/-! ### The report -/

/-- A path of the report: its class and the entries of the four trees. -/
structure ScopeEntry where
  path : Bytes
  class_ : ScopeClass
  base : TreeEntry
  candidate : TreeEntry
  target : TreeEntry
  prospective : TreeEntry
deriving DecidableEq

/-- The report on the scope of an integration. -/
structure ScopeReport where
  base : Bytes
  candidate : Bytes
  target : Bytes
  prospective : Bytes
  closed : Bool
  counts : List (ScopeClass × Nat)
  entries : List ScopeEntry
deriving DecidableEq

/-- Count one more path of a class. -/
def countClass (class_ : ScopeClass) : List (ScopeClass × Nat) → List (ScopeClass × Nat)
  | [] => [(class_, 1)]
  | (other, n) :: counts =>
      if other = class_ then (other, n + 1) :: counts else (other, n) :: countClass class_ counts

/-- Put a path into the report. -/
def ScopeReport.add (report : ScopeReport) (entry : ScopeEntry) : ScopeReport :=
  { report with
    closed := report.closed && entry.class_ ≠ .unexplainedProspectiveDelta
    counts := countClass entry.class_ report.counts
    entries := report.entries ++ [entry] }

/-- Are the bytes a text? -/
def validString (path : Bytes) : Bool :=
  (ByteArray.mk path.toArray).validateUTF8

/-- The longest path. -/
def maxPathBytes : Nat := 4096

/-- The largest number of paths. -/
def maxScopePaths : Nat := 100000

/-- Read the four commits. -/
def readCommits (repo : Repo) : Reader → List Bytes → Option (Reader × Fallible Unit)
  | reader, [] => some (reader, .ok ())
  | reader, identity :: identities =>
      if validOID identity = false then
        some (reader, .error "scope identities must be exact 40- or 64-character Git object IDs")
      else do
        let (reader, result) ← reader.commit repo identity
        match result with
        | .error _ => some (reader, .error "scope identity is not an exact commit object")
        | .ok _ => readCommits repo reader identities

/-- The paths at which the trees of the commits differ. -/
def GitTrees.scopePaths (git : GitTrees) (base candidate target prospective : Bytes) :
    Fallible (List Bytes) := do
  let mine ← git.diffNames base candidate
  let theirs ← git.diffNames base target
  let done ← git.diffNames target prospective
  let names := mine.splitOn nul ++ theirs.splitOn nul ++ done.splitOn nul
  let paths := (names.filter fun path => path ≠ []).dedup
  check (paths.all fun path => validString path && decide (path.length ≤ maxPathBytes))
    "git path is not valid bounded UTF-8"
  check (paths.length ≤ maxScopePaths) "integration scope exceeds 100000 paths"
  .ok (paths.mergeSort fun left right => decide (left ≤ right))

/-- The entry of a path in the report. -/
def scopeEntry (base candidate target prospective : Bytes → Option TreeEntry) (path : Bytes) :
    ScopeEntry :=
  let b := (base path).getD {}
  let c := (candidate path).getD {}
  let t := (target path).getD {}
  let p := (prospective path).getD {}
  { path, class_ := classifyScope b c t p, base := b, candidate := c, target := t
    prospective := p }

/-- The report on four commits that were read. -/
def GitTrees.scopeReport (git : GitTrees) (base candidate target prospective : Bytes) :
    Fallible ScopeReport := do
  let ordered ← git.scopePaths base candidate target prospective
  let baseTree ← git.treeEntriesAtCommit base
  let candidateTree ← git.treeEntriesAtCommit candidate
  let targetTree ← git.treeEntriesAtCommit target
  let prospectiveTree ← git.treeEntriesAtCommit prospective
  let empty : ScopeReport :=
    { base, candidate, target, prospective, closed := true, counts := [], entries := [] }
  let entries := ordered.map (scopeEntry baseTree candidateTree targetTree prospectiveTree)
  .ok (entries.foldl ScopeReport.add empty)

/-- Inspect the scope of an integration. There is no outcome when the reader of commits waits for
bytes that do not come. -/
def GitTrees.inspectScope (git : GitTrees) (base candidate target prospective : Bytes) :
    Option (Fallible ScopeReport) := do
  let (_, read) ← readCommits git.repo {} [base, candidate, target, prospective]
  match read with
  | .error message => some (.error message)
  | .ok _ => some (git.scopeReport base candidate target prospective)

end Git

end Dagrail
