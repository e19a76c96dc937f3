import Mathlib.Data.List.Perm.Subperm
import Dagrail.Git.Scope

/-!
# The scope of an integration is exact

The outputs of git are read back as the trees and the paths they list. So a report has every path at
which the trees of the four commits differ, once, and is closed exactly when every entry of the
prospective tree is explained by a three-way merge. A report is refused only for a commit or an
output that is too large, and for paths that are not bounded texts or are too many.
-/

namespace Dagrail

namespace Git

/-! ### The listing of a tree reads back -/

/-- The first tabulator of a record is behind its header. -/
theorem cutTab_append
    {header : Bytes} (free : tab ∉ header) (path : Bytes) :
  cutTab (header ++ tab :: path) = some (header, path)
  := by
  induction header with
  | nil => simp [cutTab]
  | cons byte header ih =>
      rw [List.mem_cons, not_or] at free
      rw [List.cons_append, cutTab, if_neg (Ne.symm free.1), ih free.2]
      rfl

/-- The words of the header of a record. -/
theorem TreeRow.WellFormed.words
    {row : TreeRow} (wellFormed : row.WellFormed) :
  ∀ word ∈ [row.entry.mode, row.type.text, row.entry.oid], IsWord word
  := by
  simp only [List.forall_mem_cons, List.not_mem_nil, IsEmpty.forall_iff, implies_true, and_true]
  exact ⟨wellFormed.mode_word, isWord_text row.type, isWord_of_validOID wellFormed.oid_valid⟩

/-- A record has no NUL. -/
theorem TreeRow.WellFormed.record_free
    {row : TreeRow} (wellFormed : row.WellFormed) :
  nul ∉ row.record
  := by
  rw [TreeRow.record, List.mem_append, List.mem_cons, not_or, not_or]
  refine ⟨not_mem_spaced ?_ (by decide), by decide, wellFormed.path_free⟩
  simp only [List.forall_mem_cons, List.not_mem_nil, IsEmpty.forall_iff, implies_true, and_true]
  refine ⟨wellFormed.mode_free, ?_, nul_not_mem_oid wellFormed.oid_valid⟩
  cases row.type <;> decide

/-- The records of well-formed lines under different paths are read back. -/
theorem treeRecords_records
    {rows : List TreeRow} (wellFormed : ∀ row ∈ rows, row.WellFormed)
    (nodup : (rows.map TreeRow.path).Nodup) (entries : Bytes → Option TreeEntry)
    (fresh : ∀ row ∈ rows, entries row.path = none) :
  treeRecords entries (rows.map TreeRow.record)
    = .ok fun path => ((rows.find? fun row => row.path = path).map TreeRow.entry).or (entries path)
  := by
  induction rows generalizing entries with
  | nil => rfl
  | cons row rows ih =>
      obtain ⟨first, wellFormed⟩ := List.forall_mem_cons.mp wellFormed
      obtain ⟨new, fresh⟩ := List.forall_mem_cons.mp fresh
      rw [List.map_cons, List.nodup_cons] at nodup
      have cut : cutTab row.record
          = some (spaced [row.entry.mode, row.type.text, row.entry.oid], row.path) := by
        apply cutTab_append
        exact blank_not_mem_spaced first.words (by decide) (by decide)
      have later : ∀ other ∈ rows,
          Function.update entries row.path (some row.entry) other.path = none := by
        intro other mem
        have apart : other.path ≠ row.path := by
          intro same
          exact nodup.1 (same ▸ List.mem_map_of_mem mem)
        rw [Function.update_of_ne apart]
        exact fresh other mem
      have rest := ih wellFormed nodup.2 _ later
      simp only [List.map_cons, treeRecords, cut, need, ok_bind, fields_spaced first.words]
      have shape :
          (row.path ≠ [] && row.entry.mode.length = 6 && validOID row.entry.oid) = true := by
        simp [first.some_path, first.mode_length, first.oid_valid]
      simp only [shape, new, Option.isNone_none, check, if_true, ok_bind]
      refine rest.trans ?_
      congr 1
      funext path
      by_cases own : row.path = path
      · subst own
        have none_ : rows.find? (fun other => other.path = row.path) = none := by
          rw [List.find?_eq_none]
          intro other mem same
          exact nodup.1 (of_decide_eq_true same ▸ List.mem_map_of_mem mem)
        simp [none_]
      · have apart : path ≠ row.path := Ne.symm own
        simp [own, Function.update_of_ne apart]

/-- The listing of a commit that is not too much. -/
def GitTrees.TreeBounded (git : GitTrees) (commit : Bytes) : Prop :=
  (terminated nul ((git.tree commit).rows.map TreeRow.record)).length ≤ maxGitOutputBytes

/-- A listing reads back as its tree. -/
theorem readTree_terminated
    (tree : Tree) :
  readTree (terminated nul (tree.rows.map TreeRow.record)) = .ok tree.entry
  := by
  have fresh : ∀ row ∈ tree.rows, (fun _ : Bytes => (none : Option TreeEntry)) row.path = none :=
    fun _ _ => rfl
  have all := treeRecords_records tree.wellFormed tree.paths_nodup (fun _ => none) fresh
  simp only [Option.or_none] at all
  have free : ∀ record ∈ tree.rows.map TreeRow.record, nul ∉ record := by
    intro record mem
    obtain ⟨row, isRow, rfl⟩ := List.mem_map.mp mem
    exact (tree.wellFormed row isRow).record_free
  unfold readTree
  by_cases empty : tree.rows.map TreeRow.record = []
  · rw [empty] at all ⊢
    exact all
  · have more : terminated nul (tree.rows.map TreeRow.record) ≠ [] := by
      intro nothing
      have last := getLast?_terminated nul empty
      rw [nothing] at last
      cases last
    rw [if_neg more, getLast?_terminated nul empty, splitOn_dropLast_terminated free empty]
    simp only [check, decide_true, if_true, ok_bind]
    exact all

/-- The tree of a commit is read from its listing. -/
theorem GitTrees.treeEntriesAtCommit_eq_ok
    {git : GitTrees} {commit : Bytes} {entries : Bytes → Option TreeEntry} :
  git.treeEntriesAtCommit commit = .ok entries
    ↔ git.TreeBounded commit ∧ (git.tree commit).entry = entries
  := by
  unfold treeEntriesAtCommit lsTree
  rw [bind_eq_ok]
  constructor
  · rintro ⟨value, output, read⟩
    obtain ⟨bounded, rfl⟩ := gitContext_eq_ok.mp output
    rw [readTree_terminated] at read
    exact ⟨bounded, Except.ok.inj read⟩
  · rintro ⟨bounded, rfl⟩
    exact ⟨_, gitContext_eq_ok.mpr ⟨bounded, rfl⟩, readTree_terminated _⟩

/-! ### The paths -/

/-- An entry of a tree is at a path of it. -/
theorem Tree.path_of_entry
    {tree : Tree} {path : Bytes} {entry : TreeEntry} (there : tree.entry path = some entry) :
  path ≠ [] ∧ nul ∉ path ∧ entry.mode ≠ []
  := by
  obtain ⟨row, found, rfl⟩ := Option.map_eq_some_iff.mp there
  have same : row.path = path := by simpa using List.find?_some found
  have wellFormed := tree.wellFormed row (List.mem_of_find?_eq_some found)
  subst same
  refine ⟨wellFormed.some_path, wellFormed.path_free, fun empty => ?_⟩
  have length := wellFormed.mode_length
  rw [empty] at length
  exact absurd length (by decide)

/-- Two trees differ at paths only. -/
theorem GitTrees.path_of_mem_diff
    {git : GitTrees} {left right path : Bytes} (mem : path ∈ git.diff left right) :
  path ≠ [] ∧ nul ∉ path
  := by
  rw [git.diff_exact] at mem
  cases first : (git.tree left).entry path with
  | some entry =>
      obtain ⟨some_, free, -⟩ := Tree.path_of_entry first
      exact ⟨some_, free⟩
  | none =>
      cases second : (git.tree right).entry path with
      | none => exact absurd (first.trans second.symm) mem
      | some entry =>
          obtain ⟨some_, free, -⟩ := Tree.path_of_entry second
          exact ⟨some_, free⟩

/-- The four commits of an integration. -/
def identities (base candidate target prospective : Bytes) : List Bytes :=
  [base, candidate, target, prospective]

/-- Do some two of the trees have different entries at the path? -/
def GitTrees.Differ (git : GitTrees) (commits : List Bytes) (path : Bytes) : Prop :=
  ∃ left ∈ commits, ∃ right ∈ commits, (git.tree left).entry path ≠ (git.tree right).entry path

/-- Three of the six differences name every path at which some two of the trees differ. -/
theorem GitTrees.differ_iff
    {git : GitTrees} {base candidate target prospective path : Bytes} :
  git.Differ (identities base candidate target prospective) path
    ↔ path ∈ git.diff base candidate ∨ path ∈ git.diff base target
      ∨ path ∈ git.diff target prospective
  := by
  simp only [git.diff_exact]
  constructor
  · rintro ⟨left, inLeft, right, inRight, differ⟩
    by_contra same
    simp only [not_or, not_not] at same
    obtain ⟨mine, theirs, done⟩ := same
    have all : ∀ commit ∈ identities base candidate target prospective,
        (git.tree commit).entry path = (git.tree base).entry path := by
      simp only [identities, List.forall_mem_cons, List.not_mem_nil, IsEmpty.forall_iff,
        implies_true, and_true, true_and]
      exact ⟨mine.symm, theirs.symm, (theirs.trans done).symm⟩
    exact differ ((all left inLeft).trans (all right inRight).symm)
  · rintro (differ | differ | differ)
    · exact ⟨base, by simp [identities], candidate, by simp [identities], differ⟩
    · exact ⟨base, by simp [identities], target, by simp [identities], differ⟩
    · exact ⟨target, by simp [identities], prospective, by simp [identities], differ⟩

/-! ### What is refused -/

/-- Can the reader read the commit? -/
def Repo.Readable (repo : Repo) (commit : Bytes) : Prop :=
  (repo.commitAt commit).isSome ∧ repo.Small commit

/-- The bounds on what git says about four commits. -/
structure GitTrees.ScopeBounded (git : GitTrees) (base candidate target prospective : Bytes) :
    Prop where
  mine : (terminated nul (git.diff base candidate)).length ≤ maxGitOutputBytes
  theirs : (terminated nul (git.diff base target)).length ≤ maxGitOutputBytes
  done : (terminated nul (git.diff target prospective)).length ≤ maxGitOutputBytes
  trees : ∀ commit ∈ identities base candidate target prospective, git.TreeBounded commit
  texts : ∀ path, git.Differ (identities base candidate target prospective) path →
    validString path = true ∧ path.length ≤ maxPathBytes
  count : ∀ paths : List Bytes, paths.Nodup →
    (∀ path ∈ paths, git.Differ (identities base candidate target prospective) path) →
    paths.length ≤ maxScopePaths

/-- The paths that are read from the three differences. -/
def GitTrees.names (git : GitTrees) (base candidate target prospective : Bytes) : List Bytes :=
  ((git.diff base candidate ++ [[]] ++ (git.diff base target ++ [[]])
    ++ (git.diff target prospective ++ [[]])).filter fun path => path ≠ []).dedup

theorem GitTrees.mem_names
    {git : GitTrees} {base candidate target prospective path : Bytes} :
  path ∈ git.names base candidate target prospective
    ↔ git.Differ (identities base candidate target prospective) path
  := by
  have some_ : ∀ left right, path ∈ git.diff left right → path ≠ [] :=
    fun left right mem => (path_of_mem_diff mem).1
  rw [differ_iff, names, List.mem_dedup]
  simp only [List.mem_filter, List.mem_append, List.mem_singleton, ne_eq, decide_eq_true_eq]
  constructor
  · rintro ⟨((mem | empty) | (mem | empty)) | (mem | empty), more⟩
    · exact .inl mem
    · exact absurd empty more
    · exact .inr (.inl mem)
    · exact absurd empty more
    · exact .inr (.inr mem)
    · exact absurd empty more
  · rintro (mem | mem | mem)
    · exact ⟨.inl (.inl (.inl mem)), some_ _ _ mem⟩
    · exact ⟨.inl (.inr (.inl mem)), some_ _ _ mem⟩
    · exact ⟨.inr (.inl mem), some_ _ _ mem⟩

/-- The paths of the report are those at which the trees differ, each once, if they are bounded. -/
theorem GitTrees.scopePaths_eq_ok
    {git : GitTrees} {base candidate target prospective : Bytes} {ordered : List Bytes} :
  git.scopePaths base candidate target prospective = .ok ordered
    ↔ (terminated nul (git.diff base candidate)).length ≤ maxGitOutputBytes
      ∧ (terminated nul (git.diff base target)).length ≤ maxGitOutputBytes
      ∧ (terminated nul (git.diff target prospective)).length ≤ maxGitOutputBytes
      ∧ (∀ path ∈ git.names base candidate target prospective,
        validString path = true ∧ path.length ≤ maxPathBytes)
      ∧ (git.names base candidate target prospective).length ≤ maxScopePaths
      ∧ (git.names base candidate target prospective).mergeSort
        (fun left right => decide (left ≤ right)) = ordered
  := by
  have free : ∀ left right, ∀ path ∈ git.diff left right, nul ∉ path :=
    fun left right path mem => (path_of_mem_diff mem).2
  have split := fun left right => splitOn_terminated (free left right)
  unfold scopePaths diffNames
  simp only [bind_eq_ok, gitContext_eq_ok, exists_and_left, and_assoc, exists_eq_left', check_eq_ok,
    exists_const, split, List.all_eq_true, Bool.and_eq_true, decide_eq_true_eq,
    Except.ok.injEq]
  exact Iff.rfl

/-! ### The report -/

/-- What a three-way merge of two changes of a base gives. There is no result for a conflict. -/
def mergeThreeWay {α : Type} [DecidableEq α] (base candidate target : α) : Option α :=
  if candidate = base then some target
  else if target = base then some candidate
  else if candidate = target then some candidate
  else none

/-- The prospective value is what the merge gives, or both sides changed the base, apart. -/
def Explained {α : Type} [DecidableEq α] (base candidate target prospective : α) : Prop :=
  mergeThreeWay base candidate target = some prospective
    ∨ (candidate ≠ base ∧ target ≠ base ∧ candidate ≠ target)

/-- The class of a path is not explained exactly when its entries are not. -/
theorem classifyScope_ne
    {base candidate target prospective : TreeEntry} :
  classifyScope base candidate target prospective ≠ .unexplainedProspectiveDelta
    ↔ Explained base candidate target prospective
  := by
  unfold classifyScope Explained mergeThreeWay
  by_cases mine : candidate = base
  · by_cases theirs : target = base
    · subst mine theirs
      by_cases done : prospective = target
      · simp [done]
      · simp [done, Ne.symm done]
    · subst mine
      by_cases done : prospective = target
      · simp [done, theirs]
      · simp [done, theirs, Ne.symm done]
  · by_cases theirs : target = base
    · subst theirs
      by_cases done : prospective = candidate
      · simp [done, mine]
      · simp [done, mine, Ne.symm done]
    · by_cases both : candidate = target
      · subst both
        by_cases done : prospective = candidate
        · simp [done, mine]
        · simp [done, mine, Ne.symm done]
      · by_cases first : prospective = candidate
        · simp [first, mine, theirs, both]
        · by_cases second : prospective = target
          · simp [second, mine, theirs, both, Ne.symm both]
          · simp [first, second, mine, theirs, both]

/-- Values that are named one to one are explained as their names are. -/
theorem explained_map
    {α β : Type} [DecidableEq α] [DecidableEq β] {f : α → β} {values : List α}
    (inj : ∀ a ∈ values, ∀ b ∈ values, f a = f b → a = b) {b c t p : α}
    (all : ∀ a ∈ [b, c, t, p], a ∈ values) :
  Explained (f b) (f c) (f t) (f p) ↔ Explained b c t p
  := by
  simp only [List.forall_mem_cons, List.not_mem_nil, IsEmpty.forall_iff, implies_true, and_true]
    at all
  obtain ⟨isB, isC, isT, isP⟩ := all
  have same : ∀ x ∈ values, ∀ y ∈ values, (f x = f y ↔ x = y) :=
    fun x isX y isY => ⟨inj x isX y isY, congrArg f⟩
  unfold Explained mergeThreeWay
  simp only [ne_eq, same c isC b isB, same t isT b isB, same c isC t isT]
  split_ifs
  · simp only [Option.some.injEq, same t isT p isP]
  · simp only [Option.some.injEq, same c isC p isP]
  · simp only [Option.some.injEq, same c isC p isP]
  · rfl

/-- A report counts each path once. -/
theorem sum_countClass
    (class_ : ScopeClass) (counts : List (ScopeClass × Nat)) :
  ((countClass class_ counts).map Prod.snd).sum = (counts.map Prod.snd).sum + 1
  := by
  induction counts with
  | nil => rfl
  | cons entry counts ih =>
      obtain ⟨other, n⟩ := entry
      rw [countClass]
      split_ifs
      · simp only [List.map_cons, List.sum_cons]
        omega
      · simp only [List.map_cons, List.sum_cons, ih]
        omega

/-- What a report says after more paths. -/
theorem ScopeReport.foldl_add
    (report : ScopeReport) (entries : List ScopeEntry) :
  (entries.foldl add report).entries = report.entries ++ entries
    ∧ ((entries.foldl add report).counts.map Prod.snd).sum
      = (report.counts.map Prod.snd).sum + entries.length
    ∧ (entries.foldl add report).closed
      = (report.closed && entries.all fun entry => entry.class_ ≠ .unexplainedProspectiveDelta)
  := by
  induction entries generalizing report with
  | nil => simp
  | cons entry entries ih =>
      obtain ⟨shown, counted, closed⟩ := ih (report.add entry)
      rw [List.foldl_cons, shown, counted, closed]
      refine ⟨?_, ?_, ?_⟩
      · simp [add]
      · simp only [add, sum_countClass, List.length_cons]
        omega
      · simp [add, Bool.and_assoc]

/-- The report of four trees is exact: its paths are those at which some two of them differ, each
once, with the entries of the trees, its counts sum to their number, and it is closed exactly when
every entry of the prospective tree is explained. -/
structure ScopeReport.Exact (report : ScopeReport) (base candidate target prospective : Tree) :
    Prop where
  once : (report.entries.map ScopeEntry.path).Nodup
  covered : ∀ path, path ∈ report.entries.map ScopeEntry.path
    ↔ ∃ left ∈ [base, candidate, target, prospective],
      ∃ right ∈ [base, candidate, target, prospective], left.entry path ≠ right.entry path
  counted : (report.counts.map Prod.snd).sum = report.entries.length
  closed : report.closed = true
    ↔ ∀ path, (∃ tree ∈ [base, candidate, target, prospective], (tree.entry path).isSome) →
      Explained (base.entry path) (candidate.entry path) (target.entry path)
        (prospective.entry path)

/-- The entry of a tree is named one to one by what the report shows of it. -/
theorem Tree.getD_entry_inj
    {left right : Tree} {path : Bytes}
    (same : (left.entry path).getD {} = (right.entry path).getD {}) :
  left.entry path = right.entry path
  := by
  have shown : ∀ (tree : Tree) entry, tree.entry path = some entry → entry ≠ {} := by
    rintro tree entry there rfl
    exact (path_of_entry there).2.2 rfl
  cases first : left.entry path with
  | none =>
      cases second : right.entry path with
      | none => rfl
      | some entry =>
          rw [first, second] at same
          exact absurd same.symm (shown right entry second)
  | some entry =>
      cases second : right.entry path with
      | none =>
          rw [first, second] at same
          exact absurd same (shown left entry first)
      | some other =>
          rw [first, second] at same
          exact congrArg some same

/-- Where the trees agree, the prospective entry is explained. -/
theorem explained_of_same
    {α : Type} [DecidableEq α] (value : α) :
  Explained value value value value
  := by
  simp [Explained, mergeThreeWay]

/-- The report on the paths at which four trees differ is exact. -/
theorem ScopeReport.exact_of_paths
    {base candidate target prospective : Tree} {paths : List Bytes} (nodup : paths.Nodup)
    (covered : ∀ path, path ∈ paths ↔ ∃ left ∈ [base, candidate, target, prospective],
      ∃ right ∈ [base, candidate, target, prospective], left.entry path ≠ right.entry path)
    {report : ScopeReport} (none_ : report.entries = []) (zero : report.counts = [])
    (closed : report.closed = true) :
  ((paths.map (scopeEntry base.entry candidate.entry target.entry prospective.entry)).foldl add
    report).Exact base candidate target prospective
  := by
  obtain ⟨shown, counted, ends⟩ := foldl_add report
    (paths.map (scopeEntry base.entry candidate.entry target.entry prospective.entry))
  rw [none_, List.nil_append] at shown
  have own : (paths.map (scopeEntry base.entry candidate.entry target.entry
      prospective.entry)).map ScopeEntry.path = paths := by
    rw [List.map_map]
    exact List.map_id paths
  -- the class of a path is read off the values that the report shows
  have explained : ∀ path,
      (scopeEntry base.entry candidate.entry target.entry prospective.entry path).class_
          ≠ .unexplainedProspectiveDelta
        ↔ Explained (base.entry path) (candidate.entry path) (target.entry path)
          (prospective.entry path) := by
    intro path
    have inj : ∀ a ∈ [base, candidate, target, prospective].map fun tree => tree.entry path,
        ∀ b ∈ [base, candidate, target, prospective].map fun tree => tree.entry path,
        a.getD {} = b.getD {} → a = b := by
      intro a isA b isB same
      obtain ⟨left, -, rfl⟩ := List.mem_map.mp isA
      obtain ⟨right, -, rfl⟩ := List.mem_map.mp isB
      exact Tree.getD_entry_inj same
    exact classifyScope_ne.trans (explained_map inj fun a mem => mem)
  constructor
  · rw [shown, own]
    exact nodup
  · intro path
    rw [shown, own]
    exact covered path
  · rw [counted, zero, shown]
    simp
  · rw [ends, closed, Bool.true_and, List.all_eq_true]
    simp only [List.forall_mem_map, decide_eq_true_eq, explained]
    constructor
    · rintro all path -
      by_cases mem : path ∈ paths
      · exact all path mem
      · have same := (covered path).not.mp mem
        push Not at same
        have mine := same base (by simp) candidate (by simp)
        have theirs := same base (by simp) target (by simp)
        have done := same base (by simp) prospective (by simp)
        rw [← mine, ← theirs, ← done]
        exact explained_of_same _
    · intro all path mem
      refine all path ?_
      by_contra nowhere
      push Not at nowhere
      obtain ⟨left, inLeft, right, inRight, differ⟩ := (covered path).mp mem
      have first := nowhere left inLeft
      have second := nowhere right inRight
      rw [ne_eq, Option.not_isSome_iff_eq_none] at first second
      exact differ (first.trans second.symm)

/-- The commits are read exactly when each of them can be read. -/
theorem readCommits_ok
    {repo : Repo} {reader : Reader} (inStep : reader.InStep repo) (commits : List Bytes) :
  (∃ reader', readCommits repo reader commits = some (reader', .ok ()))
    ↔ ∀ commit ∈ commits, repo.Readable commit
  := by
  induction commits generalizing reader with
  | nil => simp [readCommits]
  | cons commit commits ih =>
      rw [readCommits, List.forall_mem_cons]
      constructor
      · rintro ⟨reader', read⟩
        split_ifs at read with invalid
        · cases read
        · cases found : reader.commit repo commit with
          | none => simp [found] at read
          | some outcome =>
              obtain ⟨next, result⟩ := outcome
              cases result with
              | error message => simp [found] at read
              | ok raw =>
                  obtain ⟨inStep', there, small⟩ := inStep.commit_ok found
                  rw [found] at read
                  have read : readCommits repo next commits = some (reader', .ok ()) := read
                  refine ⟨⟨by simp [there], small⟩, ?_⟩
                  exact (ih inStep').mp ⟨reader', read⟩
      · rintro ⟨⟨isCommit, small⟩, others⟩
        obtain ⟨raw, there⟩ := Option.isSome_iff_exists.mp isCommit
        obtain ⟨next, result, found, inStep', same⟩ := inStep.commit_spec small
        have valid : ¬ validOID commit = false := by
          intro invalid
          simp [Repo.commitAt, Repo.objectAt, invalid] at there
        rw [there] at same
        cases result with
        | error message => cases same
        | ok other =>
            simp only [if_neg valid, found, Option.bind_eq_bind, Option.bind_some]
            exact (ih inStep').mpr others

/-- A report is made exactly within the bounds on paths and outputs. -/
theorem GitTrees.scopeReport_ok
    {git : GitTrees} {base candidate target prospective : Bytes} :
  (∃ report, git.scopeReport base candidate target prospective = .ok report)
    ↔ git.ScopeBounded base candidate target prospective
  := by
  unfold scopeReport
  simp only [bind_eq_ok, scopePaths_eq_ok, treeEntriesAtCommit_eq_ok]
  constructor
  · rintro ⟨report, ordered, ⟨mine, theirs, done, texts, count, -⟩, -, ⟨first, -⟩, -, ⟨second, -⟩,
      -, ⟨third, -⟩, -, ⟨fourth, -⟩, -⟩
    refine ⟨mine, theirs, done, ?_, ?_, ?_⟩
    · simp only [identities, List.forall_mem_cons, List.not_mem_nil, IsEmpty.forall_iff,
        implies_true, and_true]
      exact ⟨first, second, third, fourth⟩
    · exact fun path differ => texts path (mem_names.mpr differ)
    · intro paths nodup differ
      have sub : paths ⊆ git.names base candidate target prospective :=
        fun path mem => mem_names.mpr (differ path mem)
      exact (nodup.subperm sub).length_le.trans count
  · rintro ⟨mine, theirs, done, trees, texts, count⟩
    simp only [identities, List.forall_mem_cons, List.not_mem_nil, IsEmpty.forall_iff,
      implies_true, and_true] at trees
    obtain ⟨first, second, third, fourth⟩ := trees
    refine ⟨_, _, ⟨mine, theirs, done, ?_, ?_, rfl⟩, _, ⟨first, rfl⟩, _, ⟨second, rfl⟩, _,
      ⟨third, rfl⟩, _, ⟨fourth, rfl⟩, rfl⟩
    · exact fun path mem => texts path (mem_names.mp mem)
    · exact count _ (List.nodup_dedup _) fun path mem => mem_names.mp mem

/-- Every report on four commits is exact. -/
theorem GitTrees.exact_of_scopeReport
    {git : GitTrees} {base candidate target prospective : Bytes} {report : ScopeReport}
    (made : git.scopeReport base candidate target prospective = .ok report) :
  report.Exact (git.tree base) (git.tree candidate) (git.tree target) (git.tree prospective)
  := by
  unfold scopeReport at made
  simp only [bind_eq_ok, scopePaths_eq_ok, treeEntriesAtCommit_eq_ok] at made
  obtain ⟨ordered, ⟨-, -, -, -, -, sorted⟩, _, ⟨-, rfl⟩, _, ⟨-, rfl⟩, _, ⟨-, rfl⟩, _, ⟨-, rfl⟩,
    made⟩ := made
  have same := List.mergeSort_perm (git.names base candidate target prospective)
    fun left right => decide (left ≤ right)
  rw [sorted] at same
  obtain rfl := Except.ok.inj made
  refine ScopeReport.exact_of_paths (same.nodup_iff.mpr (List.nodup_dedup _)) ?_ rfl rfl rfl
  intro path
  rw [same.mem_iff, mem_names, Differ, identities]
  simp only [List.mem_cons, List.not_mem_nil, or_false, exists_eq_or_imp, exists_eq_left]

/-- Every report on the scope of an integration is exact, and a report is refused only for commits
that cannot be read and for paths and outputs that are out of bounds. -/
theorem GitTrees.inspectScope_exact
    (git : GitTrees) (base candidate target prospective : Bytes) :
  (∀ report, git.inspectScope base candidate target prospective = some (.ok report) →
      report.Exact (git.tree base) (git.tree candidate) (git.tree target) (git.tree prospective))
    ∧ ((∃ report, git.inspectScope base candidate target prospective = some (.ok report))
      ↔ (∀ commit ∈ [base, candidate, target, prospective], git.repo.Readable commit)
        ∧ git.ScopeBounded base candidate target prospective)
  := by
  have reads := readCommits_ok (Reader.inStep_start git.repo) [base, candidate, target, prospective]
  have outcome : ∀ report, git.inspectScope base candidate target prospective = some (.ok report)
      ↔ (∃ reader, readCommits git.repo {} [base, candidate, target, prospective]
          = some (reader, .ok ()))
        ∧ git.scopeReport base candidate target prospective = .ok report := by
    intro report
    unfold inspectScope
    cases readCommits git.repo {} [base, candidate, target, prospective] with
    | none => simp
    | some step =>
        obtain ⟨reader, result⟩ := step
        cases result <;> simp
  constructor
  · intro report made
    exact exact_of_scopeReport ((outcome report).mp made).2
  · rw [← reads, ← scopeReport_ok]
    simp only [outcome, exists_and_left]

/-! ### A refused path -/

/-- What git knows of trees: two of them differ at the paths of their lines with other entries. -/
def GitTrees.ofTrees (repo : Repo) (tree : Bytes → Tree) : GitTrees where
  repo
  tree
  diff left right :=
    (((tree left).rows ++ (tree right).rows).map TreeRow.path).filter fun path =>
      (tree left).entry path ≠ (tree right).entry path
  diff_exact left right path := by
    simp only [List.mem_filter, decide_eq_true_eq, and_iff_right_iff_imp, List.mem_map,
      List.mem_append]
    intro differ
    have isRow : ∀ (t : Tree) entry, t.entry path = some entry →
        ∃ row ∈ t.rows, row.path = path := by
      intro t entry there
      obtain ⟨row, found, -⟩ := Option.map_eq_some_iff.mp there
      exact ⟨row, List.mem_of_find?_eq_some found, by simpa using List.find?_some found⟩
    cases first : (tree left).entry path with
    | some entry =>
        obtain ⟨row, mem, same⟩ := isRow _ entry first
        exact ⟨row, .inl mem, same⟩
    | none =>
        cases second : (tree right).entry path with
        | none => exact absurd (first.trans second.symm) differ
        | some entry =>
            obtain ⟨row, mem, same⟩ := isRow _ entry second
            exact ⟨row, .inr mem, same⟩

namespace ScopeSample

/-- An object ID. -/
def oid (digit : Char) : Bytes :=
  List.replicate 40 (UInt8.ofNat digit.toNat)

/-- The only commits are `0` and `1`. -/
def repo : Repo where
  object id :=
    if id = oid '0' ∨ id = oid '1' then
      some { type := .commit, data := ascii "tree " ++ oid 'a' ++ ascii "\n\nsample" }
    else none
  ref _ := none

/-- A file whose path is not a text. -/
def row : TreeRow where
  path := [255]
  type := .blob
  entry := { mode := ascii "100644", oid := oid 'b' }

/-- The tree of `1` has the file, every other tree is empty. -/
def tree (id : Bytes) : Tree :=
  if id = oid '1' then
    { rows := [row]
      wellFormed := by
        rw [List.forall_mem_singleton]
        exact ⟨by decide, by decide, by decide, isWord_of_all (by decide) (by decide), by decide,
          by decide⟩
      paths_nodup := List.nodup_singleton _ }
  else { rows := [], wellFormed := fun _ mem => absurd mem List.not_mem_nil
         paths_nodup := List.nodup_nil }

end ScopeSample

open ScopeSample in
/-- The four commits can be read and two of their trees differ at a path, but the path is not a text
and so there is no report. -/
theorem inspectScope_refused :
  (∀ commit ∈ [oid '0', oid '1', oid '0', oid '1'], ∃ raw, repo.commitAt commit = some raw)
    ∧ (tree (oid '0')).entry [255] ≠ (tree (oid '1')).entry [255]
    ∧ (GitTrees.ofTrees repo tree).inspectScope (oid '0') (oid '1') (oid '0') (oid '1')
      = some (.error "git path is not valid bounded UTF-8")
  := by
  refine ⟨?_, by decide +kernel, by decide +kernel⟩
  have raw : ∀ commit ∈ [oid '0', oid '1', oid '0', oid '1'],
      repo.commitAt commit = some { tree := oid 'a', parents := [] } := by
    decide +kernel
  exact fun commit mem => ⟨_, raw commit mem⟩

end Git

end Dagrail
