import Mathlib.Data.String.Basic
import Dagrail.Service.Evidence

/-!
# Execution evidence in another order

The inputs and artifacts of a request are sorted by a text. When no two of them have the same text,
the order in which they were given is forgotten.
-/

namespace Dagrail

/-! ### Sorting by a key -/

/-- When no two values have the same key, sorting by the key forgets the order. -/
theorem insertionSort_of_perm
    {α κ : Type} [LinearOrder κ] {key : α → κ} {values values' : List α}
    (perm : values'.Perm values)
    (distinct : ∀ a ∈ values, ∀ b ∈ values, key a = key b → a = b) :
  values'.insertionSort (fun a b => key a ≤ key b) = values.insertionSort fun a b => key a ≤ key b
  := by
  have sorted : ∀ l : List α, (l.insertionSort fun a b => key a ≤ key b).Pairwise
      fun a b => key a ≤ key b := by
    intro l
    have : Std.Total fun a b : α => key a ≤ key b := ⟨fun a b => le_total (key a) (key b)⟩
    have : IsTrans α fun a b => key a ≤ key b := ⟨fun a b c => le_trans⟩
    exact List.pairwise_insertionSort _ l
  have same : ∀ l : List α, (l.insertionSort fun a b => key a ≤ key b).Perm l :=
    List.perm_insertionSort _
  refine List.Perm.eq_of_pairwise ?_ (sorted _) (sorted _)
    ((same values').trans (perm.trans (same values).symm))
  intro a b mem mem' below above
  have inValues := perm.mem_iff.mp ((same values').mem_iff.mp mem)
  exact distinct a inValues b ((same values).mem_iff.mp mem') (le_antisymm below above)

/-- Values whose images are pairwise different are told apart by them. -/
theorem eq_of_nodup_map
    {α β : Type} {f : α → β} {l : List α} (nodup : (l.map f).Nodup) :
  ∀ a ∈ l, ∀ b ∈ l, f a = f b → a = b
  := by
  intro a ha b hb same
  exact List.inj_on_of_nodup_map nodup ha hb same

/-! ### Protected inputs -/

/-- Protected inputs in another order normalise to the same. -/
theorem normalizeProtectedInputs_of_perm
    {values values' inputs : List ProtectedInput} (perm : values'.Perm values)
    (normal : normalizeProtectedInputs values = .ok inputs) :
  normalizeProtectedInputs values' = .ok inputs
  := by
  have unfolded := normal
  unfold normalizeProtectedInputs at unfolded
  simp only [bind_eq_ok, check_eq_ok, decide_eq_true_eq] at unfolded
  obtain ⟨_, there, _, short, _, each, _, nodup, same⟩ := unfolded
  have sorted : values'.insertionSort (fun a b => a.name ≤ b.name) =
      values.insertionSort fun a b => a.name ≤ b.name := by
    refine insertionSort_of_perm perm fun a ha b hb => ?_
    exact eq_of_nodup_map nodup a (List.mem_insertionSort _ |>.mpr ha) b
      (List.mem_insertionSort _ |>.mpr hb)
  rw [← normal]
  unfold normalizeProtectedInputs
  rw [sorted, perm.length_eq]
  have empty : (values' ≠ []) = (values ≠ []) := by
    rw [← List.length_pos_iff, ← List.length_pos_iff, perm.length_eq]
  simp only [empty]

/-! ### Artifacts -/

/-- No text that parses as a URL has a zero character, as the parser refuses control characters. -/
def Platform.URLsPrintable (p : Platform) : Prop :=
  ∀ uri parsed, p.parseURL uri = some parsed → '\x00' ∉ uri.toList

/-- A valid digest has 71 characters. -/
theorem length_of_validDigest
    {value : String} (valid : validDigest value = true) :
  value.toList.length = 71
  := by
  simp only [validDigest, validBareHash, Bool.and_eq_true, decide_eq_true_eq,
    String.toList_ofList] at valid
  obtain ⟨front, back, -⟩ := valid
  have seven : (value.toList.take 7).length = 7 := by
    rw [front]
    rfl
  rw [List.length_take] at seven
  rw [List.length_drop] at back
  omega

/-- Two texts before a zero character and one without after it are told apart. -/
theorem append_zero_inj
    {xs xs' ys ys' : List Char} (free : '\x00' ∉ ys) (free' : '\x00' ∉ ys')
    (same : xs ++ '\x00' :: ys = xs' ++ '\x00' :: ys') :
  xs = xs' ∧ ys = ys'
  := by
  rcases List.append_eq_append_iff.mp same with ⟨zs, rfl, tail⟩ | ⟨zs, rfl, tail⟩
  · cases zs with
    | nil => simpa using tail
    | cons z zs =>
        rw [List.cons_append, List.cons.injEq] at tail
        exact absurd (tail.2 ▸ by simp) free
  · cases zs with
    | nil => simpa [eq_comm] using tail
    | cons z zs =>
        rw [List.cons_append, List.cons.injEq] at tail
        exact absurd (tail.2 ▸ by simp) free'

/-- The digest of a valid artifact has a fixed length, and its URI no zero character. -/
theorem digest_uri_of_validateArtifact
    {p : Platform} (printable : p.URLsPrintable) {a : ArtifactRef}
    (valid : validateArtifact p a = .ok ()) :
  a.digest.toList.length = 71 ∧ '\x00' ∉ a.uri.toList
  := by
  unfold validateArtifact validateDigest at valid
  simp only [bind_eq_ok, check_eq_ok] at valid
  obtain ⟨_, digest, _, -, rest⟩ := valid
  have uri : (if a.uri = "" then (.ok () : Fallible Unit) else validateArtifactURI p a.uri)
      = .ok () := by
    split at rest
    · exact rest
    · simp only [bind_eq_ok] at rest
      obtain ⟨_, -, rest⟩ := rest
      exact rest
  refine ⟨length_of_validDigest digest, ?_⟩
  by_cases empty : a.uri = ""
  · rw [empty]
    exact List.not_mem_nil
  · rw [if_neg empty] at uri
    unfold validateArtifactURI at uri
    simp only [bind_eq_ok, need_eq_ok] at uri
    obtain ⟨_, -, parsed, parses, -⟩ := uri
    exact printable a.uri parsed parses

/-- Valid artifacts are told apart by the text they are sorted by. -/
theorem sortKey_inj
    {p : Platform} (printable : p.URLsPrintable) {a b : ArtifactRef}
    (valid : validateArtifact p a = .ok ()) (valid' : validateArtifact p b = .ok ())
    (same : a.sortKey = b.sortKey) :
  (a.digest, a.type, a.uri) = (b.digest, b.type, b.uri)
  := by
  obtain ⟨digest, free⟩ := digest_uri_of_validateArtifact printable valid
  obtain ⟨digest', free'⟩ := digest_uri_of_validateArtifact printable valid'
  have texts := congrArg String.toList same
  simp only [ArtifactRef.sortKey, String.toList_append, List.append_assoc,
    show "\x00".toList = ['\x00'] from rfl, List.singleton_append] at texts
  obtain ⟨digests, rest⟩ := List.append_inj texts (digest.trans digest'.symm)
  obtain ⟨types, uris⟩ := append_zero_inj free free' (List.cons.inj rest).2
  rw [String.toList_inj.mp digests, String.toList_inj.mp types, String.toList_inj.mp uris]

/-- Artifacts in another order normalise to the same. -/
theorem normalizeArtifacts_of_perm
    {p : Platform} (printable : p.URLsPrintable) {values values' artifacts : List ArtifactRef}
    (perm : values'.Perm values) (normal : normalizeArtifacts p values = .ok artifacts) :
  normalizeArtifacts p values' = .ok artifacts
  := by
  have unfolded := normal
  unfold normalizeArtifacts at unfolded
  simp only [bind_eq_ok, check_eq_ok, decide_eq_true_eq] at unfolded
  obtain ⟨_, short, _, each, _, nodup, same⟩ := unfolded
  have sorted : values'.insertionSort (fun a b => a.sortKey ≤ b.sortKey) =
      values.insertionSort fun a b => a.sortKey ≤ b.sortKey := by
    refine insertionSort_of_perm perm fun a ha b hb key => ?_
    have ha := (List.mem_insertionSort fun a b : ArtifactRef => a.sortKey ≤ b.sortKey).mpr ha
    have hb := (List.mem_insertionSort fun a b : ArtifactRef => a.sortKey ≤ b.sortKey).mpr hb
    exact eq_of_nodup_map nodup a ha b hb
      (sortKey_inj printable (forM_eq_ok.mp each a ha) (forM_eq_ok.mp each b hb) key)
  rw [← normal]
  unfold normalizeArtifacts
  rw [sorted, perm.length_eq]

end Dagrail
