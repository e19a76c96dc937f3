import Mathlib.Data.List.Nodup
import Dagrail.Foundation.FirstMatch

/-!
# Changes of keyed lists

Records are appended to a list, changed and removed by their keys, and the keys are listed as added,
updated and removed while this happens. Whatever the order of these changes, every record that
differs between the first list and the last one is listed.
-/

namespace Dagrail

variable {α β : Type}

/-- The changes from one list of records to another are listed. What counts as a difference between
two records with one key is what is seen of them. -/
structure Listed (key : α → String) (seen : α → β) (old new : List α)
    (added updated removed : List String) : Prop where
  nodup : (new.map key).Nodup
  appeared : ∀ b ∈ new, key b ∉ old.map key → key b ∈ added
  vanished : ∀ a ∈ old, key a ∉ new.map key → key a ∈ removed
  changed : ∀ a ∈ old, ∀ b ∈ new, key a = key b → seen a ≠ seen b →
    key a ∈ updated ∨ key a ∈ removed ∧ key a ∈ added

namespace Listed

variable {key : α → String} {seen : α → β} {old new : List α} {added updated removed : List String}

/-- A list has no changes against itself. -/
theorem start
    (nodup : (old.map key).Nodup) :
  Listed key seen old old added updated removed
  := by
  refine ⟨nodup, ?_, ?_, ?_⟩
  · intro b mem absent
    exact absurd (List.mem_map_of_mem mem) absent
  · intro a mem absent
    exact absurd (List.mem_map_of_mem mem) absent
  · intro a memA b memB same differ
    exact absurd (congrArg seen (List.inj_on_of_nodup_map nodup memA memB same)) differ

/-- Further keys may be listed. -/
theorem mono
    {added' updated' removed' : List String} (listed : Listed key seen old new added updated removed)
    (add : added ⊆ added') (update : updated ⊆ updated') (remove : removed ⊆ removed') :
  Listed key seen old new added' updated' removed'
  := by
  refine ⟨listed.nodup, ?_, ?_, ?_⟩
  · intro b mem absent
    exact add (listed.appeared b mem absent)
  · intro a mem absent
    exact remove (listed.vanished a mem absent)
  · intro a memA b memB same differ
    rcases listed.changed a memA b memB same differ with updated | ⟨removed, added⟩
    · exact .inl (update updated)
    · exact .inr ⟨remove removed, add added⟩

/-- A record with a new key is appended and listed. -/
theorem append
    (listed : Listed key seen old new added updated removed) {x : α} (fresh : key x ∉ new.map key)
    (here : key x ∈ added) :
  Listed key seen old (new ++ [x]) added updated removed
  := by
  refine ⟨?_, ?_, ?_, ?_⟩
  · rw [List.map_append, List.map_singleton, List.nodup_append]
    refine ⟨listed.nodup, List.nodup_singleton _, ?_⟩
    rintro k mem k' last rfl
    exact fresh (List.mem_singleton.mp last ▸ mem)
  · intro b mem absent
    rcases List.mem_append.mp mem with mem | last
    · exact listed.appeared b mem absent
    · exact List.mem_singleton.mp last ▸ here
  · intro a mem absent
    exact listed.vanished a mem fun kept => absent (by simp [kept])
  · intro a memA b memB same differ
    rcases List.mem_append.mp memB with memB | last
    · exact listed.changed a memA b memB same differ
    · -- the key of the new record is one of an old record that had vanished
      obtain rfl := List.mem_singleton.mp last
      rw [same]
      exact .inr ⟨same ▸ listed.vanished a memA (same ▸ fresh), here⟩

/-- The record with a key is changed and listed, if anything of it is seen to change. -/
theorem update
    (listed : Listed key seen old new added updated removed) {k : String} {f : α → α}
    (keeps : ∀ a, key a = k → key (f a) = k) (here : k ∈ updated ∨ ∀ a, seen (f a) = seen a) :
  Listed key seen old (updateFirst (fun a => key a = k) f new) added updated removed
  := by
  have keys : (updateFirst (fun a => key a = k) f new).map key = new.map key := by
    apply map_updateFirst
    intro a found
    have named : key a = k := of_decide_eq_true found
    rw [keeps a named, named]
  refine ⟨keys ▸ listed.nodup, ?_, ?_, ?_⟩
  · intro b mem absent
    obtain ⟨b', mem', same⟩ := List.mem_map.mp (keys ▸ List.mem_map_of_mem (f := key) mem)
    rw [← same] at absent ⊢
    exact listed.appeared b' mem' absent
  · intro a mem absent
    exact listed.vanished a mem (keys ▸ absent)
  · intro a memA b memB same differ
    rcases mem_updateFirst memB with memB | ⟨b', there, found, rfl⟩
    · exact listed.changed a memA b memB same differ
    · have named : key b' = k := of_decide_eq_true found
      rw [keeps b' named] at same
      rcases here with here | unseen
      · exact .inl (same ▸ here)
      · exact listed.changed a memA b' there (same.trans named.symm) (unseen b' ▸ differ)

/-- Records are removed and listed. -/
theorem erase
    (listed : Listed key seen old new added updated removed) {rest : List α}
    (sublist : rest.Sublist new) (here : ∀ a ∈ new, a ∉ rest → key a ∈ removed) :
  Listed key seen old rest added updated removed
  := by
  refine ⟨listed.nodup.sublist (sublist.map key), ?_, ?_, ?_⟩
  · intro b mem absent
    exact listed.appeared b (sublist.subset mem) absent
  · intro a mem absent
    by_cases there : key a ∈ new.map key
    · obtain ⟨b, memB, same⟩ := List.mem_map.mp there
      rw [← same] at absent ⊢
      exact here b memB fun kept => absent (List.mem_map_of_mem kept)
    · exact listed.vanished a mem there
  · intro a memA b memB same differ
    exact listed.changed a memA b (sublist.subset memB) same differ

/-! ### One change and its key -/

/-- A record without a match is appended. -/
theorem add
    (listed : Listed key seen old new added updated removed) {x : α}
    (fresh : (new.any fun a => key a = key x) = false) :
  Listed key seen old (new ++ [x]) (added ++ [key x]) updated removed
  := by
  have absent : key x ∉ new.map key := by
    intro mem
    obtain ⟨a, mem, same⟩ := List.mem_map.mp mem
    simp only [List.any_eq_false, decide_eq_true_eq] at fresh
    exact fresh a mem same
  exact (listed.mono (List.subset_append_left added [key x]) (List.Subset.refl _)
    (List.Subset.refl _)).append absent (by simp)

/-- The record with the key of another one is replaced by that. -/
theorem replace
    (listed : Listed key seen old new added updated removed) (x : α) :
  Listed key seen old (updateFirst (fun a => key a = key x) (fun _ => x) new) added
    (updated ++ [key x]) removed
  := (listed.mono (List.Subset.refl _) (List.subset_append_left updated [key x])
      (List.Subset.refl _)).update (fun _ _ => rfl) (.inl (by simp))

/-- The record with a key is removed. -/
theorem remove
    (listed : Listed key seen old new added updated removed) (k : String) :
  Listed key seen old (new.eraseP fun a => key a = k) added updated (removed ++ [k])
  := by
  refine (listed.mono (List.Subset.refl _) (List.Subset.refl _)
    (List.subset_append_left removed [k])).erase List.eraseP_sublist ?_
  intro a mem gone
  have named : key a = k := by
    by_contra other
    exact gone ((List.mem_eraseP_of_neg (by simpa using other)).mpr mem)
  simp [named]

end Listed

end Dagrail
