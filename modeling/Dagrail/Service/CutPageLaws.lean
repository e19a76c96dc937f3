import Mathlib.Algebra.Order.BigOperators.Group.List
import Mathlib.Algebra.Order.Ring.Nat
import Mathlib.Algebra.Group.Action.Defs
import Dagrail.Service.CutPages

/-!
# Laws of the pages of dependency cuts

What is read by following the references of a cut from its first one is the cut, page by page;
there is always a next page until the end, since a page with one item is small enough; and the
chunks of an id are its bytes.
-/

namespace Dagrail

open Pages
open Marshal

/-! ### References -/

/-- A text with a colon is cut at its first one. -/
theorem cutColon_append
    (before : List Char) (plain : ':' ∉ before) (after : List Char) :
  cutColon (before ++ ':' :: after) = some (before, after)
  := by
  have dropped : (before ++ ':' :: after).dropWhile (· ≠ ':') = ':' :: after := by
    rw [List.dropWhile_append_of_pos (by grind)]
    rfl
  have taken : (before ++ ':' :: after).takeWhile (· ≠ ':') = before := by
    rw [List.takeWhile_append_of_pos (by grind)]
    simp
  rw [cutColon, dropped, taken]

/-- A decimal text reads as its number, if the number is not too large. -/
theorem position_toDigits
    (n : Nat) :
  position (Nat.toDigits 10 n) = if n < 2 ^ 63 then some n else none
  := by
  have digit : ∀ c ∈ Nat.toDigits 10 n, c.isDigit = true := fun c mem =>
    Nat.isDigit_of_mem_toDigits (by decide) (by decide) mem
  have unsigned : ∀ c, (Nat.toDigits 10 n).head? = some c → c.isDigit = true := fun c head =>
    digit c (List.mem_of_head? head)
  have noMinus : (Nat.toDigits 10 n).head? ≠ some '-' := fun head => by
    simpa using unsigned _ head
  have noPlus : (Nat.toDigits 10 n).head? ≠ some '+' := fun head => by
    simpa using unsigned _ head
  have all : (Nat.toDigits 10 n).all Char.isDigit = true := List.all_eq_true.mpr digit
  simp only [position, atoi, noMinus, noPlus, or_self, if_false, Nat.ofDigitChars_ten_toDigits, all,
    Nat.toDigits_ne_nil, ne_eq, not_false_eq_true, true_and]
  split_ifs <;> simp <;> omega

/-- A number has no colon in it. -/
theorem colon_not_mem_toDigits
    (n : Nat) :
  ':' ∉ Nat.toDigits 10 n
  := by
  intro mem
  have := Nat.isDigit_of_mem_toDigits (by decide) (by decide) mem
  exact absurd this (by decide)

/-- The bytes of a text are those of its characters. -/
theorem utf8ByteSize_eq
    (s : String) :
  s.utf8ByteSize = (s.toList.map Char.utf8Size).sum
  := by
  rw [← String.ofList_toList (s := s), String.toList_ofList]
  induction s.toList with
  | nil => rfl
  | cons c cs ih =>
      have parts : String.ofList (c :: cs) = String.singleton c ++ String.ofList cs := by
        apply String.toList_injective
        simp
      have first : (String.singleton c).utf8ByteSize = c.utf8Size := by simp
      rw [parts, String.utf8ByteSize_append, first, ih, List.map_cons, List.sum_cons]

namespace Hex

variable (h : Hex)

/-- The digits of a hash. -/
theorem isHexDigit_of_mem
    {c : Char} (mem : c ∈ h.text.toList) :
  isHexDigit c = true
  := by
  have valid := h.valid
  simp only [validBareHash, Bool.and_eq_true] at valid
  exact List.all_eq_true.mp valid.2 c mem

/-- A hash has sixty-four digits. -/
theorem length_toList :
  h.text.toList.length = 64
  := by
  have valid := h.valid
  simp only [validBareHash, Bool.and_eq_true, decide_eq_true_eq] at valid
  exact valid.1

/-- A hash has no colon in it. -/
theorem colon_not_mem :
  ':' ∉ h.text.toList
  := by
  intro mem
  exact absurd (h.isHexDigit_of_mem mem) (by decide)

/-- A hash has as many bytes as digits. -/
theorem utf8ByteSize_text :
  h.text.utf8ByteSize = 64
  := by
  have one : ∀ c ∈ h.text.toList, c.utf8Size = 1 := fun c mem => by
    have digit := h.isHexDigit_of_mem mem
    simp only [isHexDigit, Bool.or_eq_true, Bool.and_eq_true, decide_eq_true_eq] at digit
    rw [Char.utf8Size_eq_one_iff]
    have nine : ('9' : Char).val ≤ 127 := by decide
    have last : ('f' : Char).val ≤ 127 := by decide
    rcases digit with ⟨-, small⟩ | ⟨-, small⟩
    · exact UInt32.le_trans small nine
    · exact UInt32.le_trans small last
  rw [utf8ByteSize_eq, List.map_congr_left one, List.map_const', h.length_toList]
  decide

/-- A hash is a digest of a cut. -/
theorem validCutDigest_text :
  validCutDigest h.text = true
  := by
  rw [validCutDigest, h.utf8ByteSize_text]
  simp only [decide_true, Bool.true_and, List.all_eq_true]
  intro c mem
  have digit := h.isHexDigit_of_mem mem
  simp only [isHexDigit, Bool.or_eq_true] at digit ⊢
  tauto

end Hex

/-- The letters of a reference of a page. -/
theorem toList_dependencyCutRef
    (digest : String) (offset : Nat) :
  (dependencyCutRef digest offset).toList
    = dependencyCutKind.toList ++ ':' :: (digest.toList ++ ':' :: Nat.toDigits 10 offset)
  := by
  have colon : ":".toList = [':'] := by decide
  have number : (toString offset).toList = Nat.toDigits 10 offset := Nat.toList_repr
  simp only [dependencyCutRef, String.toList_append, colon, number, List.append_assoc,
    List.cons_append, List.nil_append]

/-- The letters of a reference of a chunk. -/
theorem toList_dependencyCutItemRef
    (digest : String) (index offset : Nat) :
  (dependencyCutItemRef digest index offset).toList
    = dependencyCutItemKind.toList ++ ':' :: (digest.toList
      ++ ':' :: (Nat.toDigits 10 index ++ ':' :: Nat.toDigits 10 offset))
  := by
  have colon : ":".toList = [':'] := by decide
  have first : (toString index).toList = Nat.toDigits 10 index := Nat.toList_repr
  have second : (toString offset).toList = Nat.toDigits 10 offset := Nat.toList_repr
  simp only [dependencyCutItemRef, String.toList_append, colon, first, second,
    List.append_assoc, List.cons_append, List.nil_append]

/-- A remediation that is bound to a cut has the reference of the first page. -/
theorem dependencyCutRef_bindDependencyCut
    {hash : HashFunction} {cut : List String} (some_ : cut ≠ []) (remediation : Remediation) :
  (bindDependencyCut hash remediation cut).dependencyCutRef
    = dependencyCutRef (dependencyCutDigest hash cut) 0
  := by
  have kind : "dependency-cut:" = dependencyCutKind ++ ":" := by decide
  have number : ":0" = ":" ++ toString 0 := by decide
  simp only [bindDependencyCut, if_neg some_, dependencyCutRef]
  rw [kind, number, ← String.append_assoc]

section Inspection

variable (hash : HashFunction) (s : State) (incidents : List Incident) (nodes : List String)
variable (h : Hex)

/-- The reference of a page is answered with the page. -/
theorem inspectCut_dependencyCutRef
    (offset : Nat) (answer : CutAnswer) :
  inspectCut hash s incidents nodes (dependencyCutRef h.text offset) = .ok answer ↔
    offset < 2 ^ 63 ∧ ∃ page, answer = .page page ∧
      dependencyCutPage hash s incidents nodes h.text offset = .ok page
  := by
  have outer := cutColon_append dependencyCutKind.toList (by decide +kernel)
    (h.text.toList ++ ':' :: Nat.toDigits 10 offset)
  have some_ : h.text.toList ++ ':' :: Nat.toDigits 10 offset ≠ [] := by simp
  have chosen : inspectCut hash s incidents nodes (dependencyCutRef h.text offset)
      = inspectCutPage hash s incidents nodes (h.text.toList ++ ':' :: Nat.toDigits 10 offset) := by
    rw [inspectCut, toList_dependencyCutRef, outer]
    simp only [need, ok_bind, check, decide_eq_true some_, if_true]
  rw [chosen, inspectCutPage, cutColon_append _ h.colon_not_mem]
  simp only [need, ok_bind, position_toDigits, String.ofList_toList]
  by_cases small : offset < 2 ^ 63
  · rw [if_pos small]
    simp only [ok_bind, bind_eq_ok, Except.ok.injEq]
    constructor
    · rintro ⟨page, given, rfl⟩
      exact ⟨small, page, rfl, given⟩
    · rintro ⟨-, page, rfl, given⟩
      exact ⟨page, given, rfl⟩
  · rw [if_neg small]
    simp only [error_bind, reduceCtorEq, false_iff, not_and]
    exact fun small' => absurd small' small

/-- The reference of a chunk is answered with the chunk. -/
theorem inspectCut_dependencyCutItemRef
    (index offset : Nat) (answer : CutAnswer) :
  inspectCut hash s incidents nodes (dependencyCutItemRef h.text index offset) = .ok answer ↔
    (index < 2 ^ 63 ∧ offset < 2 ^ 63) ∧ ∃ chunk, answer = .chunk chunk ∧
      dependencyCutItemPage hash s incidents nodes h.text index offset = .ok chunk
  := by
  let id := h.text.toList ++ ':' :: (Nat.toDigits 10 index ++ ':' :: Nat.toDigits 10 offset)
  have outer := cutColon_append dependencyCutItemKind.toList (by decide +kernel) id
  have some_ : id ≠ [] := by simp [id]
  have other : dependencyCutItemKind.toList ≠ dependencyCutKind.toList := by decide +kernel
  have chosen : inspectCut hash s incidents nodes (dependencyCutItemRef h.text index offset)
      = inspectCutItem hash s incidents nodes id := by
    rw [inspectCut, toList_dependencyCutItemRef, outer]
    simp only [need, ok_bind, check, decide_eq_true some_, if_true, if_neg other]
  have parts : id.splitOn ':'
      = [h.text.toList, Nat.toDigits 10 index, Nat.toDigits 10 offset] := by
    rw [List.splitOn_append_cons_self_of_not_mem h.colon_not_mem,
      List.splitOn_append_cons_self_of_not_mem (colon_not_mem_toDigits index),
      List.splitOn_eq_singleton (colon_not_mem_toDigits offset)]
  have sized : decide (h.text.utf8ByteSize = 64) = true := decide_eq_true h.utf8ByteSize_text
  rw [chosen, inspectCutItem, parts]
  simp only [position_toDigits, String.ofList_toList, check, sized, if_true, ok_bind]
  by_cases small : index < 2 ^ 63
  · by_cases small' : offset < 2 ^ 63
    · rw [if_pos small, if_pos small']
      simp only [need, ok_bind, bind_eq_ok, Except.ok.injEq]
      constructor
      · rintro ⟨chunk, given, rfl⟩
        exact ⟨⟨small, small'⟩, chunk, rfl, given⟩
      · rintro ⟨-, chunk, rfl, given⟩
        exact ⟨chunk, given, rfl⟩
    · rw [if_pos small, if_neg small']
      simp only [need, ok_bind, error_bind, reduceCtorEq, false_iff, not_and]
      exact fun inside => absurd inside.2 small'
  · rw [if_neg small]
    simp only [need, error_bind, reduceCtorEq, false_iff, not_and]
    exact fun inside => absurd inside.1 small

end Inspection

/-! ### Items that are too long -/

section Oversized

variable {hash : HashFunction} {digest : String}

/-- What is said of two lists of items in a row. -/
theorem oversizedItems_append
    (index : Nat) (items items' : List String) :
  oversizedItems hash digest index (items ++ items')
    = oversizedItems hash digest index items
      ++ oversizedItems hash digest (index + items.length) items'
  := by
  induction items generalizing index with
  | nil => rfl
  | cons item items ih =>
      have moved : index + 1 + items.length = index + (items.length + 1) := by omega
      rw [List.cons_append, oversizedItems, oversizedItems, ih, List.length_cons, moved]
      split_ifs <;> rfl

/-- What is said of items is about those items. -/
theorem index_of_mem_oversizedItems
    {index : Nat} {items : List String} {item : BoundedListItemRef}
    (mem : item ∈ oversizedItems hash digest index items) :
  index ≤ item.index ∧ item.index < index + items.length
  := by
  induction items generalizing index with
  | nil => exact absurd mem List.not_mem_nil
  | cons head items ih =>
      have later (mem : item ∈ oversizedItems hash digest (index + 1) items) :
          index ≤ item.index ∧ item.index < index + (items.length + 1) := by
        have inside := ih mem
        omega
      rw [oversizedItems] at mem
      rw [List.length_cons]
      split_ifs at mem
      · rcases List.mem_cons.mp mem with rfl | mem
        · simp only [itemRef]
          omega
        · exact later mem
      · exact later mem

/-- Without the last item, nothing is said of it. -/
theorem rdropWhile_oversizedItems
    {index last : Nat} {items : List String} (sized : last = index + items.length)
    (item : String) :
  (oversizedItems hash digest index (items ++ [item])).rdropWhile
      (fun ref => decide (last ≤ ref.index))
    = oversizedItems hash digest index items
  := by
  have kept : (oversizedItems hash digest index items).rdropWhile
      (fun ref => decide (last ≤ ref.index)) = oversizedItems hash digest index items := by
    rw [List.rdropWhile_eq_self_iff]
    intro some_
    have inside := index_of_mem_oversizedItems (List.getLast_mem some_)
    simp only [decide_eq_true_eq]
    omega
  rw [oversizedItems_append, oversizedItems, oversizedItems]
  split_ifs
  · rw [List.rdropWhile_concat_pos _ _ _ (by simp [itemRef, sized]), kept]
  · rw [List.append_nil, kept]

end Oversized

/-! ### Pages -/

section Fit

variable {hash : HashFunction} {digest : String} {cut : List String} {offset : Nat}

/-- How many items a page has. -/
theorem length_cutPage
    (hash : HashFunction) (digest : String) {count : Nat} (inside : offset + count ≤ cut.length) :
  (cutPage hash digest cut offset count).items.length = count
  := by
  simp only [cutPage, List.length_map, List.length_take, List.length_drop]
  omega

/-- A page without its last item is the page with one item less. -/
theorem dropLast_cutPage
    {count : Nat} (inside : offset + (count + 1) ≤ cut.length) (nextRef : String) :
  { cutPage hash digest cut offset (count + 1) with nextRef }.dropLast
    = { cutPage hash digest cut offset count with nextRef }
  := by
  have size := length_cutPage hash digest inside
  have short : count < (cut.drop offset).length := by
    rw [List.length_drop]
    omega
  have last : (cut.drop offset).take (count + 1)
      = (cut.drop offset).take count ++ [(cut.drop offset)[count]] :=
    List.take_succ_eq_append_getElem short
  have sized : offset + (count + 1) - 1 = offset + ((cut.drop offset).take count).length := by
    rw [List.length_take]
    omega
  simp only [DependencyCutPage.dropLast, size]
  simp only [cutPage, last, List.map_append, List.map_cons, List.map_nil, List.dropLast_concat,
    rdropWhile_oversizedItems sized]

/-- What fits is a page with some of the items, and it is small enough. -/
theorem fit_cutPage
    {count : Nat} (inside : offset + count ≤ cut.length) (positive : 0 < count)
    {nextRef : String} {page : DependencyCutPage}
    (fits : { cutPage hash digest cut offset count with nextRef }.fit digest = .ok page) :
  ∃ n, 0 < n ∧ n ≤ count ∧ page = (cutPage hash digest cut offset n).withNext digest
    ∧ page.size ≤ preWaitMaxBytes
  := by
  induction count generalizing nextRef with
  | zero => exact absurd positive (lt_irrefl 0)
  | succ count ih =>
      have same : { cutPage hash digest cut offset (count + 1) with nextRef }.withNext digest
          = (cutPage hash digest cut offset (count + 1)).withNext digest := rfl
      rw [DependencyCutPage.fit, same] at fits
      split_ifs at fits with small single
      · obtain rfl := Except.ok.inj fits
        exact ⟨count + 1, positive, le_refl _, rfl, small⟩
      · simp only [length_cutPage hash digest inside] at single
        rw [DependencyCutPage.withNext, dropLast_cutPage inside] at fits
        obtain ⟨n, some_, few, given⟩ := ih (by omega) (by omega) fits
        exact ⟨n, some_, by omega, given⟩

end Fit

/-! ### Cuts in pages -/

/-- Unless the hash collides, and without zero characters in ids, no other cut of the states has the
digest of the cut. -/
theorem OnlyCut.of_free
    {hash : HashFunction} {states : State → Prop} {cut : List String} (some_ : cut ≠ [])
    (separates : ∀ s, states s → ∀ cut' ∈ s.dependencyCuts,
      hash (.joined ("\x00".intercalate cut')) = hash (.joined ("\x00".intercalate cut)) →
        "\x00".intercalate cut' = "\x00".intercalate cut)
    (free : ∀ nodeId ∈ cut, '\x00' ∉ nodeId.toList)
    (free' : ∀ s, states s → ∀ cut' ∈ s.dependencyCuts, ∀ nodeId ∈ cut', '\x00' ∉ nodeId.toList) :
  OnlyCut hash states cut
  := by
  intro s now cut' mem same
  have joined := separates s now cut' mem (Hex.text_injective same)
  rw [intercalate_eq_iff_cutPieces (ne_nil_of_mem_dependencyCuts mem) some_,
    cutPieces_of_free (free' s now cut' mem), cutPieces_of_free free] at joined
  exact List.map_injective_iff.mpr (fun a b => String.toList_inj.mp) joined

section Reading

variable {hash : HashFunction} {states : State → Prop} {cut : List String}

/-- What is found for the digest of the cut is the cut, in any of the states. -/
theorem OnlyCut.found
    (only : OnlyCut hash states cut) {s : State} (now : states s) {incidents : List Incident}
    {nodes : List String} (visits : s.Visits incidents nodes) {cut' : List String}
    (found : dependencyCutByDigest hash s incidents nodes (dependencyCutDigest hash cut)
      = some cut') :
  cut' = cut ∧ cut ≠ []
  := by
  obtain ⟨mem, digest⟩ := dependencyCutByDigest_some visits found
  obtain rfl := only s now cut' mem digest
  exact ⟨rfl, ne_nil_of_mem_dependencyCuts mem⟩

/-- A cut that a state has is found. -/
theorem OnlyCut.find
    (only : OnlyCut hash states cut) {s : State} (now : states s) {incidents : List Incident}
    {nodes : List String} (visits : s.Visits incidents nodes) (known : cut ∈ s.dependencyCuts) :
  dependencyCutByDigest hash s incidents nodes (dependencyCutDigest hash cut) = some cut
  := by
  obtain ⟨cut', found⟩ := Option.isSome_iff_exists.mp
    (@dependencyCutByDigest_isSome hash s incidents nodes cut visits known)
  obtain ⟨rfl, -⟩ := only.found now visits found
  exact found

/-- The reference of a page is not empty. -/
theorem dependencyCutRef_ne_empty
    (digest : String) (offset : Nat) :
  dependencyCutRef digest offset ≠ ""
  := by
  intro empty
  have letters := toList_dependencyCutRef digest offset
  rw [empty] at letters
  simp at letters

/-- The reference of a chunk is not empty. -/
theorem dependencyCutItemRef_ne_empty
    (digest : String) (index offset : Nat) :
  dependencyCutItemRef digest index offset ≠ ""
  := by
  intro empty
  have letters := toList_dependencyCutItemRef digest index offset
  rw [empty] at letters
  simp at letters

/-- The answer to a reference in front of the end is a page with some of the next items. -/
theorem Answers.page
    (only : OnlyCut hash states cut) {offset : Nat} (inside : offset < cut.length)
    {page : DependencyCutPage}
    (answer : Answers hash states .page
      (dependencyCutRef (dependencyCutDigest hash cut) offset) page) :
  ∃ n, 0 < n ∧ n ≤ preWaitPageLimit ∧ offset + n ≤ cut.length
    ∧ page = (cutPage hash (dependencyCutDigest hash cut) cut offset n).withNext
      (dependencyCutDigest hash cut)
    ∧ page.size ≤ preWaitMaxBytes
  := by
  obtain ⟨s, incidents, nodes, now, visits, given⟩ := answer
  obtain ⟨-, page', same, given⟩ := (inspectCut_dependencyCutRef ..).mp given
  obtain rfl := CutAnswer.page.inj same
  simp only [dependencyCutPage, bind_eq_ok, check_eq_ok, need_eq_ok] at given
  obtain ⟨-, -, cut', found, given⟩ := given
  obtain ⟨rfl, -⟩ := only.found now visits found
  have limit : 0 < preWaitPageLimit := by decide
  rw [if_neg (by omega)] at given
  obtain ⟨n, some_, few, rfl, small⟩ := fit_cutPage (by omega) (by omega) given
  exact ⟨n, some_, by omega, by omega, rfl, small⟩

/-- A page with all items up to the end has no next page, and any other page refers to the place
after its last item. -/
theorem next_withNext
    (digest : String) {offset n : Nat} (inside : offset + n ≤ cut.length) :
  ((cutPage hash digest cut offset n).withNext digest).next
    = if offset + n < cut.length then some (dependencyCutRef digest (offset + n)) else none
  := by
  have size := length_cutPage hash digest inside
  have start : (cutPage hash digest cut offset n).offset = offset := rfl
  have total : (cutPage hash digest cut offset n).total = cut.length := rfl
  simp only [DependencyCutPage.next, DependencyCutPage.withNext, size, start, total]
  split_ifs with more empty
  · exact absurd empty (dependencyCutRef_ne_empty _ _)
  · rfl
  · rfl
  · rename_i some_
    exact absurd rfl some_

/-- The places of references of pages, in front of the end. -/
def PagePlace (hash : HashFunction) (cut : List String) (ref : String) (offset : Nat) : Prop :=
  ref = dependencyCutRef (dependencyCutDigest hash cut) offset ∧ offset < cut.length

/-- A cut that is found has something in it. -/
theorem Answers.ne_nil
    (only : OnlyCut hash states cut) {offset : Nat} {page : DependencyCutPage}
    (answer : Answers hash states .page
      (dependencyCutRef (dependencyCutDigest hash cut) offset) page) :
  cut ≠ []
  := by
  obtain ⟨s, incidents, nodes, now, visits, given⟩ := answer
  obtain ⟨-, page', same, given⟩ := (inspectCut_dependencyCutRef ..).mp given
  simp only [dependencyCutPage, bind_eq_ok, check_eq_ok, need_eq_ok] at given
  obtain ⟨-, -, cut', found, -⟩ := given
  exact (only.found now visits found).2

/-- A page refers to the place after its last item. -/
theorem PagePlace.next
    (only : OnlyCut hash states cut) {ref ref' : String} {offset : Nat}
    (place : PagePlace hash cut ref offset) {page : DependencyCutPage}
    (answer : Answers hash states .page ref page) (goes : page.next = some ref') :
  ∃ n, 0 < n ∧ PagePlace hash cut ref' (offset + n)
    ∧ page = (cutPage hash (dependencyCutDigest hash cut) cut offset n).withNext
      (dependencyCutDigest hash cut)
  := by
  obtain ⟨rfl, inside⟩ := place
  obtain ⟨n, some_, -, short, rfl, -⟩ := answer.page only inside
  rw [next_withNext _ short] at goes
  split_ifs at goes with more
  exact ⟨n, some_, ⟨(Option.some.inj goes).symm, more⟩, rfl⟩

/-- A page without a next one has all items up to the end. -/
theorem PagePlace.last
    (only : OnlyCut hash states cut) {ref : String} {offset : Nat}
    (place : PagePlace hash cut ref offset) {page : DependencyCutPage}
    (answer : Answers hash states .page ref page) (stop : page.next = none) :
  ∃ n, offset + n = cut.length
    ∧ page = (cutPage hash (dependencyCutDigest hash cut) cut offset n).withNext
      (dependencyCutDigest hash cut)
  := by
  obtain ⟨rfl, inside⟩ := place
  obtain ⟨n, -, -, short, rfl, -⟩ := answer.page only inside
  rw [next_withNext _ short] at stop
  split_ifs at stop with more
  exact ⟨n, by omega, rfl⟩

/-- What the pages from an offset on hold of the items, taken together, is what the cut holds of them
from there on. -/
theorem flatMap_pages
    (only : OnlyCut hash states cut) {β : Type} {items : DependencyCutPage → List β}
    (value : Nat → List String → List β)
    (has : ∀ offset n, items ((cutPage hash (dependencyCutDigest hash cut) cut offset n).withNext
      (dependencyCutDigest hash cut)) = value offset ((cut.drop offset).take n))
    (joins : ∀ offset front back,
      value offset (front ++ back) = value offset front ++ value (offset + front.length) back)
    {pages : List DependencyCutPage} {ref : String}
    (walk : Walk (Answers hash states .page) DependencyCutPage.next ref pages) {offset : Nat}
    (start : PagePlace hash cut ref offset) :
  pages.flatMap items = value offset (cut.drop offset)
  := by
  refine walk.flatMap_eq (PagePlace hash cut) (fun i => value i (cut.drop i)) ?_ start
  intro ref i page place answer
  constructor
  · intro stop
    obtain ⟨n, all, rfl⟩ := place.last only answer stop
    rw [has, List.take_of_length_le (by rw [List.length_drop]; omega)]
  · intro ref' goes
    obtain ⟨n, some_, there, rfl⟩ := place.next only answer goes
    have inside := there.2
    have length : ((cut.drop i).take n).length = n := by
      rw [List.length_take, List.length_drop]
      omega
    refine ⟨i + n, there, ?_⟩
    have parts := joins i ((cut.drop i).take n) ((cut.drop i).drop n)
    rw [List.take_append_drop, length, List.drop_drop] at parts
    rw [has, parts]

end Reading

/-! ### Chunks -/

/-- The letters of the standard alphabet read as those of the URL alphabet. -/
theorem urlLetter_standardLetter
    {n : Nat} (short : n < 64) :
  urlLetter (standardLetter (Base64.letter n)) = Base64.letter n
  := by
  have all : ∀ n < 64, urlLetter (standardLetter (Base64.letter n)) = Base64.letter n := by decide
  exact all n short

/-- A chunk reads as its bytes. -/
theorem decodeChunk_encodeChunk
    (bytes : List UInt8) :
  decodeChunk (encodeChunk bytes) = some bytes
  := by
  have letters :
      ((Base64.encode bytes).map standardLetter).map urlLetter = Base64.encode bytes := by
    rw [Base64.encode_eq, List.map_map, List.map_map]
    refine List.map_congr_left fun n mem => ?_
    exact urlLetter_standardLetter (Base64.groups_short bytes n mem)
  rw [decodeChunk, encodeChunk, String.toList_ofList, letters]
  exact Base64.decode_encode bytes

/-- A chunk of bytes has the next ones, and refers to the place after its last one until the end. -/
theorem boundedDetailChunk_ok
    {raw : List UInt8} {digest : String} {offset : Nat} {nextRef : Nat → String}
    (named : ∀ i, nextRef i ≠ "") {chunk : BoundedDetailChunk}
    (given : boundedDetailChunk raw digest offset nextRef = .ok chunk) :
  ∃ n, decodeChunk chunk.chunk = some ((raw.drop offset).take n) ∧ n ≤ boundedDetailChunkBytes
    ∧ chunk.digest = digest ∧ chunk.totalBytes = raw.length
    ∧ ((offset + n = raw.length ∧ chunk.next = none)
      ∨ offset + n < raw.length ∧ 0 < n ∧ chunk.next = some (nextRef (offset + n)))
  := by
  simp only [boundedDetailChunk, bind_eq_ok, check_eq_ok, decide_eq_true_eq] at given
  obtain ⟨-, inside, given⟩ := given
  obtain rfl := Except.ok.inj given
  have limit : 0 < boundedDetailChunkBytes := by decide
  refine ⟨min (offset + boundedDetailChunkBytes) raw.length - offset,
    decodeChunk_encodeChunk _, by omega, rfl, rfl, ?_⟩
  have place : offset + (min (offset + boundedDetailChunkBytes) raw.length - offset)
      = min (offset + boundedDetailChunkBytes) raw.length := by omega
  rw [place]
  by_cases more : min (offset + boundedDetailChunkBytes) raw.length < raw.length
  · refine .inr ⟨more, by omega, ?_⟩
    simp only [BoundedDetailChunk.next, if_pos more, if_neg (named _)]
  · refine .inl ⟨by omega, ?_⟩
    simp only [BoundedDetailChunk.next, if_neg more, if_true]

/-- Each place in the bytes has a chunk. -/
theorem exists_boundedDetailChunk
    (raw : List UInt8) (digest : String) {offset : Nat} (nextRef : Nat → String)
    (inside : offset ≤ raw.length) :
  ∃ chunk, boundedDetailChunk raw digest offset nextRef = .ok chunk
  := by
  rw [boundedDetailChunk, decide_eq_true inside]
  exact ⟨_, rfl⟩

section Chunks

variable {hash : HashFunction} {states : State → Prop} {cut : List String}

/-- The answer to a reference of a chunk is a chunk of the item. -/
theorem Answers.chunk
    (only : OnlyCut hash states cut) {index offset : Nat} {item : String}
    (known : cut[index]? = some item) {chunk : BoundedDetailChunk}
    (answer : Answers hash states .chunk
      (dependencyCutItemRef (dependencyCutDigest hash cut) index offset) chunk) :
  boundedDetailChunk (itemBytes item) (hash (.joined item)).digest offset
    (dependencyCutItemRef (dependencyCutDigest hash cut) index) = .ok chunk
  := by
  obtain ⟨s, incidents, nodes, now, visits, given⟩ := answer
  obtain ⟨-, chunk', same, given⟩ := (inspectCut_dependencyCutItemRef ..).mp given
  obtain rfl := CutAnswer.chunk.inj same
  simp only [dependencyCutItemPage, bind_eq_ok, need_eq_ok] at given
  obtain ⟨cut', found, item', known', given⟩ := given
  obtain ⟨rfl, -⟩ := only.found now visits found
  obtain rfl := Option.some.inj (known'.symm.trans known)
  exact given

/-- The places of references of chunks of an item. -/
def ChunkPlace (hash : HashFunction) (cut : List String) (index : Nat) (ref : String)
    (offset : Nat) : Prop :=
  ref = dependencyCutItemRef (dependencyCutDigest hash cut) index offset

/-- A chunk has the next bytes of the item, and refers to the place after its last one until the
end. -/
theorem ChunkPlace.read
    (only : OnlyCut hash states cut) {index offset : Nat} {item : String}
    (known : cut[index]? = some item) {ref : String} (place : ChunkPlace hash cut index ref offset)
    {chunk : BoundedDetailChunk} (answer : Answers hash states .chunk ref chunk) :
  ∃ n, decodeChunk chunk.chunk = some (((itemBytes item).drop offset).take n)
    ∧ n ≤ boundedDetailChunkBytes ∧ chunk.digest = (hash (.joined item)).digest
    ∧ chunk.totalBytes = (itemBytes item).length
    ∧ (chunk.next = none → offset + n = (itemBytes item).length)
    ∧ ∀ ref', chunk.next = some ref' →
      ChunkPlace hash cut index ref' (offset + n) ∧ 0 < n ∧ offset + n < (itemBytes item).length
  := by
  obtain rfl := place
  obtain ⟨n, bytes, few, digest, total, ends⟩ :=
    boundedDetailChunk_ok (dependencyCutItemRef_ne_empty _ index) (answer.chunk only known)
  refine ⟨n, bytes, few, digest, total, ?_⟩
  rcases ends with ⟨all, stop⟩ | ⟨inside, some_, goes⟩
  · exact ⟨fun _ => all, fun _ goes => absurd (stop.symm.trans goes) (Option.some_ne_none _).symm⟩
  · refine ⟨fun stop => absurd (goes.symm.trans stop) (Option.some_ne_none _), ?_⟩
    intro ref' goes'
    exact ⟨(Option.some.inj (goes.symm.trans goes')).symm, some_, inside⟩

end Chunks

/-! ### A page with one item is small -/

namespace Marshal

/-- A list of items has its items, the brackets and less commas than items. -/
theorem listSize_le
    (sizes : List Nat) :
  listSize sizes ≤ 2 + sizes.sum + sizes.length
  := by
  rw [listSize]
  omega

/-- Six bytes are enough for a character. -/
theorem charSize_le
    (c : Char) :
  charSize c ≤ 6
  := by
  have four := Char.utf8Size_le_four c
  rw [charSize]
  split_ifs <;> omega

/-- Six bytes for each character are enough for a text in its quotes. -/
theorem textSize_le
    (s : String) :
  textSize s ≤ 2 + 6 * s.toList.length
  := by
  have bound := List.sum_le_card_nsmul (s.toList.map charSize) 6 fun size mem => by
    obtain ⟨c, -, rfl⟩ := List.mem_map.mp mem
    exact charSize_le c
  rw [List.length_map, smul_eq_mul] at bound
  rw [textSize]
  omega

/-- Nineteen digits are enough for a number that fits in a machine word. -/
theorem numberSize_le
    {n : Nat} (small : n < 2 ^ 63) :
  numberSize n ≤ 19
  := by
  rw [numberSize, Nat.length_toDigits_le_iff (by decide) (by decide)]
  omega

end Marshal

section Sizes

/-- A text has at least as many bytes as characters. -/
theorem length_toList_le
    (s : String) :
  s.toList.length ≤ s.utf8ByteSize
  := by
  have bound := List.length_le_sum_of_one_le (s.toList.map Char.utf8Size) fun size mem => by
    obtain ⟨c, -, rfl⟩ := List.mem_map.mp mem
    exact Char.utf8Size_pos c
  rw [List.length_map] at bound
  rw [utf8ByteSize_eq]
  exact bound

/-- What stands for an item in a page is short. -/
theorem textSize_inlineItem_le
    (item : String) :
  textSize (inlineItem item) ≤ 2 + 6 * preWaitInlineIDBytes
  := by
  have bound := textSize_le (inlineItem item)
  have length := length_toList_le (inlineItem item)
  have short : (inlineItem item).utf8ByteSize ≤ preWaitInlineIDBytes := by
    rw [inlineItem]
    split_ifs with long
    · decide
    · simpa [oversized] using long
  omega

variable (h : Hex)

/-- A digest is short. -/
theorem textSize_digest_le :
  textSize ("sha256:" ++ h.text) ≤ 428
  := by
  have bound := textSize_le ("sha256:" ++ h.text)
  have seven : "sha256:".toList.length = 7 := by decide
  rw [String.toList_append, List.length_append, seven, h.length_toList] at bound
  omega

/-- The reference of a page is short. -/
theorem textSize_dependencyCutRef_le
    (offset : Nat) (small : offset < 2 ^ 63) :
  textSize (dependencyCutRef h.text offset) ≤ 596
  := by
  have bound := textSize_le (dependencyCutRef h.text offset)
  have kind : dependencyCutKind.toList.length = 14 := by decide
  have number : (Nat.toDigits 10 offset).length ≤ 19 := numberSize_le small
  rw [toList_dependencyCutRef, List.length_append, List.length_cons, List.length_append,
    List.length_cons, kind, h.length_toList] at bound
  omega

/-- The reference of a chunk is short. -/
theorem textSize_dependencyCutItemRef_le
    {index : Nat} (small : index < 2 ^ 63) :
  textSize (dependencyCutItemRef h.text index 0) ≤ 638
  := by
  have bound := textSize_le (dependencyCutItemRef h.text index 0)
  have kind : dependencyCutItemKind.toList.length = 19 := by decide
  have number : (Nat.toDigits 10 index).length ≤ 19 := numberSize_le small
  have zero : (Nat.toDigits 10 0).length = 1 := by decide
  rw [toList_dependencyCutItemRef, List.length_append, List.length_cons, List.length_append,
    List.length_cons, List.length_append, List.length_cons, kind, h.length_toList, zero] at bound
  omega

/-- What a page says of a long item is short. -/
theorem size_itemRef_le
    (hash : HashFunction) (index : Nat) (item : String) (small : index < 2 ^ 63)
    (short : item.utf8ByteSize < 2 ^ 63) :
  (itemRef hash h.text index item).size ≤ 1300
  := by
  have digest : textSize (hash (.joined item)).digest ≤ 428 := textSize_digest_le _
  have ref := textSize_dependencyCutItemRef_le h small
  have number := numberSize_le small
  have bytes := numberSize_le short
  have names : textSize "index" = 7 ∧ textSize "inspectRef" = 12 ∧ textSize "digest" = 8
      ∧ textSize "bytes" = 7 := by decide +kernel
  obtain ⟨first, second, third, fourth⟩ := names
  have bound := listSize_le [memberSize "index" (numberSize index),
    memberSize "inspectRef" (textSize (dependencyCutItemRef h.text index 0)),
    memberSize "digest" (textSize (hash (.joined item)).digest),
    memberSize "bytes" (numberSize item.utf8ByteSize)]
  simp only [memberSize, first, second, third, fourth, List.sum_cons, List.sum_nil,
    List.length_cons, List.length_nil] at bound
  refine bound.trans ?_
  omega

/-- A page with one item is small enough, whatever the item is. -/
theorem size_onePage_le
    (hash : HashFunction) {cut : List String} {offset : Nat} (inside : offset < cut.length)
    (short : cut.length < 2 ^ 63) (sizes : ∀ item ∈ cut, item.utf8ByteSize < 2 ^ 63) :
  ((cutPage hash h.text cut offset 1).withNext h.text).size ≤ preWaitMaxBytes
  := by
  have one : (cut.drop offset).take 1 = [cut[offset]] := by
    rw [List.drop_eq_getElem_cons inside]
    rfl
  have items := textSize_inlineItem_le cut[offset]
  have long := size_itemRef_le h hash offset cut[offset] (by omega)
    (sizes cut[offset] (List.getElem_mem inside))
  have digest := textSize_digest_le h
  have ref := textSize_dependencyCutRef_le h (offset + 1) (by omega)
  have start := numberSize_le (n := offset) (by omega)
  have total := numberSize_le short
  have names : textSize "offset" = 8 ∧ textSize "total" = 7 ∧ textSize "digest" = 8
      ∧ textSize "items" = 7 ∧ textSize "oversizedItems" = 16 ∧ textSize "nextRef" = 9 := by
    decide +kernel
  have inline : preWaitInlineIDBytes = 2048 := rfl
  have limit : preWaitMaxBytes = 24576 := rfl
  obtain ⟨offsetName, totalName, digestName, itemsName, longName, nextName⟩ := names
  have few : ∀ size, listSize [size] = 2 + size := fun size => by simp [listSize]
  refine (listSize_le _).trans ?_
  by_cases more : offset + 1 < cut.length <;> by_cases tooLong : oversized cut[offset] = true
  all_goals
    simp only [DependencyCutPage.withNext, cutPage, one, oversizedItems, tooLong, more, memberSize,
      offsetName, totalName, digestName, itemsName, longName, nextName, few,
      dependencyCutRef_ne_empty, List.map_cons, List.map_nil, List.length_cons, List.length_nil,
      List.sum_append,
      List.sum_cons, List.sum_nil, List.length_append, List.isEmpty_cons, List.isEmpty_nil,
      Nat.zero_add, Bool.false_eq_true, if_true, if_false]
    omega

end Sizes

section Given

variable {hash : HashFunction} {cut : List String}

/-- If a page with one item is small enough, some page fits. -/
theorem exists_fit_cutPage
    {digest : String} {offset : Nat}
    (single : ((cutPage hash digest cut offset 1).withNext digest).size ≤ preWaitMaxBytes)
    (count : Nat) (inside : offset + count ≤ cut.length) (positive : 0 < count) (nextRef : String) :
  ∃ page, { cutPage hash digest cut offset count with nextRef }.fit digest = .ok page
  := by
  induction count generalizing nextRef with
  | zero => exact absurd positive (lt_irrefl 0)
  | succ count ih =>
      have same : { cutPage hash digest cut offset (count + 1) with nextRef }.withNext digest
          = (cutPage hash digest cut offset (count + 1)).withNext digest := rfl
      rw [DependencyCutPage.fit, same]
      split_ifs with small last
      · exact ⟨_, rfl⟩
      · simp only [length_cutPage hash digest inside] at last
        obtain rfl : count = 0 := by omega
        exact absurd single small
      · simp only [length_cutPage hash digest inside] at last
        rw [DependencyCutPage.withNext, dropLast_cutPage inside]
        exact ih (by omega) (by omega) _

/-- In every state with the cut, each place in front of the end is answered. -/
theorem exists_inspectCut
    {states : State → Prop} (only : OnlyCut hash states cut) (short : cut.length < 2 ^ 63)
    (sizes : ∀ item ∈ cut, item.utf8ByteSize < 2 ^ 63) {s : State} (now : states s)
    (known : cut ∈ s.dependencyCuts) {incidents : List Incident} {nodes : List String}
    (visits : s.Visits incidents nodes) {offset : Nat} (inside : offset < cut.length) :
  ∃ page, inspectCut hash s incidents nodes
    (dependencyCutRef (dependencyCutDigest hash cut) offset) = .ok (.page page)
  := by
  have found := only.find now visits known
  let h := hash (.joined ("\x00".intercalate cut))
  have limit : 0 < preWaitPageLimit := by decide
  obtain ⟨page, fits⟩ := exists_fit_cutPage (size_onePage_le h hash inside short sizes)
    (min (offset + preWaitPageLimit) cut.length - offset) (by omega) (by omega) ""
  refine ⟨page, (inspectCut_dependencyCutRef hash s incidents nodes h offset _).mpr ?_⟩
  refine ⟨by omega, page, rfl, ?_⟩
  simp only [dependencyCutPage, bind_eq_ok, check_eq_ok, need_eq_ok]
  refine ⟨(), h.validCutDigest_text, cut, found, ?_⟩
  rw [if_neg (by omega)]
  exact fits

/-- The pages of a cut can be read to their end. -/
theorem exists_pages
    {states : State → Prop} (only : OnlyCut hash states cut) (short : cut.length < 2 ^ 63)
    (sizes : ∀ item ∈ cut, item.utf8ByteSize < 2 ^ 63) {s : State} (now : states s)
    (known : cut ∈ s.dependencyCuts) {incidents : List Incident} {nodes : List String}
    (visits : s.Visits incidents nodes) :
  ∃ pages, pages.length ≤ cut.length
    ∧ Walk (Answers hash states .page) DependencyCutPage.next
      (dependencyCutRef (dependencyCutDigest hash cut) 0) pages
  := by
  have some_ : 0 < cut.length := List.length_pos_iff.mpr (ne_nil_of_mem_dependencyCuts known)
  have answered (ref : String) (i : Nat) (place : PagePlace hash cut ref i)
      (inside : i < cut.length) : ∃ page, Answers hash states .page ref page := by
    obtain ⟨rfl, -⟩ := place
    obtain ⟨page, answer⟩ := exists_inspectCut only short sizes now known visits inside
    exact ⟨page, s, incidents, nodes, now, visits, answer⟩
  have grows (ref : String) (i : Nat) (page : DependencyCutPage) (place : PagePlace hash cut ref i)
      (_ : i < cut.length) (answer : Answers hash states .page ref page) (ref' : String)
      (goes : page.next = some ref') : ∃ j, PagePlace hash cut ref' j ∧ i < j ∧ j < cut.length := by
    obtain ⟨n, some_, there, -⟩ := place.next only answer goes
    exact ⟨i + n, there, by omega, there.2⟩
  obtain ⟨pages, walk, few⟩ :=
    exists_walk (PagePlace hash cut) cut.length answered grows ⟨rfl, some_⟩ some_
  exact ⟨pages, few, walk⟩

/-- The chunks of an item can be read to their end. -/
theorem exists_chunks
    {states : State → Prop} (only : OnlyCut hash states cut) (short : cut.length < 2 ^ 63)
    (sizes : ∀ item ∈ cut, item.utf8ByteSize < 2 ^ 63) {s : State} (now : states s)
    (known : cut ∈ s.dependencyCuts) {incidents : List Incident} {nodes : List String}
    (visits : s.Visits incidents nodes) {index : Nat} (inside : index < cut.length) :
  ∃ chunks, Walk (Answers hash states .chunk) BoundedDetailChunk.next
    (dependencyCutItemRef (dependencyCutDigest hash cut) index 0) chunks
  := by
  let raw := itemBytes cut[index]
  have length : raw.length < 2 ^ 63 := sizes cut[index] (List.getElem_mem inside)
  have known' : cut[index]? = some cut[index] := List.getElem?_eq_getElem inside
  have answered (ref : String) (i : Nat) (there : ChunkPlace hash cut index ref i)
      (small : i < raw.length + 1) : ∃ chunk, Answers hash states .chunk ref chunk := by
    obtain rfl := there
    have found := only.find now visits known
    obtain ⟨chunk, given⟩ := exists_boundedDetailChunk raw (hash (.joined cut[index])).digest
      (dependencyCutItemRef (dependencyCutDigest hash cut) index) (Nat.le_of_lt_succ small)
    refine ⟨chunk, s, incidents, nodes, now, visits, ?_⟩
    refine (inspectCut_dependencyCutItemRef hash s incidents nodes
      (hash (.joined ("\x00".intercalate cut))) index i _).mpr ?_
    refine ⟨⟨by omega, by omega⟩, chunk, rfl, ?_⟩
    simp only [dependencyCutItemPage, bind_eq_ok, need_eq_ok]
    exact ⟨cut, found, _, known', given⟩
  have grows (ref : String) (i : Nat) (chunk : BoundedDetailChunk)
      (there : ChunkPlace hash cut index ref i) (_ : i < raw.length + 1)
      (answer : Answers hash states .chunk ref chunk) (ref' : String)
      (goes : chunk.next = some ref') :
      ∃ j, ChunkPlace hash cut index ref' j ∧ i < j ∧ j < raw.length + 1 := by
    obtain ⟨n, -, -, -, -, -, later⟩ := there.read only known' answer
    obtain ⟨there', some_, inside⟩ := later ref' goes
    exact ⟨i + n, there', by omega, lt_trans inside (Nat.lt_succ_self _)⟩
  obtain ⟨chunks, walk, -⟩ :=
    exists_walk (ChunkPlace hash cut index) (raw.length + 1) answered grows rfl (Nat.succ_pos _)
  exact ⟨chunks, walk⟩

end Given

/-! ### A state with a recorded cut -/

namespace SamplePages

/-- A hash that is always zero. -/
def hash : HashFunction := fun _ => Hex.zero

/-- An incident with a cut of two nodes. -/
def incident : Incident where
  id := "incident"
  sourceType := "attempt"
  sourceId := "attempt"
  status := .opened
  classification := "failed"
  attemptBudget := 1
  dependencyCut := some ["a", "b"]
  openedAt := .utc 1
  updatedAt := .utc 1

/-- A state with the incident. -/
def state : State :=
  { State.new "p" with incidents := (∅ : Table Incident).insert "incident" incident }

/-- The cuts of the state. -/
theorem cuts :
  state.dependencyCuts = [["a", "b"]]
  := by
  decide +kernel

/-- The state has the cut. -/
theorem known :
  ∀ s, s = state → ["a", "b"] ∈ s.dependencyCuts
  := by
  rintro s rfl
  rw [cuts]
  exact List.mem_singleton_self _

/-- The state is visited. -/
theorem visits :
  state.Visits [incident] []
  where
  incidents := by
    have values : state.incidents.values = [incident] := by decide +kernel
    rw [values]
  nodup := List.nodup_nil
  nodes nodeId := by
    have none_ : state.cutNodes = [] := by decide +kernel
    rw [none_]

/-- No other cut of the state has the digest of the cut. -/
theorem only :
  OnlyCut hash (· = state) ["a", "b"]
  := by
  have plain : ∀ nodeId ∈ ["a", "b"], '\x00' ∉ nodeId.toList := by decide
  refine .of_free (by decide) ?_ plain ?_
  · rintro s rfl cut' mem -
    rw [cuts, List.mem_singleton] at mem
    rw [mem]
  · rintro s rfl cut' mem
    rw [cuts, List.mem_singleton] at mem
    rw [mem]
    exact plain

/-- The cut and its items have lengths. -/
theorem lengths :
  (["a", "b"] : List String).length < 2 ^ 63
    ∧ ∀ item ∈ (["a", "b"] : List String), item.utf8ByteSize < 2 ^ 63
  := by
  decide

end SamplePages

/-- Whoever follows the references of a cut from its first one gets the cut and what there is to say
of its long items, in order, in pages that are bounded in items and in bytes, whatever happens to
the journal in between. -/
theorem cut_read_in_pages
    {hash : HashFunction} {states : State → Prop} {cut : List String}
    (only : OnlyCut hash states cut) {pages : List DependencyCutPage}
    (walk : Walk (Answers hash states .page) DependencyCutPage.next
      (dependencyCutRef (dependencyCutDigest hash cut) 0) pages) :
  pages.flatMap (·.items) = cut.map inlineItem
    ∧ pages.flatMap (·.oversizedItems) = oversizedItems hash (dependencyCutDigest hash cut) 0 cut
    ∧ ∀ page ∈ pages, page.total = cut.length ∧ page.items.length ≤ preWaitPageLimit
      ∧ page.size ≤ preWaitMaxBytes
  := by
  have start : PagePlace hash cut (dependencyCutRef (dependencyCutDigest hash cut) 0) 0 :=
    ⟨rfl, List.length_pos_iff.mpr ((walk.answer).elim fun _ given => given.ne_nil only)⟩
  refine ⟨?_, ?_, ?_⟩
  · exact flatMap_pages only (fun _ items => items.map inlineItem) (fun _ _ => rfl)
      (fun _ _ _ => List.map_append) walk start
  · exact flatMap_pages only (oversizedItems hash (dependencyCutDigest hash cut))
      (fun _ _ => rfl) oversizedItems_append walk start
  · refine walk.forall (fun ref => ∃ offset, PagePlace hash cut ref offset) ?_ ⟨0, start⟩
    rintro ref page ⟨offset, place⟩ answer
    constructor
    · obtain ⟨rfl, inside⟩ := place
      obtain ⟨n, -, few, short, rfl, small⟩ := answer.page only inside
      refine ⟨rfl, ?_, small⟩
      exact (length_cutPage hash (dependencyCutDigest hash cut) short).trans_le few
    · intro ref' goes
      obtain ⟨n, -, there, -⟩ := place.next only answer goes
      exact ⟨offset + n, there⟩

/-- A cut of two nodes is read in pages. -/
theorem cut_read_in_pages_sample :
  ∃ pages, Walk (Answers SamplePages.hash (· = SamplePages.state) .page) DependencyCutPage.next
      (dependencyCutRef (dependencyCutDigest SamplePages.hash ["a", "b"]) 0) pages
    ∧ pages.flatMap (·.items) = ["a", "b"]
  := by
  obtain ⟨pages, -, walk⟩ := exists_pages SamplePages.only SamplePages.lengths.1
    SamplePages.lengths.2 rfl (SamplePages.known _ rfl) SamplePages.visits
  have items : (["a", "b"] : List String).map inlineItem = ["a", "b"] := by decide
  exact ⟨pages, walk, (cut_read_in_pages SamplePages.only walk).1.trans items⟩

/-- The chunks of an item of a cut, read one after the other by their references, are the bytes of
the item, whatever happens to the journal in between. -/
theorem item_read_in_chunks
    {hash : HashFunction} {states : State → Prop} {cut : List String}
    (only : OnlyCut hash states cut) {index : Nat} {item : String}
    (known : cut[index]? = some item) {chunks : List BoundedDetailChunk}
    (walk : Walk (Answers hash states .chunk) BoundedDetailChunk.next
      (dependencyCutItemRef (dependencyCutDigest hash cut) index 0) chunks) :
  chunks.flatMap (fun chunk => (decodeChunk chunk.chunk).getD []) = itemBytes item
    ∧ ∀ chunk ∈ chunks, chunk.digest = (hash (.joined item)).digest
      ∧ chunk.totalBytes = (itemBytes item).length
      ∧ ∃ bytes, decodeChunk chunk.chunk = some bytes ∧ bytes.length ≤ boundedDetailChunkBytes
  := by
  constructor
  · refine walk.flatMap_eq (ChunkPlace hash cut index) (fun i => (itemBytes item).drop i) ?_ rfl
    intro ref i chunk place answer
    obtain ⟨n, bytes, -, -, -, last, later⟩ := place.read only known answer
    rw [bytes, Option.getD_some]
    constructor
    · intro stop
      have all := last stop
      exact List.take_of_length_le (by rw [List.length_drop]; omega)
    · intro ref' goes
      refine ⟨i + n, (later ref' goes).1, ?_⟩
      rw [← List.drop_drop, List.take_append_drop]
  · refine walk.forall (fun ref => ∃ offset, ChunkPlace hash cut index ref offset) ?_ ⟨0, rfl⟩
    rintro ref chunk ⟨i, place⟩ answer
    obtain ⟨n, bytes, few, digest, total, -, later⟩ := place.read only known answer
    refine ⟨⟨digest, total, _, bytes, (List.length_take_le ..).trans few⟩, ?_⟩
    exact fun ref' goes => ⟨i + n, (later ref' goes).1⟩

/-- An item of a cut is read in chunks. -/
theorem item_read_in_chunks_sample :
  ∃ chunks, Walk (Answers SamplePages.hash (· = SamplePages.state) .chunk) BoundedDetailChunk.next
      (dependencyCutItemRef (dependencyCutDigest SamplePages.hash ["a", "b"]) 1 0) chunks
    ∧ chunks.flatMap (fun chunk => (decodeChunk chunk.chunk).getD []) = itemBytes "b"
  := by
  obtain ⟨chunks, walk⟩ := exists_chunks SamplePages.only SamplePages.lengths.1
    SamplePages.lengths.2 rfl (SamplePages.known _ rfl) SamplePages.visits (by decide : 1 < 2)
  exact ⟨chunks, walk, (item_read_in_chunks SamplePages.only rfl walk).1⟩

/-- As long as the states have the cut, every reference of a page in front of the end is answered
with at least one more item, whatever the items are; so a cut that a remediation is bound to can be
read to its end from the reference in the remediation, and each of its items in chunks. -/
theorem cut_pages_given
    {hash : HashFunction} {states : State → Prop} {cut : List String}
    (only : OnlyCut hash states cut) (known : ∀ s, states s → cut ∈ s.dependencyCuts)
    (short : cut.length < 2 ^ 63) (sizes : ∀ item ∈ cut, item.utf8ByteSize < 2 ^ 63)
    {s : State} (now : states s) {incidents : List Incident} {nodes : List String}
    (visits : s.Visits incidents nodes) (remediation : Remediation) :
  (∀ offset < cut.length, ∃ page, page.items ≠ [] ∧ inspectCut hash s incidents nodes
      (dependencyCutRef (dependencyCutDigest hash cut) offset) = .ok (.page page))
    ∧ (∃ pages, pages.length ≤ cut.length
      ∧ Walk (Answers hash states .page) DependencyCutPage.next
        (bindDependencyCut hash remediation cut).dependencyCutRef pages)
    ∧ ∀ index < cut.length, ∃ chunks,
      Walk (Answers hash states .chunk) BoundedDetailChunk.next
        (dependencyCutItemRef (dependencyCutDigest hash cut) index 0) chunks
  := by
  rw [dependencyCutRef_bindDependencyCut (ne_nil_of_mem_dependencyCuts (known s now))]
  refine ⟨?_, exists_pages only short sizes now (known s now) visits, ?_⟩
  · intro offset inside
    obtain ⟨page, answer⟩ := exists_inspectCut only short sizes now (known s now) visits inside
    obtain ⟨n, some_, -, few, rfl, -⟩ :=
      Answers.page only inside ⟨s, incidents, nodes, now, visits, answer⟩
    refine ⟨_, ?_, answer⟩
    exact List.ne_nil_of_length_pos
      ((length_cutPage hash (dependencyCutDigest hash cut) few).symm ▸ some_)
  · exact fun index inside => exists_chunks only short sizes now (known s now) visits inside

/-- The cut of two nodes is read to its end. -/
theorem cut_pages_given_sample :
  ∃ pages, pages.length ≤ 2
    ∧ Walk (Answers SamplePages.hash (· = SamplePages.state) .page) DependencyCutPage.next
      (bindDependencyCut SamplePages.hash { targetRef := "effect:e" }
        ["a", "b"]).dependencyCutRef pages
  := by
  exact (cut_pages_given SamplePages.only SamplePages.known SamplePages.lengths.1
    SamplePages.lengths.2 rfl SamplePages.visits { targetRef := "effect:e" }).2.1

end Dagrail
