import Mathlib.Data.List.DropRight
import Dagrail.Foundation.Base64
import Dagrail.Foundation.Pages
import Dagrail.Service.CutReference

/-!
# Pages of dependency cuts

A cut is inspected by a reference with its digest, in pages that are bounded in items and in bytes,
and the ids that are too long for a page are given in chunks (`internal/service/query.go`). Whoever
follows the references gets the cut, whatever happens to the journal in between.
-/

namespace Dagrail

open Pages

/-! ### Bytes of JSON texts -/

namespace Marshal

/-- The number of bytes of a character in a text of `encoding/json`, which escapes what a browser
could take for markup. -/
def charSize (c : Char) : Nat :=
  if c = '"' ∨ c = '\\' ∨ c = '\n' ∨ c = '\r' ∨ c = '\t' ∨ c.toNat = 8 ∨ c.toNat = 12 then 2
  else if c.toNat < 0x20 ∨ c = '<' ∨ c = '>' ∨ c = '&' ∨ c.toNat = 0x2028 ∨ c.toNat = 0x2029 then 6
  else c.utf8Size

/-- The number of bytes of a text with its quotes. -/
def textSize (s : String) : Nat :=
  2 + (s.toList.map charSize).sum

/-- The number of bytes of a natural number. -/
def numberSize (n : Nat) : Nat :=
  (Nat.toDigits 10 n).length

/-- The number of bytes of a list of items of these sizes, with brackets and commas. -/
def listSize (sizes : List Nat) : Nat :=
  2 + sizes.sum + (sizes.length - 1)

/-- The number of bytes of a member of an object. -/
def memberSize (name : String) (size : Nat) : Nat :=
  textSize name + 1 + size

end Marshal

open Marshal

/-! ### Pages -/

/-- How many items a page has at most. -/
def preWaitPageLimit : Nat := 64

/-- How many bytes a page has at most. -/
def preWaitMaxBytes : Nat := 24 * 1024

/-- How many bytes a chunk has at most. -/
def boundedDetailChunkBytes : Nat := 12 * 1024

/-- What a page says of an item that is too long for it. -/
structure BoundedListItemRef where
  index : Nat
  inspectRef : String
  digest : String
  bytes : Nat
deriving DecidableEq

/-- The number of bytes of the reference of an item. -/
def BoundedListItemRef.size (item : BoundedListItemRef) : Nat :=
  listSize [memberSize "index" (numberSize item.index),
    memberSize "inspectRef" (textSize item.inspectRef), memberSize "digest" (textSize item.digest),
    memberSize "bytes" (numberSize item.bytes)]

/-- A page of a cut. Items that are too long are left empty in it. -/
structure DependencyCutPage where
  offset : Nat
  total : Nat
  digest : String
  items : List String := []
  oversizedItems : List BoundedListItemRef := []
  nextRef : String := ""
deriving DecidableEq

/-- The number of bytes of a page. Members that are empty are left out. -/
def DependencyCutPage.size (page : DependencyCutPage) : Nat :=
  listSize (
    [memberSize "offset" (numberSize page.offset), memberSize "total" (numberSize page.total),
      memberSize "digest" (textSize page.digest),
      memberSize "items" (listSize (page.items.map textSize))]
    ++ (if page.oversizedItems.isEmpty then []
      else [memberSize "oversizedItems"
        (listSize (page.oversizedItems.map BoundedListItemRef.size))])
    ++ if page.nextRef = "" then [] else [memberSize "nextRef" (textSize page.nextRef)])

/-- The kind of the references of pages. -/
def dependencyCutKind : String := "dependency-cut"

/-- The kind of the references of chunks. -/
def dependencyCutItemKind : String := "dependency-cut-item"

/-- The reference of a page. -/
def dependencyCutRef (digest : String) (offset : Nat) : String :=
  dependencyCutKind ++ ":" ++ digest ++ ":" ++ toString offset

/-- The reference of a chunk of an item. -/
def dependencyCutItemRef (digest : String) (index offset : Nat) : String :=
  dependencyCutItemKind ++ ":" ++ digest ++ ":" ++ toString index ++ ":" ++ toString offset

/-- Is an item too long for a page? -/
def oversized (item : String) : Bool :=
  decide (preWaitInlineIDBytes < item.utf8ByteSize)

/-- What stands for an item in a page. -/
def inlineItem (item : String) : String :=
  if oversized item then "" else item

/-- What is said of an item that is too long. -/
def itemRef (hash : HashFunction) (digest : String) (index : Nat) (item : String) :
    BoundedListItemRef where
  index
  inspectRef := dependencyCutItemRef digest index 0
  digest := (hash (.joined item)).digest
  bytes := item.utf8ByteSize

/-- What is said of the items that are too long, from an index on. -/
def oversizedItems (hash : HashFunction) (digest : String) : Nat → List String →
    List BoundedListItemRef
  | _, [] => []
  | index, item :: items =>
      if oversized item then
        itemRef hash digest index item :: oversizedItems hash digest (index + 1) items
      else oversizedItems hash digest (index + 1) items

/-- The page with so many items of a cut from an offset on, and without a reference. -/
def cutPage (hash : HashFunction) (digest : String) (cut : List String) (offset count : Nat) :
    DependencyCutPage where
  offset
  total := cut.length
  digest := "sha256:" ++ digest
  items := ((cut.drop offset).take count).map inlineItem
  oversizedItems := oversizedItems hash digest offset ((cut.drop offset).take count)

namespace DependencyCutPage

/-- The page with the reference of the next one. -/
def withNext (digest : String) (page : DependencyCutPage) : DependencyCutPage :=
  { page with
    nextRef :=
      if page.offset + page.items.length < page.total then
        dependencyCutRef digest (page.offset + page.items.length)
      else "" }

/-- The reference of the next page, if there is one. -/
def next (page : DependencyCutPage) : Option String :=
  if page.nextRef = "" then none else some page.nextRef

/-- The page without its last item. -/
def dropLast (page : DependencyCutPage) : DependencyCutPage :=
  { page with
    items := page.items.dropLast
    oversizedItems := page.oversizedItems.rdropWhile fun item =>
      decide (page.offset + page.items.length - 1 ≤ item.index) }

/-- Items are dropped from the end of the page until it is small enough. -/
def fit (digest : String) (page : DependencyCutPage) : Fallible DependencyCutPage :=
  if (page.withNext digest).size ≤ preWaitMaxBytes then .ok (page.withNext digest)
  else if page.items.length ≤ 1 then
    .error "dependency cut page metadata exceeds 24576-byte response limit"
  else fit digest (page.withNext digest).dropLast
termination_by page.items.length
decreasing_by
  simp only [dropLast, withNext, List.length_dropLast]
  omega

end DependencyCutPage

/-- The digest is a hash in hexadecimal digits. -/
def validCutDigest (digest : String) : Bool :=
  digest.utf8ByteSize = 64 && digest.toList.all fun c =>
    c.isDigit || ('a' ≤ c && c ≤ 'f') || ('A' ≤ c && c ≤ 'F')

section Cuts

variable (hash : HashFunction) (s : State) (incidents : List Incident) (nodes : List String)

/-- The page of the cut with a digest from an offset on, for the orders in which the incidents and
the nodes are visited. -/
def dependencyCutPage (digest : String) (offset : Nat) : Fallible DependencyCutPage := do
  check (validCutDigest digest) "invalid dependency cut digest"
  let cut ← need (dependencyCutByDigest hash s incidents nodes digest)
    "unknown dependency cut reference"
  if cut.length ≤ offset then
    .ok { offset, total := cut.length, digest := "sha256:" ++ digest }
  else
    let stop := min (offset + preWaitPageLimit) cut.length
    (cutPage hash digest cut offset (stop - offset)).fit digest

/-! ### Chunks -/

/-- A chunk of bytes. -/
structure BoundedDetailChunk where
  digest : String
  offset : Nat
  totalBytes : Nat
  encoding : String
  chunk : String
  nextRef : String
deriving DecidableEq

/-- The reference of the next chunk, if there is one. -/
def BoundedDetailChunk.next (chunk : BoundedDetailChunk) : Option String :=
  if chunk.nextRef = "" then none else some chunk.nextRef

/-- The letters of the standard alphabet of base64 for those of the URL alphabet. -/
def standardLetter (c : Char) : Char :=
  if c = '-' then '+' else if c = '_' then '/' else c

/-- The letters of the URL alphabet of base64 for those of the standard alphabet. -/
def urlLetter (c : Char) : Char :=
  if c = '+' then '-' else if c = '/' then '_' else c

/-- `base64.RawStdEncoding`. -/
def encodeChunk (bytes : List UInt8) : String :=
  String.ofList ((Base64.encode bytes).map standardLetter)

/-- The bytes of a chunk. -/
def decodeChunk (chunk : String) : Option (List UInt8) :=
  Base64.decode (chunk.toList.map urlLetter)

/-- The chunk of bytes from an offset on. -/
def boundedDetailChunk (raw : List UInt8) (digest : String) (offset : Nat)
    (nextRef : Nat → String) : Fallible BoundedDetailChunk := do
  check (decide (offset ≤ raw.length)) "invalid detail offset"
  let stop := min (offset + boundedDetailChunkBytes) raw.length
  .ok
    { digest
      offset
      totalBytes := raw.length
      encoding := "base64"
      chunk := encodeChunk ((raw.drop offset).take (stop - offset))
      nextRef := if stop < raw.length then nextRef stop else "" }

/-- The bytes of an item. -/
def itemBytes (item : String) : List UInt8 :=
  item.toUTF8.data.toList

/-- The chunk of an item of the cut with a digest. -/
def dependencyCutItemPage (digest : String) (index offset : Nat) :
    Fallible BoundedDetailChunk := do
  let cut ← need (dependencyCutByDigest hash s incidents nodes digest)
    "unknown dependency cut item reference"
  let item ← need cut[index]? "unknown dependency cut item reference"
  boundedDetailChunk (itemBytes item) (hash (.joined item)).digest offset
    (dependencyCutItemRef digest index)

/-! ### Inspection -/

/-- `strconv.Atoi`. -/
def atoi (text : List Char) : Option Int :=
  let digits := if text.head? = some '-' ∨ text.head? = some '+' then text.tail else text
  let value : Int := Nat.ofDigitChars 10 digits 0
  let signed := if text.head? = some '-' then -value else value
  if digits ≠ [] ∧ digits.all Char.isDigit ∧ -2 ^ 63 ≤ signed ∧ signed < 2 ^ 63 then some signed
  else none

/-- A number of a reference, which is not negative. -/
def position (text : List Char) : Option Nat :=
  (atoi text).bind fun n => if n < 0 then none else some n.toNat

/-- `strings.Cut` at a colon. -/
def cutColon (text : List Char) : Option (List Char × List Char) :=
  match text.dropWhile (· ≠ ':') with
  | [] => none
  | _ :: rest => some (text.takeWhile (· ≠ ':'), rest)

/-- What is given for a reference of a cut. -/
inductive CutAnswer where
  | page (page : DependencyCutPage)
  | chunk (chunk : BoundedDetailChunk)

/-- Inspect a page of a cut. -/
def inspectCutPage (id : List Char) : Fallible CutAnswer := do
  let (digest, offsetText) ← need (cutColon id) "invalid dependency cut page reference"
  let offset ← need (position offsetText) "invalid dependency cut page reference"
  let page ← dependencyCutPage hash s incidents nodes (String.ofList digest) offset
  .ok (.page page)

/-- Inspect a chunk of an item of a cut. -/
def inspectCutItem (id : List Char) : Fallible CutAnswer :=
  match id.splitOn ':' with
  | [digest, indexText, offsetText] => do
      check (decide ((String.ofList digest).utf8ByteSize = 64))
        "invalid dependency cut item reference"
      let index ← need (position indexText) "invalid dependency cut item position"
      let offset ← need (position offsetText) "invalid dependency cut item position"
      let chunk ← dependencyCutItemPage hash s incidents nodes (String.ofList digest) index offset
      .ok (.chunk chunk)
  | _ => .error "invalid dependency cut item reference"

/-- Inspect a reference of a cut. -/
def inspectCut (ref : String) : Fallible CutAnswer := do
  let (kind, id) ← need (cutColon ref.toList) "inspect ref must be project or kind:id"
  check (id ≠ []) "inspect ref must be project or kind:id"
  if kind = dependencyCutKind.toList then inspectCutPage hash s incidents nodes id
  else if kind = dependencyCutItemKind.toList then inspectCutItem hash s incidents nodes id
  else .error "not a reference of a cut"

end Cuts

/-- The answers of a kind to references, in some of the states. -/
def Answers {α : Type} (hash : HashFunction) (states : State → Prop) (kind : α → CutAnswer)
    (ref : String) (answer : α) : Prop :=
  ∃ s incidents nodes, states s ∧ s.Visits incidents nodes ∧
    inspectCut hash s incidents nodes ref = .ok (kind answer)

/-- No other cut of the states has the digest of the cut. -/
def OnlyCut (hash : HashFunction) (states : State → Prop) (cut : List String) : Prop :=
  ∀ s, states s → ∀ cut' ∈ s.dependencyCuts,
    dependencyCutDigest hash cut' = dependencyCutDigest hash cut → cut' = cut

end Dagrail
