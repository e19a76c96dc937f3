import Dagrail.Service.Digest

/-!
# The platform

What the service relies on outside its own code: the hash function, the screen for
credential-like material, the URL parser, and what the compiled providers declare.
-/

namespace Dagrail

/-- What a URL parser says about a URL. -/
structure ParsedURL where
  scheme : String
  hasUser : Bool
deriving DecidableEq

/-- Metadata that a compiled provider declares. -/
structure ProviderMetadata where
  id : String
  version : String
  schemaHash : String
deriving DecidableEq, Inhabited

/-- Compiled providers by id. Registration refuses incomplete metadata and files a provider under
the id it declares. -/
structure Registry where
  lookup : String → Option ProviderMetadata
  keyed : ∀ id m, lookup id = some m → m.id = id
  versioned : ∀ id m, lookup id = some m → m.version ≠ ""
  bound : ∀ id m, lookup id = some m → m.schemaHash ≠ ""

namespace Registry

/-- The registry without providers. -/
def empty : Registry where
  lookup _ := none
  keyed := by simp
  versioned := by simp
  bound := by simp

/-- The registry with one provider. -/
def single (m : ProviderMetadata) (version : m.version ≠ "") (schema : m.schemaHash ≠ "") :
    Registry where
  lookup id := if id = m.id then some m else none
  keyed id m' := by
    simp only [Option.ite_none_right_eq_some, Option.some.injEq, and_imp]
    rintro rfl rfl
    rfl
  versioned id m' := by
    simp only [Option.ite_none_right_eq_some, Option.some.injEq, and_imp]
    rintro - rfl
    exact version
  bound id m' := by
    simp only [Option.ite_none_right_eq_some, Option.some.injEq, and_imp]
    rintro - rfl
    exact schema

end Registry

/-- The environment of the service. -/
structure Platform where
  /-- The hash of a record under its separator. -/
  hash : HashFunction
  /-- Does a graph pass the screen for credential-like material? -/
  screenGraph : GraphDefinition → Bool
  /-- Does a document pass the screen for credential-like material? -/
  screenDocument : Json → Bool
  /-- The number of bytes of the encoded document. -/
  encodedSize : Json → Nat
  /-- Parse a URL. -/
  parseURL : String → Option ParsedURL
  /-- Does a text satisfy the format and patterns the schema of an artifact URI asks for? -/
  uriFormat : String → Bool
  /-- The compiled effect adapters. -/
  effects : Registry
  /-- The compiled policy providers. -/
  policies : Registry
  /-- Are the providers a graph binds compiled in with the versions and schemas it binds? -/
  providersAvailable : GraphDefinition → Bool

/-- The platform without providers. Its screens pass everything and its hash is constant. -/
def Platform.plain : Platform where
  hash _ := Hex.zero
  screenGraph _ := true
  screenDocument _ := true
  encodedSize _ := 0
  parseURL _ := none
  uriFormat _ := false
  effects := .empty
  policies := .empty
  providersAvailable g := g.spec.providers.isEmpty

end Dagrail
