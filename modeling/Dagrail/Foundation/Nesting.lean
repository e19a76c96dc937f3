import Mathlib.Data.List.Find

/-!
# Nested elements

Every element has the elements above it, and the chain of a place goes up from its element. Some
elements are collapsed: an element below a collapsed one is hidden. The innermost collapsed element
of a chain is visible only when no other one is above it, and so it may differ from the outermost.
-/

namespace Dagrail

/-- Chains of elements in which what follows an element is what is above it. -/
structure Nesting (α : Type) where
  chain : α → List α
  above : α → List α
  tails : ∀ {a l x r}, chain a = l ++ x :: r → r = above x

namespace Nesting

variable {α : Type} {N : Nesting α} {collapsed collapsed' : α → Bool} {a b c h x : α}

/-- Is the element below a collapsed one? -/
def hidden (N : Nesting α) (collapsed : α → Bool) (x : α) : Bool :=
  (N.above x).any collapsed

/-- Two places agree on every hidden element: it has both of them below it or neither. -/
def Agree (N : Nesting α) (collapsed : α → Bool) (a b : α) : Prop :=
  ∀ x, N.hidden collapsed x = true → (x ∈ N.chain a ↔ x ∈ N.chain b)

section Flip

variable (covered : N.hidden collapsed h = true) (mem : h ∈ N.chain a)
  (same : ∀ x, x ≠ h → collapsed' x = collapsed x)

include covered mem same

end Flip

end Nesting

end Dagrail
