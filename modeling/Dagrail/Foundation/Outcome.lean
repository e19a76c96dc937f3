/-!
# Fallible computations

A fallible step returns `Except String α`: a value, or the text of the error. The lemmas here
take an accepted computation apart, one bind, one guard or one loop at a time, so that a proof
about an accepted run never unfolds the program that produced it.
-/

namespace Dagrail

/-- The result of a fallible computation: a value or an error text. -/
abbrev Fallible (α : Type) := Except String α

/-- Accept when `b` holds, otherwise refuse with the text `message`. -/
def check (b : Bool) (message : String) : Fallible Unit :=
  if b then .ok () else .error message

/-- A guard accepts exactly when its condition holds. -/
@[simp]
theorem check_eq_ok
    {b : Bool} {message : String} {u : Unit} :
  check b message = .ok u ↔ b = true
  := by
  unfold check
  split <;> simp_all

/-- A value read from an optional field, or a refusal with the text `message`. -/
def need {α : Type} (o : Option α) (message : String) : Fallible α :=
  match o with
  | some a => .ok a
  | none => .error message

/-- A required value is accepted exactly when it is there. -/
@[simp]
theorem need_eq_ok
    {α : Type} {o : Option α} {message : String} {a : α} :
  need o message = .ok a ↔ o = some a
  := by
  cases o <;> simp [need]

/-- Refuse a value that is there, with a text about it. -/
def forbid {α : Type} (o : Option α) (message : α → String) : Fallible Unit :=
  match o with
  | some a => .error (message a)
  | none => .ok ()

/-- A forbidden value is accepted exactly when it is absent. -/
@[simp]
theorem forbid_eq_ok
    {α : Type} {o : Option α} {message : α → String} {u : Unit} :
  forbid o message = .ok u ↔ o = none
  := by
  cases o <;> simp [forbid]

/-- A sequence of two steps accepts exactly when both do. -/
@[simp]
theorem bind_eq_ok
    {α β : Type} {x : Fallible α} {f : α → Fallible β} {b : β} :
  (x >>= f) = .ok b ↔ ∃ a, x = .ok a ∧ f a = .ok b
  := by
  cases x <;> simp [bind, Except.bind]

/-- A refused first step refuses the sequence. -/
@[simp]
theorem error_bind
    {α β : Type} {e : String} {f : α → Fallible β} :
  (Except.error e >>= f : Fallible β) = .error e
  := rfl

/-- An accepted first step hands its value on. -/
@[simp]
theorem ok_bind
    {α β : Type} {a : α} {f : α → Fallible β} :
  (Except.ok a >>= f : Fallible β) = f a
  := rfl

/-- Returning accepts with the returned value. -/
@[simp]
theorem pure_eq_ok
    {α : Type} {a b : α} :
  (pure a : Fallible α) = .ok b ↔ a = b
  := by
  simp [pure, Except.pure]

/-- Changing the value of a sequence changes that of its second step. -/
theorem map_bind
    {α β γ : Type} (x : Fallible α) (f : α → Fallible β) (g : β → γ) :
  (x >>= f).map g = x >>= fun a => (f a).map g
  := by
  cases x <;> rfl

/-- A result that is always there comes from an accepted computation. -/
theorem some_map_eq_ok
    {α : Type} {x : Fallible α} {a : α} :
  some <$> x = .ok (some a) ↔ x = .ok a
  := by
  cases x <;> simp [Functor.map, Except.map]

/-- An optional result that is there after a change was there before. -/
theorem map_some_eq_ok
    {α β : Type} {x : Fallible (Option α)} {f : α → β} {b : β}
    (h : x.map (fun o => o.map f) = .ok (some b)) :
  ∃ a, x = .ok (some a) ∧ f a = b
  := by
  cases x with
  | error e => simp [Except.map] at h
  | ok o =>
      simp only [Except.map, Except.ok.injEq, Option.map_eq_some_iff] at h
      obtain ⟨a, rfl, rfl⟩ := h
      exact ⟨a, rfl, rfl⟩

/-- What every accepted step of a loop keeps, the accepted loop keeps. -/
theorem foldlM_invariant
    {α β : Type} {step : β → α → Fallible β} {as : List α} (P : β → Prop)
    (keep : ∀ b a b', a ∈ as → P b → step b a = .ok b' → P b')
    {b b' : β} (start : P b) (accepted : as.foldlM step b = .ok b') :
  P b'
  := by
  induction as generalizing b with
  | nil =>
      obtain rfl : b = b' := by simpa using accepted
      exact start
  | cons a as ih =>
      rw [List.foldlM_cons, bind_eq_ok] at accepted
      obtain ⟨c, first, rest⟩ := accepted
      have kept : P c := keep b a c (by simp) start first
      exact ih (fun d x d' mem => keep d x d' (by simp [mem])) kept rest

/-- What every step of an accepted loop keeps at the place it is taken, the loop keeps. -/
theorem foldlM_invariant_at
    {α β : Type} {step : β → α → Fallible β} {as : List α} {b b' : β} (P : β → Prop)
    (keep : ∀ before a after c c', as = before ++ a :: after → before.foldlM step b = .ok c →
      step c a = .ok c' → P c → P c')
    (start : P b) (accepted : as.foldlM step b = .ok b') :
  P b'
  := by
  induction as generalizing b with
  | nil =>
      obtain rfl : b = b' := by simpa using accepted
      exact start
  | cons a as ih =>
      rw [List.foldlM_cons, bind_eq_ok] at accepted
      obtain ⟨c, first, rest⟩ := accepted
      refine ih ?_ (keep [] a as b c rfl rfl first start) rest
      intro before x after d d' split reached applied
      refine keep (a :: before) x after d d' (by simp [split]) ?_ applied
      rw [List.foldlM_cons, bind_eq_ok]
      exact ⟨c, first, reached⟩

/-- A loop whose steps commute with a change of the accumulator commutes with it. -/
theorem foldlM_map
    {α β : Type} {step : β → α → Fallible β} {as : List α} (f : β → β)
    (comm : ∀ b, ∀ a ∈ as, step (f b) a = (step b a).map f) (b : β) :
  as.foldlM step (f b) = (as.foldlM step b).map f
  := by
  induction as generalizing b with
  | nil => rfl
  | cons a as ih =>
      rw [List.foldlM_cons, List.foldlM_cons, comm b a (by simp), map_bind]
      cases step b a with
      | error e => rfl
      | ok c => exact ih (fun b x mem => comm b x (by simp [mem])) c

/-- A loop over checks passes exactly when every check does. -/
theorem forM_eq_ok
    {α : Type} {f : α → Fallible Unit} {as : List α} :
  as.forM f = .ok () ↔ ∀ a ∈ as, f a = .ok ()
  := by
  induction as with
  | nil => simp [pure, Except.pure]
  | cons a as ih =>
      rw [List.forall_mem_cons, ← ih]
      change (f a >>= fun _ => as.forM f) = .ok () ↔ _
      rw [bind_eq_ok]
      exact ⟨fun ⟨_, first, rest⟩ => ⟨first, rest⟩, fun ⟨first, rest⟩ => ⟨(), first, rest⟩⟩

end Dagrail
