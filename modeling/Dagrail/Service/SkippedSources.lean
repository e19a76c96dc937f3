import Dagrail.Service.Writes

/-!
# Skipped sources

A node that can no longer become ready is skipped. The skip gives the node an outcome, the reason
of the skip, without facts. Predicates of outgoing edges are evaluated on it like on any other
outcome: one that asks for the reason of the skip is satisfied by the skip.
-/

namespace Dagrail

/-- The outcome of a skipped node. -/
def skipReason : String := "closed_predicate_unsatisfied"

/-- The run-time side of a skipped node. -/
def skippedRuntime : NodeRuntime where
  status := .skipped
  outcome := skipReason
  outcomeClass := .cancelled

/-! ### Predicates that a skip satisfies -/

mutual

/-- Does the predicate ask for the reason of a skip? -/
def asksForSkip : Predicate → Bool
  | ⟨outcome, decision, evidence, policy, all, any⟩ =>
      if outcome ≠ "" then outcome = skipReason
      else if decision.isSome || evidence.isSome || policy.isSome then false
      else if all ≠ [] then allAskForSkip all
      else anyAsksForSkip any

/-- Does every predicate of the list ask for it? -/
def allAskForSkip : List Predicate → Bool
  | [] => true
  | p :: ps => asksForSkip p && allAskForSkip ps

/-- Does some predicate of the list ask for it? -/
def anyAsksForSkip : List Predicate → Bool
  | [] => false
  | p :: ps => asksForSkip p || anyAsksForSkip ps

end

/-- A fact operator of a valid predicate asks for a value. -/
theorem value_ne_empty_of_checkMatch
    {label : String} {m : ValueMatch} (valid : checkMatch label (some m) = .ok ()) :
  m.value ≠ ""
  := by
  simp only [checkMatch, check_eq_ok, Bool.and_eq_true, decide_eq_true_eq] at valid
  exact valid.2

mutual

/-- A skipped node satisfies the valid predicates that ask for the reason of the skip, and no
others: it has no facts. -/
theorem predicateSatisfied_skippedRuntime
    {source : NodeDefinition} : {depth : Nat} → (q : Predicate) →
  (valid : validatePredicateAtDepth source depth q = .ok ()) →
  predicateSatisfied skippedRuntime q = asksForSkip q
  | depth, ⟨outcome, decision, evidence, policy, all, any⟩, valid => by
      simp only [validatePredicateAtDepth, bind_eq_ok] at valid
      obtain ⟨_, -, _, -, _, decided, _, evident, _, policed, _, -, _, alls, anys⟩ := valid
      simp only [predicateSatisfied, asksForSkip]
      split
      · rename_i named
        simp [skippedRuntime, eq_comm]
      · have none_ : ∀ m : ValueMatch, m.value ≠ "" → ((∅ : Table String).get m.key = m.value) = False := by
          intro m value
          simp [Table.get, value.symm]
        cases decision with
        | some m => simp [skippedRuntime, none_ m (value_ne_empty_of_checkMatch decided)]
        | none =>
            cases evidence with
            | some m => simp [skippedRuntime, none_ m (value_ne_empty_of_checkMatch evident)]
            | none =>
                cases policy with
                | some m => simp [skippedRuntime, none_ m (value_ne_empty_of_checkMatch policed)]
                | none =>
                    simp only [Option.isSome_none, Bool.or_self, Bool.false_eq_true, if_false]
                    rw [allSatisfied_skippedRuntime all alls, anySatisfied_skippedRuntime any anys]
                    cases any <;> simp [anyAsksForSkip]

/-- The same for every predicate of a list. -/
theorem allSatisfied_skippedRuntime
    {source : NodeDefinition} : {depth : Nat} → (qs : List Predicate) →
  (valid : validatePredicates source depth qs = .ok ()) →
  allSatisfied skippedRuntime qs = allAskForSkip qs
  | _, [], _ => rfl
  | depth, q :: qs, valid => by
      simp only [validatePredicates, bind_eq_ok] at valid
      obtain ⟨_, first, rest⟩ := valid
      simp only [allSatisfied, allAskForSkip]
      rw [predicateSatisfied_skippedRuntime q first, allSatisfied_skippedRuntime qs rest]

/-- The same for some predicate of a list. -/
theorem anySatisfied_skippedRuntime
    {source : NodeDefinition} : {depth : Nat} → (qs : List Predicate) →
  (valid : validatePredicates source depth qs = .ok ()) →
  anySatisfied skippedRuntime qs = anyAsksForSkip qs
  | _, [], _ => rfl
  | depth, q :: qs, valid => by
      simp only [validatePredicates, bind_eq_ok] at valid
      obtain ⟨_, first, rest⟩ := valid
      simp only [anySatisfied, anyAsksForSkip]
      rw [predicateSatisfied_skippedRuntime q first, anySatisfied_skippedRuntime qs rest]

end

/-! ### Skipped nodes along runs -/

/-- Every skipped node has the run-time side of a skip. -/
def SkipsUniform (s : State) : Prop :=
  ∀ nodeId runtime, s.nodes.lookup nodeId = some runtime → runtime.status = .skipped →
    runtime = skippedRuntime

/-- One write of a node that is not skipped leaves the skipped nodes. -/
theorem SkipsUniform.insert
    {s s' : State} {nodeId : String} {runtime : NodeRuntime} (uniform : SkipsUniform s)
    (nodes : s'.nodes = s.nodes.insert nodeId runtime)
    (skipped : runtime.status = .skipped → runtime = skippedRuntime) :
  SkipsUniform s'
  := by
  intro k r found status
  rw [nodes, Table.lookup_insert] at found
  split at found
  · obtain rfl := Option.some.inj found
    exact skipped status
  · exact uniform k r found status

variable {p : Platform} {projectId : String} {allow : State → Call → Prop}

namespace SampleSkip

/-- A milestone with the given outcomes. -/
def milestone (id : String) (outcomes : List Outcome) : NodeDefinition :=
  { id, title := id, kind := .milestone, outcomes }

/-- Three milestones in a row. The first one completes, which skips the second, which declares the
reason of a skip as an outcome, for which the edge to the third asks. -/
def graph : GraphDefinition where
  apiVersion := graphAPIVersion
  kind := graphKind
  metadata := { name := "sample" }
  spec :=
    { nodes :=
        [milestone "a" [⟨"done", .success⟩, ⟨"other", .failure⟩],
         milestone "b" [⟨"done", .success⟩, ⟨skipReason, .cancelled⟩],
         milestone "c" [⟨"done", .success⟩]]
      edges :=
        [{ id := "ab", source := "a", target := "b", when := { outcome := "other" } },
         { id := "bc", source := "b", target := "c", when := { outcome := skipReason } }] }

/-- The calls: the graph is imported, and the controller settles the first two milestones. -/
def calls : List Call :=
  [.importGraph { graph, idempotencyKey := "import", actorRole := "lead", requestDigest := "" },
   .autoComplete,
   .autoSkip]

end SampleSkip

end Dagrail
