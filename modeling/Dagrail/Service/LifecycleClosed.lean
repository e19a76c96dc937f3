import Dagrail.Service.LifecycleLedger

/-!
# Closing a command of an imported history

The claims of a command are followed over its events, and held against what closing the command
checks.
-/

namespace Dagrail

namespace Lifecycle

variable {p : Platform} {seen : List LifecycleMigrationEvent} {c c' : LifecycleRecordContext}
  {s t : State} {occurredAt : Stamp} {source : LifecycleMigrationEvent} {event : Event}

/-! ### The events of a command -/

/-- The graph stays as it is under the events the second interpreter accepts. -/
theorem graph_of_applied
    (filed : Filed s) (h : applyValidatedLifecycleEvent p c s occurredAt source event = .ok (c', t)) :
  t.graph = s.graph
  := by
  obtain ⟨r, applied, same⟩ := applyValidatedLifecycleEvent_refines filed 0 .unset h
  have graph : r.graph = t.graph := (congrArg State.graph same :)
  rw [← graph]
  apply ((State.applyEvent_frame applied).graph _).1
  cases event <;> first | rfl | cases h

/-- A recorded action stays on its node. -/
theorem action_of_applied
    (filed : Filed s) (h : applyValidatedLifecycleEvent p c s occurredAt source event = .ok (c', t))
    (plain : event.nativeType ≠ "action.applied") {id nodeId : String}
    (known : ∃ action, s.actions.lookup id = some action ∧ action.nodeId = nodeId) :
  ∃ action, t.actions.lookup id = some action ∧ action.nodeId = nodeId
  := by
  have moved : ∀ {action : ActionRecord} (status : ActionStatus),
      s.actions.lookup action.id = some action →
      ∃ action', (s.actions.insert action.id { action with status }).lookup id = some action' ∧
        action'.nodeId = nodeId := by
    intro action status found
    obtain ⟨old, known, node⟩ := known
    rw [Table.lookup_insert]
    split_ifs with same
    · subst same
      obtain rfl := Option.some.inj (known.symm.trans found)
      exact ⟨_, rfl, node⟩
    · exact ⟨old, known, node⟩
  obtain ⟨r, applied, same⟩ := applyValidatedLifecycleEvent_refines filed 0 .unset h
  have frame := State.applyEvent_frame applied
  simp only [applyValidatedLifecycleEvent] at h
  cases event with
  | actionApplied action => exact absurd rfl plain
  | effectReconciling effectId at_ =>
      obtain ⟨effect, action, -, found, -, -, rfl⟩ := reconcileEffect_ok h
      obtain rfl := filed.actions _ _ found
      exact moved _ found
  | effectObserved effectId status receipt updatedAt =>
      obtain ⟨effect, -, -, -, -, rfl⟩ := observeEffect_ok h
      cases found : s.actions.lookup effect.id with
      | none => simpa [found] using known
      | some action =>
          obtain id := filed.actions _ _ found
          rw [← id] at found
          simpa [← id, found] using moved (State.actionStatusOf status) found
  -- no other event writes actions
  | _ =>
      obtain ⟨action, found, node⟩ := known
      have kept : r.actions = s.actions := frame.actions rfl
      have tables : r.actions.mapValues ActionRecord.unnumbered =
          t.actions.mapValues ActionRecord.unnumbered := (congrArg State.actions same :)
      have lookups := congrArg (AList.lookup id) tables
      rw [Table.lookup_mapValues, Table.lookup_mapValues, kept, found, Option.map_some, eq_comm,
        Option.map_eq_some_iff] at lookups
      obtain ⟨action', found', numbers⟩ := lookups
      have nodes := congrArg ActionRecord.nodeId numbers
      exact ⟨action', found', nodes.trans node⟩

/-- More companions are there when more events have come. -/
theorem Companions.after
    {node : NodeDefinition} {action : ActionRecord} {input : Option Json}
    {required : List (List String × Nat)} (companions : Companions node action input seen required)
    (source : LifecycleMigrationEvent) :
  Companions node action input (seen ++ [source]) required
  := by
  intro entry mem
  have before := companions entry mem
  unfold namedCount at before ⊢
  rw [List.countP_append]
  omega

/-- A command with an action so far: its companions have come before it. -/
structure Acted (seen : List LifecycleMigrationEvent) (c : LifecycleRecordContext) (s : State)
    (source : LifecycleMigrationEvent) (action : ActionRecord) (node : NodeDefinition) : Prop where
  mem : source ∈ seen
  read : source.read = .ok (.actionApplied action)
  declared : s.nodeDefinition action.nodeId = some node
  head : headOf c = (1, action.kind, action.id, source.bound "input")
  known : ∃ stored, s.actions.lookup action.id = some stored ∧ stored.nodeId = action.nodeId
  companions : Companions node action (source.bound "input") seen
    (requiredCompanions action.kind node)
  kept : ∃ spent : Spent, Kept seen c spent ∧ spent.Fits action (source.bound "input")

/-- What is known of a command whose events so far were accepted, in a project with the graph. -/
structure Followed (graph : Option GraphDefinition) (seen : List LifecycleMigrationEvent)
    (c : LifecycleRecordContext) (s : State) : Prop where
  filed : Filed s
  runs : RunsFiled s
  graph : s.graph = graph
  types : c.eventTypes = typesOf seen
  reads : ∀ source ∈ seen, ∃ event, source.read = .ok event
  claims : (Pending seen c ∧ Kept seen c {}) ∨
    (∃ source action node, Acted seen c s source action node) ∨
    2 ≤ (typesOf seen).count "action.applied"

/-- What is known of the action stays known when an event follows that is no action. -/
theorem Acted.step
    {first : LifecycleMigrationEvent} {action : ActionRecord} {node : NodeDefinition}
    (acted : Acted seen c s first action node) (filed : Filed s) (runs : RunsFiled s)
    (read : source.read = .ok event) (plain : event.nativeType ≠ "action.applied")
    (h : applyValidatedLifecycleEvent p c s occurredAt source event = .ok (c', t)) :
  Acted (seen ++ [source]) c' t first action node
  := by
  have type : source.type ≠ "action.applied" := by
    rw [← LifecycleMigrationEvent.nativeType_of_read read]
    exact plain
  obtain ⟨-, kept, head, -⟩ := claims_of_applied runs read type h
  obtain ⟨spent, before, fits⟩ := acted.kept
  refine ⟨List.mem_append_left _ acted.mem, acted.read, ?_, head.trans acted.head,
    action_of_applied filed h plain acted.known, acted.companions.after source, spent,
    kept spent before, fits⟩
  rw [State.nodeDefinition, graph_of_applied filed h]
  exact acted.declared

/-- An applied action is filed on its node, and if it is the first one of its command, it has its
companions before it. -/
theorem applyAction_acted
    {action : ActionRecord} (read : source.read = .ok (.actionApplied action))
    (h : applyAction p { c with eventTypes := c.eventTypes ++ [source.type] } s action
      (source.bound "input") = .ok (c', t)) :
  (Pending seen c → Kept seen c {} → RunsFiled s →
    ∃ node, Acted (seen ++ [source]) c' t source action node) ∧
  c'.eventTypes = c.eventTypes ++ [source.type]
  := by
  simp only [applyAction, bind_eq_ok, check_eq_ok, decide_eq_true_eq, Except.ok.injEq,
    Prod.mk.injEq] at h
  obtain ⟨c₂, used, _, first, _, -, _, -, rfl, rfl⟩ := h
  obtain ⟨node, declared, justified, types⟩ := validateLifecycleAction_companions used
  refine ⟨fun pending kept runs => ?_, types⟩
  obtain ⟨companions, spent, kept₂, fits⟩ :=
    justified { pending with actions := pending.actions } (kept.congr rfl rfl rfl) runs
  have type : "action.applied" = source.type := LifecycleMigrationEvent.nativeType_of_read read
  refine ⟨node, by simp, read, declared, ?_, ?_, companions.after source, spent, ?_, fits⟩
  · simp [headOf, first]
  · exact ⟨action, by simp, rfl⟩
  · apply Kept.after _ source
    · simp [← type]
    · exact kept₂.congr rfl rfl rfl

/-- What is known stays known when another event is accepted. -/
theorem Followed.step
    {graph : Option GraphDefinition} (followed : Followed graph seen c s)
    (h : applyEvent p occurredAt (c, s) source = .ok (c', t)) :
  Followed graph (seen ++ [source]) c' t
  := by
  simp only [applyEvent, bind_eq_ok] at h
  obtain ⟨event, read, h⟩ := h
  have reads : ∀ other ∈ seen ++ [source], ∃ event, other.read = .ok event := by
    intro other mem
    rw [List.mem_append, List.mem_singleton] at mem
    rcases mem with before | rfl
    · exact followed.reads other before
    · exact ⟨event, read⟩
  have filed := applyValidatedLifecycleEvent_filed followed.filed h
  have runs := applyValidatedLifecycleEvent_runsFiled followed.filed followed.runs h
  have graph := (graph_of_applied followed.filed h).trans followed.graph
  have all : typesOf (seen ++ [source]) = typesOf seen ++ [source.type] := by simp [typesOf]
  by_cases applied : event.nativeType = "action.applied"
  · obtain ⟨action, rfl⟩ : ∃ action, event = .actionApplied action := by
      cases event <;> simp [Event.nativeType] at applied
      exact ⟨_, rfl⟩
    have type : "action.applied" = source.type := LifecycleMigrationEvent.nativeType_of_read read
    obtain ⟨first, types⟩ := applyAction_acted read h
    refine ⟨filed, runs, graph, by rw [types, followed.types, all], reads, ?_⟩
    rcases followed.claims with ⟨pending, kept⟩ | ⟨earlier, action', node, acted⟩ | many
    · obtain ⟨node, acted⟩ := first pending kept followed.runs
      exact .inr (.inl ⟨source, action, node, acted⟩)
    · have before : "action.applied" ∈ typesOf seen := List.mem_map.mpr
        ⟨earlier, acted.mem, (LifecycleMigrationEvent.nativeType_of_read acted.read).symm⟩
      have positive := List.count_pos_iff.mpr before
      refine .inr (.inr ?_)
      rw [all, List.count_append, ← type]
      simp only [List.count_singleton_self]
      omega
    · refine .inr (.inr ?_)
      rw [all, List.count_append]
      omega
  · have plain : source.type ≠ "action.applied" := by
      rw [← LifecycleMigrationEvent.nativeType_of_read read]
      exact applied
    obtain ⟨pendings, kepts, head, types⟩ := claims_of_applied followed.runs read plain h
    refine ⟨filed, runs, graph, by rw [types, followed.types, all], reads, ?_⟩
    rcases followed.claims with ⟨pending, kept⟩ | ⟨first, action, node, acted⟩ | many
    · exact .inl ⟨pendings pending, kepts _ kept⟩
    · exact .inr (.inl
        ⟨first, action, node, acted.step followed.filed followed.runs read applied h⟩)
    · refine .inr (.inr ?_)
      rw [all, List.count_append]
      omega

/-! ### Shapes -/

/-- The events of a shape have its types as often as it says, and no others. -/
theorem hasShape_ok
    {expected : List (String × Nat)} (h : hasShape c expected = true) :
  (∀ entry ∈ expected, c.eventTypes.count entry.1 = entry.2) ∧
    ∀ type ∈ c.eventTypes, type ∈ expected.map Prod.fst
  := by
  simp only [hasShape, eventCount, Bool.and_eq_true, List.all_eq_true, List.any_eq_true,
    decide_eq_true_eq] at h
  refine ⟨fun entry mem => of_decide_eq_true (h.1 entry mem), fun type mem => ?_⟩
  obtain ⟨entry, listed, same⟩ := h.2 type mem
  exact List.mem_map.mpr ⟨entry, listed, same⟩

/-- Counting the occurrences of one text. -/
theorem countP_contains_one
    (types : List String) (a : String) :
  types.countP [a].contains = types.count a
  := by
  apply List.countP_congr
  simp

/-- Counting the occurrences of two texts. -/
theorem countP_contains_two
    (types : List String) {a b : String} (apart : a ≠ b) :
  types.countP [a, b].contains = types.count a + types.count b
  := by
  induction types with
  | nil => rfl
  | cons type types ih =>
      simp only [List.countP_cons, List.count_cons, ih, List.contains_cons, List.contains_nil,
        Bool.or_false, beq_iff_eq, Bool.or_eq_true]
      split_ifs <;> first | omega | simp_all

/-- What the shape of an action says about the types of its companions. -/
structure ShapeOf (kind : String) (node : NodeDefinition) (types : List String) : Prop where
  single : types.count "action.applied" = 1
  required : ∀ entry ∈ requiredCompanions kind node, types.countP entry.1.contains = entry.2
  listed : ∀ type ∈ types, type = "action.applied" ∨
    (∃ entry ∈ requiredCompanions kind node, type ∈ entry.1) ∨ type ∈ optionalCompanions kind
  released : types.count "resource.released" ≤ 1

/-- The shape of an action with one companion. -/
theorem shapeOf_one
    {kind type : String} {node : NodeDefinition}
    (required : requiredCompanions kind node = [([type], 1)])
    (other : type ≠ "resource.released")
    (fits : hasShape c [("action.applied", 1), (type, 1)] = true) :
  ShapeOf kind node c.eventTypes
  := by
  obtain ⟨counts, listed⟩ := hasShape_ok fits
  simp only [List.forall_mem_cons, List.not_mem_nil, false_implies, implies_true, and_true] at counts
  have types : ∀ type' ∈ c.eventTypes, type' = "action.applied" ∨ type' = type := by
    intro type' mem
    simpa using listed type' mem
  refine ⟨counts.1, ?_, ?_, ?_⟩
  · rw [required, List.forall_mem_singleton, countP_contains_one]
    exact counts.2
  · intro type' mem
    rw [required]
    rcases types type' mem with rfl | rfl
    · exact .inl rfl
    · exact .inr (.inl ⟨_, List.mem_singleton_self _, List.mem_singleton_self _⟩)
  · have absent : "resource.released" ∉ c.eventTypes := by
      intro mem
      rcases types _ mem with same | same
      · simp at same
      · exact other same.symm
    rw [List.count_eq_zero.mpr absent]
    omega

/-- The shape of a start. -/
theorem shapeOf_start
    {node : NodeDefinition}
    (fits : hasShape c (("action.applied", 1)
      :: [(if eventCount c "attempt.started" = 1 then "attempt.started" else "attempt.leased", 1),
        ("attempt.status-changed", 1), ("resource.leased", node.resources.length)]) = true) :
  ShapeOf "node.start" node c.eventTypes
  := by
  obtain ⟨counts, listed⟩ := hasShape_ok fits
  simp only [List.forall_mem_cons, List.not_mem_nil, false_implies, implies_true, and_true] at counts
  obtain ⟨action, introduced, moved, leased⟩ := counts
  have introductions : c.eventTypes.count "attempt.started" + c.eventTypes.count "attempt.leased" = 1
      ∧ ∀ type ∈ c.eventTypes, type = "action.applied" ∨ type ∈ ["attempt.started", "attempt.leased"]
        ∨ type = "attempt.status-changed" ∨ type = "resource.leased" := by
    split_ifs at introduced listed with started
    · have absent : "attempt.leased" ∉ c.eventTypes := by
        intro mem
        simpa using listed _ mem
      refine ⟨by rw [introduced, List.count_eq_zero.mpr absent], fun type mem => ?_⟩
      have := listed type mem
      simp only [List.map_cons, List.map_nil, List.mem_cons, List.not_mem_nil, or_false] at this ⊢
      tauto
    · have absent : "attempt.started" ∉ c.eventTypes := by
        intro mem
        simpa using listed _ mem
      refine ⟨by rw [introduced, List.count_eq_zero.mpr absent], fun type mem => ?_⟩
      have := listed type mem
      simp only [List.map_cons, List.map_nil, List.mem_cons, List.not_mem_nil, or_false] at this ⊢
      tauto
  obtain ⟨one, types⟩ := introductions
  have required : requiredCompanions "node.start" node =
      [(["attempt.started", "attempt.leased"], 1), (["attempt.status-changed"], 1),
        (["resource.leased"], node.resources.length)] := rfl
  refine ⟨action, ?_, ?_, ?_⟩
  · rw [required]
    simp only [List.forall_mem_cons, List.not_mem_nil, false_implies, implies_true, and_true,
      countP_contains_one]
    exact ⟨by rw [countP_contains_two _ (by decide), one], moved, leased⟩
  · intro type mem
    rw [required]
    rcases types type mem with same | same | same | same
    · exact .inl same
    · exact .inr (.inl ⟨(["attempt.started", "attempt.leased"], 1), by simp, same⟩)
    · exact .inr (.inl ⟨(["attempt.status-changed"], 1), by simp, by simp [same]⟩)
    · exact .inr (.inl ⟨(["resource.leased"], node.resources.length), by simp, by simp [same]⟩)
  · have absent : "resource.released" ∉ c.eventTypes := by
      intro mem
      simpa using types _ mem
    rw [List.count_eq_zero.mpr absent]
    omega

/-- The shape of a closure. -/
theorem shapeOf_closure
    {kind : String} {node : NodeDefinition} {released : Prop} [Decidable released]
    (closure : kind = "resource.close" ∨ kind = "resource.reconcile")
    (fits : hasShape c (("action.applied", 1)
      :: ([("resource.closure-observed", 1), ("resource.released", if released then 1 else 0)]
        ++ [("incident.opened", eventCount c "incident.opened")]
        ++ [("incident.updated", eventCount c "incident.updated")]
        ++ [("incident.resolved", eventCount c "incident.resolved")])) = true) :
  ShapeOf kind node c.eventTypes
  := by
  obtain ⟨counts, listed⟩ := hasShape_ok fits
  simp only [List.cons_append, List.nil_append, List.forall_mem_cons, List.not_mem_nil,
    false_implies, implies_true, and_true] at counts
  obtain ⟨action, observed, releases, -⟩ := counts
  have required : requiredCompanions kind node = [(["resource.closure-observed"], 1)] := by
    rcases closure with rfl | rfl <;> rfl
  have optional : optionalCompanions kind =
      ["resource.released", "incident.opened", "incident.updated", "incident.resolved"] := by
    rw [optionalCompanions, if_pos closure]
  refine ⟨action, ?_, ?_, ?_⟩
  · rw [required, List.forall_mem_singleton, countP_contains_one]
    exact observed
  · intro type mem
    have := listed type mem
    rw [required, optional]
    simp only [List.cons_append, List.nil_append, List.map_cons, List.map_nil, List.mem_cons,
      List.not_mem_nil, or_false, exists_eq_left] at this ⊢
    exact this
  · rw [releases]
    split_ifs <;> omega

/-- The shape of a completion. -/
theorem shapeOf_completion
    {kind : String} {node : NodeDefinition} (completion : completionKinds.contains kind = true)
    (fits : hasShape c (("action.applied", 1)
      :: ([("attempt.finished", 1), ("decision.recorded", if nodeRequiresDecision node then 1 else 0)]
        ++ [("incident.opened", eventCount c "incident.opened")])) = true) :
  ShapeOf kind node c.eventTypes
  := by
  obtain ⟨counts, listed⟩ := hasShape_ok fits
  simp only [List.cons_append, List.nil_append, List.forall_mem_cons, List.not_mem_nil,
    false_implies, implies_true, and_true] at counts
  obtain ⟨action, finished, decided, -⟩ := counts
  have types : ∀ type ∈ c.eventTypes, type = "action.applied" ∨ type = "attempt.finished" ∨
      type = "decision.recorded" ∨ type = "incident.opened" := by
    intro type mem
    simpa using listed type mem
  have kinds : kind = "task.complete" ∨ kind = "review.resolve" ∨ kind = "decision.record" ∨
      kind = "effect.complete" ∨ kind = "attempt.finish" ∨ kind = "gate.evaluate" := by
    simpa [completionKinds] using completion
  have required : requiredCompanions kind node = (["attempt.finished"], 1)
      :: if nodeRequiresDecision node then [(["decision.recorded"], 1)] else [] := by
    rcases kinds with rfl | rfl | rfl | rfl | rfl | rfl <;> rfl
  have optional : optionalCompanions kind = ["incident.opened"] := by
    rcases kinds with rfl | rfl | rfl | rfl | rfl | rfl <;> rfl
  refine ⟨action, ?_, ?_, ?_⟩
  · rw [required, List.forall_mem_cons, countP_contains_one]
    refine ⟨finished, ?_⟩
    split_ifs at decided ⊢
    · rw [List.forall_mem_singleton, countP_contains_one]
      exact decided
    · simp
  · intro type mem
    rw [required, optional]
    rcases types type mem with same | same | same | same
    · exact .inl same
    · exact .inr (.inl ⟨(["attempt.finished"], 1), by simp, by simp [same]⟩)
    · rw [same] at mem
      have positive := List.count_pos_iff.mpr mem
      rw [decided] at positive
      split_ifs at positive ⊢
      · exact .inr (.inl ⟨(["decision.recorded"], 1), by simp, by simp [same]⟩)
      · omega
    · exact .inr (.inr (by simp [same]))
  · have absent : "resource.released" ∉ c.eventTypes := by
      intro mem
      simpa using types _ mem
    rw [List.count_eq_zero.mpr absent]
    omega

/-- The shape an action has. -/
theorem actionShape_ok
    {action : ActionRecord} {node : NodeDefinition} {shape : List (String × Nat)}
    (h : actionShape c s action node = .ok shape)
    (fits : hasShape c (("action.applied", 1) :: shape) = true) :
  ShapeOf action.kind node c.eventTypes
  := by
  unfold actionShape at h
  by_cases renewal : action.kind = "role.renew"
  · simp only [if_pos renewal, Except.ok.injEq] at h
    subst h
    exact shapeOf_one (by rw [renewal]; rfl) (by decide) fits
  simp only [if_neg renewal] at h
  by_cases start : action.kind = "node.start"
  · simp only [if_pos start, Except.ok.injEq] at h
    subst h
    rw [start]
    exact shapeOf_start fits
  simp only [if_neg start] at h
  by_cases checkpoint : action.kind = "attempt.checkpoint"
  · simp only [if_pos checkpoint, Except.ok.injEq] at h
    subst h
    exact shapeOf_one (by rw [checkpoint]; rfl) (by decide) fits
  simp only [if_neg checkpoint] at h
  by_cases status : ["attempt.wait", "attempt.resume", "attempt.submit"].contains action.kind = true
  · simp only [if_pos status, Except.ok.injEq] at h
    subst h
    refine shapeOf_one ?_ (by decide) fits
    rw [requiredCompanions, if_neg renewal, if_neg start, if_neg checkpoint, if_pos status]
  simp only [if_neg status] at h
  by_cases publication : action.kind = "evidence.publish"
  · simp only [if_pos publication, Except.ok.injEq] at h
    subst h
    exact shapeOf_one (by rw [publication]; rfl) (by decide) fits
  simp only [if_neg publication] at h
  by_cases reuse : action.kind = "evidence.assess-reuse"
  · simp only [if_pos reuse, Except.ok.injEq] at h
    subst h
    exact shapeOf_one (by rw [reuse]; rfl) (by decide) fits
  simp only [if_neg reuse] at h
  by_cases preparation : action.kind = "effect.prepare"
  · simp only [if_pos preparation, Except.ok.injEq] at h
    subst h
    exact shapeOf_one (by rw [preparation]; rfl) (by decide) fits
  simp only [if_neg preparation] at h
  by_cases closure : action.kind = "resource.close" ∨ action.kind = "resource.reconcile"
  · simp only [if_pos closure, Except.ok.injEq] at h
    subst h
    exact shapeOf_closure closure fits
  simp only [if_neg closure] at h
  by_cases completion : completionKinds.contains action.kind = true
  · simp only [if_pos completion, Except.ok.injEq] at h
    subst h
    exact shapeOf_completion completion fits
  · simp only [if_neg completion] at h
    cases h

/-! ### Closing -/

/-- A ledger without claims keeps no incident and no release. -/
structure Cleared (c : LifecycleRecordContext) : Prop where
  events : ∀ id, c.incidentEvents.has id = false
  eventKeys : c.incidentEvents.keys.length = 0
  resolutions : ∀ id, c.incidentResolutions.has id = false
  resolutionKeys : c.incidentResolutions.keys.length = 0
  releases : ∀ id, c.resourceReleases.has id = false

/-- An empty table has no key. -/
theorem empty_of_entries
    {β : Type} {table : Table β} (empty : table.entries.isEmpty = true) :
  (∀ id, table.has id = false) ∧ table.keys.length = 0
  := by
  rw [List.isEmpty_iff] at empty
  refine ⟨fun id => ?_, ?_⟩
  · simp [Table.has, AList.lookup, empty]
  · simp [AList.keys, empty]

/-- Closing a command clears its ledger. -/
theorem cleared_of_empty
    {u : Unit} (h : ensureLifecycleProofLedgerEmpty c = .ok u) :
  Cleared c
  := by
  simp only [ensureLifecycleProofLedgerEmpty, check_eq_ok, ledgerEmpty, Bool.and_eq_true] at h
  obtain ⟨⟨⟨⟨⟨⟨⟨-, releases⟩, -⟩, -⟩, -⟩, -⟩, events⟩, resolutions⟩ := h
  have events := empty_of_entries events
  have resolutions := empty_of_entries resolutions
  exact ⟨events.1, events.2, resolutions.1, resolutions.2, (empty_of_entries releases).1⟩

/-- The last event of a type that occurs once is the only one. -/
theorem eq_of_single
    {type : String} (single : (typesOf seen).count type = 1) {first second : LifecycleMigrationEvent}
    (mem : first ∈ seen) (mem' : second ∈ seen) (is : first.type = type) (is' : second.type = type) :
  first = second
  := by
  rw [typesOf, List.count_eq_countP, List.countP_map, List.countP_eq_length_filter,
    List.length_eq_one_iff] at single
  obtain ⟨only, alone⟩ := single
  have among : ∀ source ∈ seen, source.type = type → source = only := by
    intro source mem is
    rw [← List.mem_singleton, ← alone, List.mem_filter]
    exact ⟨mem, by simp [is]⟩
  rw [among first mem is, among second mem' is']

/-- If there are no more events of the types than companions, every one of them is a companion. -/
theorem named_of_count
    {node : NodeDefinition} {action : ActionRecord} {input : Option Json} {types : List String} {n : Nat}
    (enough : n ≤ namedCount node action input seen types)
    (all : (typesOf seen).countP types.contains = n) (mem : source ∈ seen) (type : source.type ∈ types) :
  namedBy node action input source = true
  := by
  rw [typesOf, List.countP_map, List.countP_eq_length_filter] at all
  rw [namedCount, List.countP_eq_length_filter] at enough
  have split : seen.filter (fun source => types.contains source.type && namedBy node action input source) =
      (seen.filter (types.contains ∘ (·.type))).filter (namedBy node action input) := by
    rw [List.filter_filter]
    apply List.filter_congr
    intro other _
    simp [Bool.and_comm]
  rw [split] at enough
  have whole := List.filter_sublist.eq_of_length (Nat.le_antisymm
    (List.length_filter_le (namedBy node action input) _) (all.trans_le enough))
  rw [List.filter_eq_self] at whole
  exact whole source (List.mem_filter.mpr ⟨mem, by simpa using type⟩)

/-- An incident or release that is not in the ledger any more was used up by the action. -/
theorem Kept.named
    {spent : Spent} {node : NodeDefinition} {action : ActionRecord} {input : Option Json}
    (kept : Kept seen c spent) (fits : spent.Fits action input) (cleared : Cleared c)
    (mem : source ∈ seen) (read : source.read = .ok event)
    (type : event.nativeType ∈ ["resource.released", "incident.opened", "incident.updated",
      "incident.resolved"]) :
  names node action input event = true
  := by
  cases event with
  | incidentOpened incident =>
      rcases kept.bodies source mem incident (.inl read) with held | used
      · rw [cleared.events] at held
        cases held
      · simp [names, fits.incident _ used]
  | incidentUpdated incident =>
      rcases kept.bodies source mem incident (.inr read) with held | used
      · rw [cleared.events] at held
        cases held
      · simp [names, fits.incident _ used]
  | incidentResolved incidentId resolvedAt =>
      rcases kept.resolutions source mem incidentId resolvedAt read with held | used
      · rw [cleared.resolutions] at held
        cases held
      · simp [names, fits.incident _ used]
  | resourceReleased resourceId releasedAt =>
      rcases kept.releases source mem resourceId releasedAt read with held | used
      · rw [cleared.releases] at held
        cases held
      · simp [names, fits.resource _ used]
  | _ => simp [Event.nativeType] at type

/-- The optional companions of an action are incidents and releases. -/
theorem mem_optionalCompanions
    {kind type : String} (mem : type ∈ optionalCompanions kind) :
  type ∈ ["resource.released", "incident.opened", "incident.updated", "incident.resolved"]
  := by
  unfold optionalCompanions at mem
  split_ifs at mem
  · exact mem
  · rw [List.mem_singleton] at mem
    simp [mem]
  · cases mem

/-- Bodies of incidents are counted together. -/
theorem count_le_bodies
    {types : List String} {type : String} (body : type ∈ bodyTypes) :
  types.count type ≤ types.countP bodyTypes.contains
  := by
  rw [List.count_eq_countP]
  apply List.countP_mono_left
  intro other _ same
  rw [beq_iff_eq] at same
  rw [same, List.contains_iff_mem]
  exact body

/-- A command with an action is closed. -/
theorem Acted.closed
    {first : LifecycleMigrationEvent} {action : ActionRecord} {node : NodeDefinition}
    (acted : Acted seen c s first action node) (types : c.eventTypes = typesOf seen)
    (reads : ∀ source ∈ seen, ∃ event, source.read = .ok event)
    (h : validateLifecycleRecordClosed c s = .ok ()) :
  ClosedCommand s seen
  := by
  have head := acted.head
  simp only [headOf, Prod.mk.injEq] at head
  obtain ⟨one, kind, id, input⟩ := head
  simp only [validateLifecycleRecordClosed, if_pos one, validateLifecycleActionEventShape,
    bind_eq_ok, need_eq_ok, check_eq_ok, Option.filter_eq_some_iff, decide_eq_true_eq] at h
  obtain ⟨_, ⟨stored, ⟨found, same⟩, shape, shaped, fits⟩, empty⟩ := h
  obtain ⟨stored', known, nodeId⟩ := acted.known
  rw [id] at found
  obtain rfl := Option.some.inj (known.symm.trans found)
  rw [nodeId, acted.declared, Option.getD_some] at shaped
  have shapeOf := actionShape_ok shaped fits
  change ShapeOf stored'.kind node c.eventTypes at shapeOf
  rw [same, kind, types] at shapeOf
  have cleared := cleared_of_empty empty
  obtain ⟨spent, kept, fitting⟩ := acted.kept
  have type : first.type = "action.applied" :=
    (LifecycleMigrationEvent.nativeType_of_read acted.read).symm
  refine .action first action node acted.mem acted.read acted.declared shapeOf.single ?_
    shapeOf.required ?_
  · intro other mem
    rcases shapeOf.listed other.type (List.mem_map_of_mem mem) with same | required | optional
    · exact .inl (eq_of_single shapeOf.single mem acted.mem same type)
    · obtain ⟨entry, listed, is⟩ := required
      have named := named_of_count (acted.companions entry listed) (shapeOf.required entry listed) mem is
      obtain ⟨event, read⟩ := reads other mem
      simp only [namedBy, read, Except.toOption, Option.any_some] at named
      exact .inr ⟨event, read, named, .inl ⟨entry, listed, is⟩⟩
    · obtain ⟨event, read⟩ := reads other mem
      refine .inr ⟨event, read, kept.named fitting cleared mem read ?_, .inr optional⟩
      rw [LifecycleMigrationEvent.nativeType_of_read read]
      exact mem_optionalCompanions optional
  · intro type optional
    have bodies : (typesOf seen).countP bodyTypes.contains ≤ 1 := by
      rw [kept.bodyCount, cleared.eventKeys, Nat.zero_add]
      exact fitting.bodies
    rcases List.mem_cons.mp (mem_optionalCompanions optional) with rfl | incident
    · exact shapeOf.released
    · simp only [List.mem_cons, List.not_mem_nil, or_false] at incident
      rcases incident with rfl | rfl | rfl
      · exact (count_le_bodies (by decide)).trans bodies
      · exact (count_le_bodies (by decide)).trans bodies
      · rw [kept.resolutionCount, cleared.resolutionKeys, Nat.zero_add]
        exact fitting.resolutions

/-- An observation uses up the body or the resolution of the incident of its effect. -/
theorem consumeEffectIncidentEvent_kept
    {effectId : String} {observation : StatusChange EffectStatus} (kept : Kept seen c {})
    (h : consumeEffectIncidentEvent c s effectId observation = .ok c') :
  (∃ spent : Spent, Kept seen c' spent ∧
    ∀ incidentId, spent.incident = some incidentId → incidentId = effectIncidentId effectId) ∧
  c'.eventTypes = c.eventTypes
  := by
  simp only [consumeEffectIncidentEvent, bind_eq_ok] at h
  obtain ⟨_, -, h⟩ := h
  by_cases confirmed : observation.status = .confirmed
  · simp only [if_pos confirmed, bind_eq_ok, Except.ok.injEq] at h
    obtain ⟨_, -, _, -, rfl⟩ := h
    obtain ⟨n, -, spent⟩ := kept.spendResolution (effectIncidentId effectId)
    exact ⟨⟨_, spent, fun incidentId used => (Option.some.inj used).symm⟩, rfl⟩
  simp only [if_neg confirmed] at h
  by_cases reconciling : observation.status = .reconciling
  · simp only [if_pos reconciling, bind_eq_ok, Except.ok.injEq] at h
    obtain ⟨_, -, rfl⟩ := h
    exact ⟨⟨{}, kept, by simp⟩, rfl⟩
  · simp only [if_neg reconciling, bind_eq_ok, need_eq_ok, Except.ok.injEq] at h
    obtain ⟨_, -, event, filed, _, -, _, -, _, -, rfl⟩ := h
    exact ⟨⟨_, kept.spendBody (Table.has_iff.mpr ⟨event, filed⟩),
      fun incidentId used => (Option.some.inj used).symm⟩, rfl⟩

/-- Texts that are one of three are counted by them. -/
theorem length_of_three
    {types : List String} {a b d : String} (apart : a ≠ b) (apart' : a ≠ d) (apart'' : b ≠ d)
    (among : ∀ type ∈ types, type = a ∨ type = b ∨ type = d) :
  types.length = types.count a + types.count b + types.count d
  := by
  induction types with
  | nil => rfl
  | cons type types ih =>
      rw [List.forall_mem_cons] at among
      obtain ⟨first, rest⟩ := among
      have counted := ih rest
      rcases first with rfl | rfl | rfl
      · simp [apart, apart', counted]
        omega
      · simp [apart.symm, apart'', counted]
        omega
      · simp [apart'.symm, apart''.symm, counted]
        omega

/-- A command with the observation of an effect is closed. -/
theorem closed_of_observation
    {effectId : String} {observation : StatusChange EffectStatus} (pending : Pending seen c)
    (kept : Kept seen c {}) (types : c.eventTypes = typesOf seen)
    (reads : ∀ source ∈ seen, ∃ event, source.read = .ok event)
    (observed : c.effectObservations.entries = [⟨effectId, observation⟩])
    (h : closeEffectObservation c s effectId observation = .ok ()) :
  ClosedCommand s seen
  := by
  simp only [closeEffectObservation, bind_eq_ok, check_eq_ok] at h
  obtain ⟨used, consumed, _, fits, empty⟩ := h
  have cleared := cleared_of_empty empty
  obtain ⟨counts, listed⟩ := hasShape_ok fits
  simp only [types, List.forall_mem_cons, List.not_mem_nil, false_implies, implies_true,
    and_true] at counts
  obtain ⟨single, opened, resolved⟩ := counts
  have among : ∀ type ∈ typesOf seen, type = "effect.observed" ∨ type = "incident.opened" ∨
      type = "incident.resolved" := by
    intro type mem
    rw [← types] at mem
    simpa using listed type mem
  obtain ⟨⟨spent, kept', about⟩, -⟩ := consumeEffectIncidentEvent_kept kept consumed
  have found : c.effectObservations.lookup effectId = some observation := by
    simp [AList.lookup, observed]
  obtain ⟨source, mem, event, read, status, receipt, updatedAt, rfl⟩ :=
    pending.effectObservations _ _ found
  have type := LifecycleMigrationEvent.nativeType_of_read read
  refine .observation source effectId status receipt updatedAt mem read ?_ single ?_
  · intro other mem'
    obtain ⟨event, read'⟩ := reads other mem'
    have type' := LifecycleMigrationEvent.nativeType_of_read read'
    rcases among other.type (List.mem_map_of_mem mem') with same | same | same
    · exact .inl (eq_of_single single mem' mem same type.symm)
    · rw [same] at type'
      obtain ⟨incident, rfl⟩ : ∃ incident, event = .incidentOpened incident := by
        cases event <;> simp [Event.nativeType] at type'
        exact ⟨_, rfl⟩
      rcases kept'.bodies other mem' incident (.inl read') with held | spends
      · have held' : used.incidentEvents.has incident.id = true := held
        rw [show used.incidentEvents.has incident.id = false from cleared.events _] at held'
        cases held'
      · exact .inr (.inl ⟨incident, read', about _ spends⟩)
    · rw [same] at type'
      obtain ⟨incidentId, resolvedAt, rfl⟩ :
          ∃ incidentId resolvedAt, event = .incidentResolved incidentId resolvedAt := by
        cases event <;> simp [Event.nativeType] at type'
        exact ⟨_, _, rfl⟩
      rcases kept'.resolutions other mem' incidentId resolvedAt read' with held | spends
      · rw [show used.incidentResolutions.has incidentId = false from cleared.resolutions _] at held
        cases held
      · rw [← about _ spends]
        exact .inr (.inr ⟨resolvedAt, read'⟩)
  · have length : seen.length = (typesOf seen).length := by simp [typesOf]
    rw [length, length_of_three (by decide) (by decide) (by decide) among, single, opened, resolved]
    cases observation.status <;> simp
    split_ifs <;> omega

/-- A command without an action is closed. -/
theorem closed_of_pending
    (pending : Pending seen c) (kept : Kept seen c {}) (types : c.eventTypes = typesOf seen)
    (reads : ∀ source ∈ seen, ∃ event, source.read = .ok event)
    (h : validateLifecycleRecordClosed c s = .ok ()) :
  ClosedCommand s seen
  := by
  have none : ¬ c.actionCount = 1 := by
    rw [pending.actions]
    decide
  have alone : ∀ type, c.eventTypes = [type] → ∃ source, seen = [source] ∧ source.type = type := by
    intro type single
    rw [types, typesOf, List.map_eq_singleton_iff] at single
    exact single
  unfold validateLifecycleRecordClosed at h
  rw [if_neg none] at h
  split at h
  · rename_i effectId observation observed
    exact closed_of_observation pending kept types reads observed h
  · cases h
  · rename_i incidentId event _ single _
    obtain ⟨source, rfl, type⟩ := alone _ single
    obtain ⟨event, read⟩ := reads source (List.mem_singleton_self _)
    have type' := LifecycleMigrationEvent.nativeType_of_read read
    rw [type] at type'
    obtain ⟨incident, rfl⟩ : ∃ incident, event = .incidentUpdated incident := by
      cases event <;> simp [Event.nativeType] at type'
      exact ⟨_, rfl⟩
    exact .update source incident rfl read
  · rename_i type _ single _
    simp only [bind_eq_ok, check_eq_ok] at h
    obtain ⟨_, standalone, -⟩ := h
    obtain ⟨source, rfl, rfl⟩ := alone _ single
    exact .standalone source rfl (List.contains_iff_mem.mp standalone)
  · cases h

/-- A command with two actions is not closed. -/
theorem not_closed_of_many
    {u : Unit} (many : 2 ≤ c.eventTypes.count "action.applied") :
  validateLifecycleRecordClosed c s ≠ .ok u
  := by
  have few : ∀ type, c.eventTypes ≠ [type] := by
    intro type single
    have length := List.count_le_length (a := "action.applied") (l := c.eventTypes)
    rw [single, List.length_singleton, ← single] at length
    omega
  intro h
  unfold validateLifecycleRecordClosed at h
  split_ifs at h
  · simp only [validateLifecycleActionEventShape, bind_eq_ok, check_eq_ok] at h
    obtain ⟨_, ⟨stored, -, shape, shaped, fits⟩, -⟩ := h
    have single := (actionShape_ok shaped fits).single
    omega
  · split at h
    · simp only [closeEffectObservation, bind_eq_ok, check_eq_ok] at h
      obtain ⟨_, -, _, fits, -⟩ := h
      have mem : "action.applied" ∈ c.eventTypes := List.count_pos_iff.mp (by omega)
      have listed := (hasShape_ok fits).2 _ mem
      simp at listed
    · cases h
    · rename_i single _
      exact few _ single
    · rename_i single _
      exact few _ single
    · cases h

/-- What is known of a command is enough to see that it is closed. -/
theorem Followed.closed
    {graph : Option GraphDefinition} (followed : Followed graph seen c s)
    (h : validateLifecycleRecordClosed c s = .ok ()) :
  ClosedCommand s seen
  := by
  rcases followed.claims with ⟨pending, kept⟩ | ⟨first, action, node, acted⟩ | many
  · exact closed_of_pending pending kept followed.types followed.reads h
  · exact acted.closed followed.types followed.reads h
  · rw [← followed.types] at many
    exact absurd h (not_closed_of_many many)

/-! ### Histories -/

/-- What is known after the events of a command. -/
theorem Followed.run
    {graph : Option GraphDefinition} {rest : List LifecycleMigrationEvent}
    (followed : Followed graph seen c s)
    (h : rest.foldlM (applyEvent p occurredAt) (c, s) = .ok (c', t)) :
  Followed graph (seen ++ rest) c' t
  := by
  induction rest generalizing seen c s with
  | nil =>
      obtain ⟨rfl, rfl⟩ : c = c' ∧ s = t := by simpa using h
      rw [List.append_nil]
      exact followed
  | cons source rest ih =>
      rw [List.foldlM_cons, bind_eq_ok] at h
      obtain ⟨⟨c₁, s₁⟩, first, h⟩ := h
      have next := ih (followed.step first) h
      rw [List.append_assoc] at next
      exact next

/-- Whether a command is closed depends on the graph of the state alone. -/
theorem ClosedCommand.congr
    {sources : List LifecycleMigrationEvent} (closed : ClosedCommand t sources)
    (graph : t.graph = s.graph) :
  ClosedCommand s sources
  := by
  cases closed with
  | action source action node mem read declared single companions required optional =>
      refine .action source action node mem read ?_ single companions required optional
      rw [State.nodeDefinition, ← graph]
      exact declared
  | observation source effectId status receipt updatedAt mem read companions single few =>
      exact .observation source effectId status receipt updatedAt mem read companions single few
  | update source incident only read => exact .update source incident only read
  | standalone source only type => exact .standalone source only type

end Lifecycle

section

variable {p : Platform} {s : State} {segments : List Segment} {now : Instant}
  {manifest : LifecycleMigrationManifest} {trusted : String} {valid : LifecycleValidation}

end

/-- The history of one binding is accepted. -/
theorem SampleHistory.accepts :
  ∃ valid, answer [] = .ok valid
  := by
  have admitted : (answer []).toOption.isSome = true := by decide
  cases accepted : answer [] with
  | error message => simp [accepted, Except.toOption] at admitted
  | ok valid => exact ⟨valid, rfl⟩

/-- Its one command is the binding. -/
theorem SampleHistory.given :
  (manifest []).sourceCommands = .ok [⟨.utc 0, [binding []]⟩]
  := rfl

end Dagrail
