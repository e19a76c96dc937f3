import Dagrail.Foundation.Base64
import Dagrail.Foundation.Members
import Dagrail.Service.ActionRef
import Dagrail.Service.Payload
import Dagrail.Service.LifecycleManifest

/-!
# Compact action references

What is signed when an action is listed (`internal/service/actions.go`): a payload with the head,
the role and its session, and what the action is about. A payload whose text is long is signed in a
compact form, which has a key in the place of every name: a hash of the project, the kind of the
name, and the name. When the reference comes back, the names are looked up among those of the
current state.

Texts of documents and the message authentication code are parameters.
-/

namespace Dagrail

open Decoder

/-! ### Payloads -/

/-- What is signed. -/
structure ActionRefPayload where
  actionId : String := ""
  projectId : String := ""
  graphRevision : String := ""
  providerSet : String := ""
  headHash : String := ""
  roleId : String := ""
  sessionId : String := ""
  nodeId : String := ""
  attemptId : String := ""
  resourceId : String := ""
  incidentId : String := ""
  successorNodeId : String := ""
  targetRoleId : String := ""
  previousSessionId : String := ""
  kind : String := ""
  expiresAt : String := ""
  compact : Bool := false
  roleKey : String := ""
  sessionKey : String := ""
  nodeKey : String := ""
  attemptKey : String := ""
  resourceKey : String := ""
  incidentKey : String := ""
  successorKey : String := ""
  targetRoleKey : String := ""
  previousSessionKey : String := ""
deriving DecidableEq, Inhabited

namespace ActionRefPayload

/-- The members of a payload. -/
def entries (payload : ActionRefPayload) : List (String × Option Json) :=
  [("actionId", some (.str payload.actionId)),
   ("projectId", some (.str payload.projectId)),
   ("graphRevision", some (.str payload.graphRevision)),
   ("providerSet", some (.str payload.providerSet)),
   ("headHash", some (.str payload.headHash)),
   ("roleId", Json.textOrOmit payload.roleId),
   ("sessionId", Json.textOrOmit payload.sessionId),
   ("nodeId", Json.textOrOmit payload.nodeId),
   ("attemptId", Json.textOrOmit payload.attemptId),
   ("resourceId", Json.textOrOmit payload.resourceId),
   ("incidentId", Json.textOrOmit payload.incidentId),
   ("successorNodeId", Json.textOrOmit payload.successorNodeId),
   ("targetRoleId", Json.textOrOmit payload.targetRoleId),
   ("previousSessionId", Json.textOrOmit payload.previousSessionId),
   ("kind", some (.str payload.kind)),
   ("expiresAt", some (.str payload.expiresAt)),
   ("compact", Json.trueOrOmit payload.compact),
   ("roleKey", Json.textOrOmit payload.roleKey),
   ("sessionKey", Json.textOrOmit payload.sessionKey),
   ("nodeKey", Json.textOrOmit payload.nodeKey),
   ("attemptKey", Json.textOrOmit payload.attemptKey),
   ("resourceKey", Json.textOrOmit payload.resourceKey),
   ("incidentKey", Json.textOrOmit payload.incidentKey),
   ("successorKey", Json.textOrOmit payload.successorKey),
   ("targetRoleKey", Json.textOrOmit payload.targetRoleKey),
   ("previousSessionKey", Json.textOrOmit payload.previousSessionKey)]

/-- The document of a payload. -/
def document (payload : ActionRefPayload) : Json :=
  .obj (Json.present payload.entries)

/-- The reader of payloads. -/
def decoder : Decoder ActionRefPayload :=
  .record
    [textField "actionId" (·.actionId) fun r v => { r with actionId := v },
     textField "projectId" (·.projectId) fun r v => { r with projectId := v },
     textField "graphRevision" (·.graphRevision) fun r v => { r with graphRevision := v },
     textField "providerSet" (·.providerSet) fun r v => { r with providerSet := v },
     textField "headHash" (·.headHash) fun r v => { r with headHash := v },
     textField "roleId" (·.roleId) fun r v => { r with roleId := v },
     textField "sessionId" (·.sessionId) fun r v => { r with sessionId := v },
     textField "nodeId" (·.nodeId) fun r v => { r with nodeId := v },
     textField "attemptId" (·.attemptId) fun r v => { r with attemptId := v },
     textField "resourceId" (·.resourceId) fun r v => { r with resourceId := v },
     textField "incidentId" (·.incidentId) fun r v => { r with incidentId := v },
     textField "successorNodeId" (·.successorNodeId) fun r v => { r with successorNodeId := v },
     textField "targetRoleId" (·.targetRoleId) fun r v => { r with targetRoleId := v },
     textField "previousSessionId" (·.previousSessionId)
       fun r v => { r with previousSessionId := v },
     textField "kind" (·.kind) fun r v => { r with kind := v },
     textField "expiresAt" (·.expiresAt) fun r v => { r with expiresAt := v },
     boolField "compact" (·.compact) fun r v => { r with compact := v },
     textField "roleKey" (·.roleKey) fun r v => { r with roleKey := v },
     textField "sessionKey" (·.sessionKey) fun r v => { r with sessionKey := v },
     textField "nodeKey" (·.nodeKey) fun r v => { r with nodeKey := v },
     textField "attemptKey" (·.attemptKey) fun r v => { r with attemptKey := v },
     textField "resourceKey" (·.resourceKey) fun r v => { r with resourceKey := v },
     textField "incidentKey" (·.incidentKey) fun r v => { r with incidentKey := v },
     textField "successorKey" (·.successorKey) fun r v => { r with successorKey := v },
     textField "targetRoleKey" (·.targetRoleKey) fun r v => { r with targetRoleKey := v },
     textField "previousSessionKey" (·.previousSessionKey)
       fun r v => { r with previousSessionKey := v }]

/-- No two members of a payload have names that fold to the same. -/
theorem entries_distinct
    (payload : ActionRefPayload) :
  (payload.entries.map fun e => foldName e.1).Nodup
  := by
  have names : (payload.entries.map fun e => foldName e.1) =
      (entries {}).map fun e => foldName e.1 := rfl
  rw [names]
  decide +kernel

/-- A payload reads back from its document. -/
theorem decode_document
    (payload : ActionRefPayload) :
  decoder.decode {} payload.document = .ok payload
  := by
  have bound : ∀ name value, (name, value) ∈ payload.entries →
      boundValues name (Json.present payload.entries) = value.toList :=
    fun name value mem => boundValues_present payload.entries_distinct mem
  have said : ∀ name (get : ActionRefPayload → String) set (r : ActionRefPayload) s,
      (name, some (Json.str s)) ∈ payload.entries →
      (textField name get set).readValues r (boundValues name (Json.present payload.entries))
        = .ok (set r s) := by
    intro name get set r s mem
    rw [bound name _ mem]
    exact readValues_str name get set r s
  have omitted : ∀ name (get : ActionRefPayload → String) set (r : ActionRefPayload) s,
      (name, Json.textOrOmit s) ∈ payload.entries → get r = "" →
      (textField name get set).readValues r (boundValues name (Json.present payload.entries))
        = .ok (set r s) := by
    intro name get set r s mem fresh
    rw [bound name _ mem]
    exact readValues_textOrOmit name get set r s fresh
  have flag : ∀ name (get : ActionRefPayload → Bool) set (r : ActionRefPayload) b,
      (name, Json.trueOrOmit b) ∈ payload.entries → get r = false →
      (boolField name get set).readValues r (boundValues name (Json.present payload.entries))
        = .ok (set r b) := by
    intro name get set r b mem fresh
    rw [bound name _ mem]
    exact readValues_trueOrOmit name get set r b fresh
  change readFields _ _ _ = _
  refine readFields_cons (said "actionId" _ _ _ payload.actionId (by simp [entries])) ?_
  refine readFields_cons (said "projectId" _ _ _ payload.projectId (by simp [entries])) ?_
  refine readFields_cons (said "graphRevision" _ _ _ payload.graphRevision (by simp [entries])) ?_
  refine readFields_cons (said "providerSet" _ _ _ payload.providerSet (by simp [entries])) ?_
  refine readFields_cons (said "headHash" _ _ _ payload.headHash (by simp [entries])) ?_
  refine readFields_cons (omitted "roleId" _ _ _ payload.roleId (by simp [entries]) rfl) ?_
  refine readFields_cons (omitted "sessionId" _ _ _ payload.sessionId (by simp [entries]) rfl) ?_
  refine readFields_cons (omitted "nodeId" _ _ _ payload.nodeId (by simp [entries]) rfl) ?_
  refine readFields_cons (omitted "attemptId" _ _ _ payload.attemptId (by simp [entries]) rfl) ?_
  refine readFields_cons (omitted "resourceId" _ _ _ payload.resourceId (by simp [entries]) rfl) ?_
  refine readFields_cons (omitted "incidentId" _ _ _ payload.incidentId (by simp [entries]) rfl) ?_
  refine readFields_cons (omitted "successorNodeId" _ _ _ payload.successorNodeId
    (by simp [entries]) rfl) ?_
  refine readFields_cons (omitted "targetRoleId" _ _ _ payload.targetRoleId
    (by simp [entries]) rfl) ?_
  refine readFields_cons (omitted "previousSessionId" _ _ _ payload.previousSessionId
    (by simp [entries]) rfl) ?_
  refine readFields_cons (said "kind" _ _ _ payload.kind (by simp [entries])) ?_
  refine readFields_cons (said "expiresAt" _ _ _ payload.expiresAt (by simp [entries])) ?_
  refine readFields_cons (flag "compact" _ _ _ payload.compact (by simp [entries]) rfl) ?_
  refine readFields_cons (omitted "roleKey" _ _ _ payload.roleKey (by simp [entries]) rfl) ?_
  refine readFields_cons (omitted "sessionKey" _ _ _ payload.sessionKey (by simp [entries]) rfl) ?_
  refine readFields_cons (omitted "nodeKey" _ _ _ payload.nodeKey (by simp [entries]) rfl) ?_
  refine readFields_cons (omitted "attemptKey" _ _ _ payload.attemptKey (by simp [entries]) rfl) ?_
  refine readFields_cons (omitted "resourceKey" _ _ _ payload.resourceKey
    (by simp [entries]) rfl) ?_
  refine readFields_cons (omitted "incidentKey" _ _ _ payload.incidentKey
    (by simp [entries]) rfl) ?_
  refine readFields_cons (omitted "successorKey" _ _ _ payload.successorKey
    (by simp [entries]) rfl) ?_
  refine readFields_cons (omitted "targetRoleKey" _ _ _ payload.targetRoleKey
    (by simp [entries]) rfl) ?_
  refine readFields_cons (omitted "previousSessionKey" _ _ _ payload.previousSessionKey
    (by simp [entries]) rfl) ?_
  rfl

end ActionRefPayload

/-! ### Keys -/

/-- The key of a name of a kind; nothing has no key. -/
def actionBindingKey (p : Platform) (projectId kind value : String) : String :=
  if value = "" then "" else p.hash.joined [projectId, kind, value]

/-- The compact form of a payload: keys in the place of names. -/
def compactActionRef (p : Platform) (payload : ActionRefPayload) : ActionRefPayload where
  actionId := payload.actionId
  projectId := payload.projectId
  graphRevision := payload.graphRevision
  providerSet := payload.providerSet
  headHash := payload.headHash
  kind := payload.kind
  expiresAt := payload.expiresAt
  compact := true
  roleKey := actionBindingKey p payload.projectId "role" payload.roleId
  sessionKey :=
    actionBindingKey p payload.projectId ("session:" ++ payload.roleId) payload.sessionId
  nodeKey := actionBindingKey p payload.projectId "node" payload.nodeId
  attemptKey := actionBindingKey p payload.projectId "attempt" payload.attemptId
  resourceKey := actionBindingKey p payload.projectId "resource" payload.resourceId
  incidentKey := actionBindingKey p payload.projectId "incident" payload.incidentId
  successorKey := actionBindingKey p payload.projectId "node" payload.successorNodeId
  targetRoleKey := actionBindingKey p payload.projectId "role" payload.targetRoleId
  previousSessionKey :=
    actionBindingKey p payload.projectId ("session:" ++ payload.targetRoleId)
      payload.previousSessionId

/-- A name has a key. -/
theorem actionBindingKey_ne_empty
    {p : Platform} {projectId kind value : String} (there : value ≠ "") :
  actionBindingKey p projectId kind value ≠ ""
  := by
  rw [actionBindingKey, if_neg there]
  exact Hex.text_ne_empty _

/-! ### Resolving -/

/-- What stands for two names with the same key. -/
def bindingCollision : String := "!collision"

/-- Go through the names and remember the one with the key. -/
def matchBinding (keyOf : String → String) (key : String) : String → List String → String
  | matched, [] => matched
  | matched, value :: rest =>
      if keyOf value = key then
        if matched ≠ "" ∧ matched ≠ value then bindingCollision
        else matchBinding keyOf key value rest
      else matchBinding keyOf key matched rest

/-- The name with the key; no key is for no name. -/
def resolveBinding (p : Platform) (projectId kind key : String) (values : List String) :
    Fallible String :=
  if key = "" then .ok ""
  else do
    let matched := matchBinding (actionBindingKey p projectId kind) key "" values
    check (matched ≠ "" && matched ≠ bindingCollision)
      ("compact action reference " ++ kind ++ " binding is stale")
    .ok matched

/-- The session of the lease of a role, which has to have the key. -/
def resolveSession (p : Platform) (s : State) (projectId roleId key message : String) :
    Fallible String := do
  let lease ← need ((s.leases.lookup roleId).filter fun lease =>
    actionBindingKey p projectId ("session:" ++ roleId) lease.sessionId = key) message
  .ok lease.sessionId

/-- The session of the lease of the target role, if there is one. -/
def resolvePreviousSession (p : Platform) (s : State) (payload : ActionRefPayload)
    (targetRoleId : String) : Fallible String :=
  if targetRoleId = "" then .ok payload.previousSessionId
  else resolveSession p s payload.projectId targetRoleId payload.previousSessionKey
    "compact action reference previous target session binding is stale"

/-- A payload with the names that its keys have in a state. -/
def resolveCompactActionRef (p : Platform) (s : State) (payload : ActionRefPayload) :
    Fallible ActionRefPayload :=
  if payload.compact then do
    let graph ← need (s.graph.filter fun _ =>
        payload.projectId = s.projectId && payload.roleKey ≠ ""
          && (payload.kind = "role.control-transfer" || payload.nodeKey ≠ ""))
      "compact action reference is stale or incomplete"
    let roles := graph.spec.roles.map RoleDefinition.id
    let nodes := graph.spec.nodes.map NodeDefinition.id
    let roleId ← resolveBinding p payload.projectId "role" payload.roleKey roles
    let sessionId ← resolveSession p s payload.projectId roleId payload.sessionKey
      "compact action reference session binding is stale"
    let targetRoleId ← resolveBinding p payload.projectId "role" payload.targetRoleKey roles
    let previousSessionId ← resolvePreviousSession p s payload targetRoleId
    let nodeId ← resolveBinding p payload.projectId "node" payload.nodeKey nodes
    let attemptId ← resolveBinding p payload.projectId "attempt" payload.attemptKey s.attempts.keys
    let resourceId ←
      resolveBinding p payload.projectId "resource" payload.resourceKey s.resources.keys
    let incidentId ←
      resolveBinding p payload.projectId "incident" payload.incidentKey s.incidents.keys
    let successorNodeId ← resolveBinding p payload.projectId "node" payload.successorKey nodes
    .ok { payload with
      roleId, sessionId, targetRoleId, previousSessionId, nodeId, attemptId, resourceId, incidentId
      successorNodeId }
  else .ok payload

/-! ### Names -/

namespace ActionRefPayload

/-- The names in a payload. -/
def names (payload : ActionRefPayload) : List String :=
  [payload.roleId, payload.sessionId, payload.nodeId, payload.attemptId, payload.resourceId,
    payload.incidentId, payload.successorNodeId, payload.targetRoleId, payload.previousSessionId]

/-- The compact form with its names. -/
def keyed (p : Platform) (payload : ActionRefPayload) : ActionRefPayload :=
  { compactActionRef p payload with
    roleId := payload.roleId
    sessionId := payload.sessionId
    targetRoleId := payload.targetRoleId
    previousSessionId := payload.previousSessionId
    nodeId := payload.nodeId
    attemptId := payload.attemptId
    resourceId := payload.resourceId
    incidentId := payload.incidentId
    successorNodeId := payload.successorNodeId }

/-- Everything that the payload names is in the state, under the same sessions. -/
structure Bound (s : State) (payload : ActionRefPayload) : Prop where
  projectId : payload.projectId = s.projectId
  roleId : payload.roleId ≠ "" ∧ graphHasRole s payload.roleId = true
  sessionId : ∃ lease, s.leases.lookup payload.roleId = some lease ∧
    lease.sessionId = payload.sessionId
  about : payload.kind = "role.control-transfer" ∨ payload.nodeId ≠ ""
  target : payload.targetRoleId ≠ "" → graphHasRole s payload.targetRoleId = true ∧
    ∃ lease, s.leases.lookup payload.targetRoleId = some lease ∧
      lease.sessionId = payload.previousSessionId
  nodeId : payload.nodeId ≠ "" → (s.nodeDefinition payload.nodeId).isSome = true
  attemptId : payload.attemptId ≠ "" → s.attempts.has payload.attemptId = true
  resourceId : payload.resourceId ≠ "" → s.resources.has payload.resourceId = true
  incidentId : payload.incidentId ≠ "" → s.incidents.has payload.incidentId = true
  successorNodeId : payload.successorNodeId ≠ "" →
    (s.nodeDefinition payload.successorNodeId).isSome = true

end ActionRefPayload

/-- The names of a state that keys stand for. -/
def State.bindingNames (s : State) : List String :=
  (s.graph.map fun g =>
      g.spec.roles.map RoleDefinition.id ++ g.spec.nodes.map NodeDefinition.id).getD []
    ++ s.attempts.keys ++ s.resources.keys ++ s.incidents.keys
    ++ s.leases.entries.map fun entry => entry.2.sessionId

/-- The hash tells the names of the payload from the other names of the state. -/
def KeysApart (p : Platform) (s : State) (payload : ActionRefPayload) : Prop :=
  ∀ kind, ∀ value ∈ payload.names, ∀ name ∈ s.bindingNames,
    actionBindingKey p payload.projectId kind name
      = actionBindingKey p payload.projectId kind value → name = value

/-! ### What is resolved -/

section Binding

variable {p : Platform} {projectId kind value : String} {values : List String}

/-- What is remembered is a name with the key, unless it was there before or two names have it. -/
theorem matchBinding_cases
    (keyOf : String → String) (key matched : String) (values : List String) :
  matchBinding keyOf key matched values = matched ∨
    matchBinding keyOf key matched values = bindingCollision ∨
    (matchBinding keyOf key matched values ∈ values ∧
      keyOf (matchBinding keyOf key matched values) = key)
  := by
  induction values generalizing matched with
  | nil => exact .inl rfl
  | cons v rest ih =>
      unfold matchBinding
      split_ifs with same clash
      · exact .inr (.inl rfl)
      · rcases ih v with kept | collision | ⟨inside, own⟩
        · rw [kept]
          exact .inr (.inr ⟨List.mem_cons_self, same⟩)
        · exact .inr (.inl collision)
        · exact .inr (.inr ⟨List.mem_cons_of_mem _ inside, own⟩)
      · rcases ih matched with kept | collision | ⟨inside, own⟩
        · exact .inl kept
        · exact .inr (.inl collision)
        · exact .inr (.inr ⟨List.mem_cons_of_mem _ inside, own⟩)

/-- The only name with the key is remembered. -/
theorem matchBinding_eq
    (keyOf : String → String) (matched : String)
    (apart : ∀ name ∈ values, keyOf name = keyOf value → name = value)
    (there : matched = value ∨ (matched = "" ∧ value ∈ values)) :
  matchBinding keyOf (keyOf value) matched values = value
  := by
  induction values generalizing matched with
  | nil =>
      rcases there with rfl | ⟨-, mem⟩
      · rfl
      · cases mem
  | cons v rest ih =>
      rw [List.forall_mem_cons] at apart
      unfold matchBinding
      split_ifs with same clash
      · obtain rfl := apart.1 same
        rcases there with here | ⟨empty, -⟩
        · exact absurd here clash.2
        · exact absurd empty clash.1
      · exact ih v apart.2 (.inl (apart.1 same))
      · refine ih matched apart.2 (there.imp_right fun both => ⟨both.1, ?_⟩)
        rcases List.mem_cons.mp both.2 with rfl | mem
        · exact absurd rfl same
        · exact mem

/-- The key of a name is resolved to the name, and only when the name is one of those there. -/
theorem resolveBinding_iff
    {r : String} (apart : ∀ name ∈ values,
      actionBindingKey p projectId kind name = actionBindingKey p projectId kind value →
        name = value)
    (plain : value ≠ bindingCollision) :
  resolveBinding p projectId kind (actionBindingKey p projectId kind value) values = .ok r ↔
    r = value ∧ (value ≠ "" → value ∈ values)
  := by
  unfold resolveBinding
  by_cases empty : value = ""
  · simp [empty, actionBindingKey, eq_comm]
  · rw [if_neg (actionBindingKey_ne_empty empty)]
    simp only [bind_eq_ok, check_eq_ok, Bool.and_eq_true, decide_eq_true_eq, Except.ok.injEq,
      exists_const]
    constructor
    · rintro ⟨⟨there, single⟩, rfl⟩
      rcases matchBinding_cases (actionBindingKey p projectId kind)
        (actionBindingKey p projectId kind value) "" values with
        none_ | collision | ⟨inside, own⟩
      · exact absurd none_ there
      · exact absurd collision single
      · have same := apart _ inside own
        rw [same] at inside
        exact ⟨same, fun _ => inside⟩
    · rintro ⟨rfl, known⟩
      have found := matchBinding_eq (actionBindingKey p projectId kind) "" apart
        (.inr ⟨rfl, known empty⟩)
      rw [found]
      exact ⟨⟨empty, plain⟩, rfl⟩

/-- The key of a session is resolved to the session of the lease. -/
theorem resolveSession_iff
    {s : State} {roleId sessionId r message : String}
    (apart : ∀ lease, s.leases.lookup roleId = some lease →
      actionBindingKey p projectId ("session:" ++ roleId) lease.sessionId
        = actionBindingKey p projectId ("session:" ++ roleId) sessionId →
      lease.sessionId = sessionId) :
  resolveSession p s projectId roleId
      (actionBindingKey p projectId ("session:" ++ roleId) sessionId) message = .ok r ↔
    r = sessionId ∧ ∃ lease, s.leases.lookup roleId = some lease ∧ lease.sessionId = sessionId
  := by
  simp only [resolveSession, bind_eq_ok, need_eq_ok, Option.filter_eq_some_iff, decide_eq_true_eq,
    Except.ok.injEq]
  constructor
  · rintro ⟨lease, ⟨known, key⟩, rfl⟩
    have same := apart lease known key
    exact ⟨same, lease, known, same⟩
  · rintro ⟨rfl, lease, known, same⟩
    exact ⟨lease, ⟨known, by rw [same]⟩, same⟩

end Binding

section Names

variable {p : Platform} {s : State} {payload : ActionRefPayload} {g : GraphDefinition}

/-- A role of the graph is declared. -/
theorem mem_roles_iff
    (graph : s.graph = some g) {roleId : String} :
  roleId ∈ g.spec.roles.map RoleDefinition.id ↔ graphHasRole s roleId = true
  := by
  simp [graphHasRole, graph]

/-- A node of the graph is declared. -/
theorem mem_nodes_iff
    (graph : s.graph = some g) {nodeId : String} :
  nodeId ∈ g.spec.nodes.map NodeDefinition.id ↔ (s.nodeDefinition nodeId).isSome = true
  := by
  simp [State.nodeDefinition, graph, GraphDefinition.nodeDefinition]

/-- A key of a table is known. -/
theorem mem_keys_iff
    {α : Type} {table : Table α} {id : String} :
  id ∈ table.keys ↔ table.has id = true
  := by
  rw [← AList.mem_keys, ← AList.lookup_isSome]
  rfl

/-- A name of the payload is told from the names of a kind. -/
theorem KeysApart.of_subset
    (apart : KeysApart p s payload) (kind : String) {value : String} {values : List String}
    (mem : value ∈ payload.names) (subset : ∀ name ∈ values, name ∈ s.bindingNames) :
  ∀ name ∈ values, actionBindingKey p payload.projectId kind name
    = actionBindingKey p payload.projectId kind value → name = value
  := by
  intro name inside same
  exact apart kind value mem name (subset name inside) same

/-- A session of the payload is told from the session of a lease. -/
theorem KeysApart.of_lease
    (apart : KeysApart p s payload) (kind : String) {value roleId : String}
    (mem : value ∈ payload.names) (lease : RoleLease) (known : s.leases.lookup roleId = some lease)
    (same : actionBindingKey p payload.projectId kind lease.sessionId
      = actionBindingKey p payload.projectId kind value) :
  lease.sessionId = value
  := by
  refine apart kind value mem lease.sessionId ?_ same
  have filed : ⟨roleId, lease⟩ ∈ s.leases.entries := AList.mem_lookup_iff.mp known
  unfold State.bindingNames
  exact List.mem_append_right _ (List.mem_map.mpr ⟨_, filed, rfl⟩)

/-- The key of a name is empty for nothing only. -/
theorem actionBindingKey_eq_empty_iff
    {projectId kind value : String} :
  actionBindingKey p projectId kind value = "" ↔ value = ""
  := by
  constructor
  · intro empty
    by_contra there
    exact actionBindingKey_ne_empty there empty
  · rintro rfl
    rfl

/-- The compact form of a payload is resolved to the payload's own names, and only where all of them
are bound. -/
theorem resolveCompactActionRef_iff
    {r : ActionRefPayload} (apart : KeysApart p s payload)
    (plain : bindingCollision ∉ payload.names)
    (paired : payload.targetRoleId = "" → payload.previousSessionId = "") :
  resolveCompactActionRef p s (compactActionRef p payload) = .ok r ↔
    r = payload.keyed p ∧ payload.Bound s
  := by
  have free : ∀ value ∈ payload.names, value ≠ bindingCollision := by
    rintro value mem rfl
    exact plain mem
  have named : payload.roleId ∈ payload.names ∧ payload.sessionId ∈ payload.names ∧
      payload.nodeId ∈ payload.names ∧ payload.attemptId ∈ payload.names ∧
      payload.resourceId ∈ payload.names ∧ payload.incidentId ∈ payload.names ∧
      payload.successorNodeId ∈ payload.names ∧ payload.targetRoleId ∈ payload.names ∧
      payload.previousSessionId ∈ payload.names := by
    simp [ActionRefPayload.names]
  obtain ⟨role, session, node, attempt, resource, incident, successor, target, previous⟩ := named
  have attempts : ∀ name ∈ s.attempts.keys, name ∈ s.bindingNames := by
    intro name mem
    simp only [State.bindingNames, List.mem_append]
    exact .inl (.inl (.inl (.inr mem)))
  have resources : ∀ name ∈ s.resources.keys, name ∈ s.bindingNames := by
    intro name mem
    simp only [State.bindingNames, List.mem_append]
    exact .inl (.inl (.inr mem))
  have incidents : ∀ name ∈ s.incidents.keys, name ∈ s.bindingNames := by
    intro name mem
    simp only [State.bindingNames, List.mem_append]
    exact .inl (.inr mem)
  -- the previous session is looked up under the target role, when there is one
  have previousSession : ∀ r, resolvePreviousSession p s (compactActionRef p payload)
      payload.targetRoleId = .ok r ↔ r = payload.previousSessionId ∧
        (payload.targetRoleId ≠ "" → ∃ lease, s.leases.lookup payload.targetRoleId = some lease ∧
          lease.sessionId = payload.previousSessionId) := by
    intro r
    unfold resolvePreviousSession
    split_ifs with none_
    · rw [paired none_]
      change Except.ok (compactActionRef p payload).previousSessionId = _ ↔ _
      rw [show (compactActionRef p payload).previousSessionId = "" from rfl]
      simp only [Except.ok.injEq, none_, ne_eq, not_true_eq_false, false_implies, and_true]
      exact eq_comm
    · rw [show (compactActionRef p payload).previousSessionKey
        = actionBindingKey p payload.projectId ("session:" ++ payload.targetRoleId)
          payload.previousSessionId from rfl]
      rw [show (compactActionRef p payload).projectId = payload.projectId from rfl,
        resolveSession_iff (apart.of_lease _ previous)]
      simp only [none_, ne_eq, not_false_eq_true, true_implies]
  cases graph : s.graph with
  | none =>
      constructor
      · intro resolved
        simp [resolveCompactActionRef, compactActionRef, graph, bind_eq_ok, need_eq_ok] at resolved
      · rintro ⟨-, bound⟩
        have declared := bound.roleId.2
        simp [graphHasRole, graph] at declared
  | some g =>
      have roles : ∀ name ∈ g.spec.roles.map RoleDefinition.id, name ∈ s.bindingNames := by
        intro name mem
        simp only [State.bindingNames, graph, Option.map_some, Option.getD_some, List.mem_append]
        exact .inl (.inl (.inl (.inl (.inl mem))))
      have nodes : ∀ name ∈ g.spec.nodes.map NodeDefinition.id, name ∈ s.bindingNames := by
        intro name mem
        simp only [State.bindingNames, graph, Option.map_some, Option.getD_some, List.mem_append]
        exact .inl (.inl (.inl (.inl (.inr mem))))
      have binding : ∀ (kind value : String) (values : List String) r, value ∈ payload.names →
          (∀ name ∈ values, name ∈ s.bindingNames) →
          (resolveBinding p payload.projectId kind (actionBindingKey p payload.projectId kind value)
            values = .ok r ↔ r = value ∧ (value ≠ "" → value ∈ values)) := by
        intro kind value values r mem subset
        exact resolveBinding_iff (apart.of_subset kind mem subset) (free value mem)
      have session_ : ∀ r, resolveSession p s payload.projectId payload.roleId
          (actionBindingKey p payload.projectId ("session:" ++ payload.roleId) payload.sessionId)
          "compact action reference session binding is stale" = .ok r ↔ r = payload.sessionId ∧
            ∃ lease, s.leases.lookup payload.roleId = some lease ∧
              lease.sessionId = payload.sessionId := by
        intro r
        exact resolveSession_iff (apart.of_lease _ session)
      rw [resolveCompactActionRef,
        if_pos (show (compactActionRef p payload).compact = true from rfl)]
      simp only [graph, bind_eq_ok, need_eq_ok, Option.filter_eq_some_iff, Bool.and_eq_true,
        Bool.or_eq_true, decide_eq_true_eq, Option.some.injEq, exists_eq_left', and_assoc]
      constructor
      · rintro ⟨project, roleKey, about, roleId, roleFound, sessionId, sessionFound, targetId,
          targetFound, previousId, previousFound, nodeId, nodeFound, attemptId, attemptFound,
          resourceId, resourceFound, incidentId, incidentFound, successorId, successorFound, same⟩
        obtain ⟨rfl, roleKnown⟩ := (binding "role" _ _ _ role roles).mp roleFound
        obtain ⟨rfl, leased⟩ := (session_ _).mp sessionFound
        obtain ⟨rfl, targetKnown⟩ := (binding "role" _ _ _ target roles).mp targetFound
        obtain ⟨rfl, targetLeased⟩ := (previousSession _).mp previousFound
        obtain ⟨rfl, nodeKnown⟩ := (binding "node" _ _ _ node nodes).mp nodeFound
        obtain ⟨rfl, attemptKnown⟩ := (binding "attempt" _ _ _ attempt attempts).mp attemptFound
        obtain ⟨rfl, resourceKnown⟩ :=
          (binding "resource" _ _ _ resource resources).mp resourceFound
        obtain ⟨rfl, incidentKnown⟩ :=
          (binding "incident" _ _ _ incident incidents).mp incidentFound
        obtain ⟨rfl, successorKnown⟩ := (binding "node" _ _ _ successor nodes).mp successorFound
        have roleThere : payload.roleId ≠ "" := fun empty =>
          roleKey (actionBindingKey_eq_empty_iff.mpr empty)
        refine ⟨(Except.ok.inj same).symm, project, ⟨roleThere, ?_⟩, leased, ?_, ?_, ?_, ?_, ?_, ?_,
          ?_⟩
        · exact (mem_roles_iff graph).mp (roleKnown roleThere)
        · exact about.imp_right fun there empty => there (actionBindingKey_eq_empty_iff.mpr empty)
        · exact fun there => ⟨(mem_roles_iff graph).mp (targetKnown there), targetLeased there⟩
        · exact fun there => (mem_nodes_iff graph).mp (nodeKnown there)
        · exact fun there => mem_keys_iff.mp (attemptKnown there)
        · exact fun there => mem_keys_iff.mp (resourceKnown there)
        · exact fun there => mem_keys_iff.mp (incidentKnown there)
        · exact fun there => (mem_nodes_iff graph).mp (successorKnown there)
      · rintro ⟨rfl, bound⟩
        refine ⟨bound.projectId, actionBindingKey_ne_empty bound.roleId.1,
          bound.about.imp_right actionBindingKey_ne_empty,
          _, (binding "role" _ _ _ role roles).mpr
            ⟨rfl, fun _ => (mem_roles_iff graph).mpr bound.roleId.2⟩,
          _, (session_ _).mpr ⟨rfl, bound.sessionId⟩,
          _, (binding "role" _ _ _ target roles).mpr
            ⟨rfl, fun there => (mem_roles_iff graph).mpr (bound.target there).1⟩,
          _, (previousSession _).mpr ⟨rfl, fun there => (bound.target there).2⟩,
          _, (binding "node" _ _ _ node nodes).mpr
            ⟨rfl, fun there => (mem_nodes_iff graph).mpr (bound.nodeId there)⟩,
          _, (binding "attempt" _ _ _ attempt attempts).mpr
            ⟨rfl, fun there => mem_keys_iff.mpr (bound.attemptId there)⟩,
          _, (binding "resource" _ _ _ resource resources).mpr
            ⟨rfl, fun there => mem_keys_iff.mpr (bound.resourceId there)⟩,
          _, (binding "incident" _ _ _ incident incidents).mpr
            ⟨rfl, fun there => mem_keys_iff.mpr (bound.incidentId there)⟩,
          _, (binding "node" _ _ _ successor nodes).mpr
            ⟨rfl, fun there => (mem_nodes_iff graph).mpr (bound.successorNodeId there)⟩, rfl⟩

end Names

/-! ### Signing -/

/-- What the program takes from elsewhere to sign a reference: texts of documents and how they are
read, and the message authentication code under a secret. -/
structure ActionCodec where
  text : Json → List UInt8
  parse : List UInt8 → Option Json
  mac : List UInt8 → List UInt8 → List UInt8

/-- The longest text of a payload that is signed as it is. -/
def maxInlineActionRefPayloadBytes : Nat := 8 * 1024

namespace ActionCodec

variable (codec : ActionCodec)

/-- The payload, or its compact form when its text is long. -/
def signedPayload (p : Platform) (payload : ActionRefPayload) : ActionRefPayload :=
  if maxInlineActionRefPayloadBytes < (codec.text payload.document).length then
    compactActionRef p payload
  else payload

/-- The signed reference of a payload. -/
def signActionRef (p : Platform) (payload : ActionRefPayload) (secret : List UInt8) : String :=
  let raw := codec.text (codec.signedPayload p payload).document
  String.ofList (Base64.encode raw ++ ['.'] ++ Base64.encode (codec.mac secret raw))

/-- The payload of a reference with the right signature. -/
def verifyActionRef (ref : String) (secret : List UInt8) : Fallible ActionRefPayload :=
  match ref.toList.splitOn '.' with
  | [first, second] => do
      let raw ← need (Base64.decode first) "invalid action reference"
      let signature ← need (Base64.decode second) "invalid action reference"
      check (signature = codec.mac secret raw) "invalid action reference signature"
      let document ← need (codec.parse raw) "invalid payload"
      ActionRefPayload.decoder.decode {} document
  | _ => .error "invalid action reference"

/-- A signed reference is verified as what was signed. -/
theorem verifyActionRef_signActionRef
    (p : Platform) (payload : ActionRefPayload) (secret : List UInt8)
    (reads : codec.parse (codec.text (codec.signedPayload p payload).document)
      = some (codec.signedPayload p payload).document) :
  codec.verifyActionRef (codec.signActionRef p payload secret) secret
    = .ok (codec.signedPayload p payload)
  := by
  unfold verifyActionRef signActionRef
  dsimp only
  generalize codec.text (codec.signedPayload p payload).document = raw at reads
  have parts : (String.ofList (Base64.encode raw ++ ['.']
      ++ Base64.encode (codec.mac secret raw))).toList.splitOn '.'
      = [Base64.encode raw, Base64.encode (codec.mac secret raw)] := by
    have whole : ∀ part ∈ [Base64.encode raw, Base64.encode (codec.mac secret raw)],
        '.' ∉ part := by
      intro part mem stop
      simp only [List.mem_cons, List.not_mem_nil, or_false] at mem
      rcases mem with rfl | rfl <;> exact (Base64.encode_plain _ _ stop).1 rfl
    have joined := List.splitOn_intercalate '.' whole (List.cons_ne_nil _ _)
    simpa [List.intercalate, List.intersperse] using joined
  rw [parts]
  simp only [bind_eq_ok, need_eq_ok, check_eq_ok, decide_eq_true_eq]
  exact ⟨raw, Base64.decode_encode raw, _, Base64.decode_encode _, (), rfl, _, reads,
    ActionRefPayload.decode_document _⟩

end ActionCodec

end Dagrail
