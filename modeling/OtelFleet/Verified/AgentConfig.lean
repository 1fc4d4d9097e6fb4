import OtelFleet.Api.Fleet
import OtelFleet.Verified.RenderedSecrets
import OtelFleet.Verified.SecretFlow

/-! # Secrets in the config of an agent

`GetAgentConfig` shows the edge config as it is pushed to the agent, so it shows
the secrets of the customer's active edge pipelines in plaintext.
-/

namespace OtelFleet.Verified.AgentConfig

open Api Data Pipelines Semantics Store
open Verified.RenderedSecrets Verified.SecretFlow Verified.SecretTraversal
open Verified.ServiceRuns Verified.StoredSecrets

/-! ## Decrypted graphs -/

def SamePlain (left right : Json) : Prop := left = right ∨ ∃ text text', left = .str text ∧ right = .str text'

structure Twin (left right : RenderPipeline) : Prop where
  key : { left with graph := right.graph } = right
  rest : replaceGraph blank left.graph = replaceGraph blank right.graph
  fields : FieldsRel SamePlain (graphFields left.graph) (graphFields right.graph)

theorem Twin.sameKey {left right : RenderPipeline} (twin : Twin left right) : SameKey left right := by
  rw [← twin.key]
  exact ⟨rfl, rfl⟩

theorem samePlain_determined : Determined SamePlain True := by
  rintro left right (equal | ⟨text, text', rfl, rfl⟩) same
  · exact equal
  · simpa [toNode] using same trivial

theorem eq_determined : Determined (fun left right => left = right) False := fun _ _ equal _ => equal

section

variable {cipher : Option Cipher}

def opened (cipher : Option Cipher) (ap : ActivePipeline) : List (String × Option String) :=
  (ap.graph.elim [] graphFields).map fun field => (field.1, storedPlaintext cipher field.2)

theorem Hides.fieldValue {path : String} {value : Json} (hides : Hides cipher value)
    (clean : fieldError (decryptField cipher) (path, value) = none) :
    ∃ plaintext, storedPlaintext cipher value = some plaintext ∧
      SecretTraversal.fieldValue (decryptField cipher) path value = .str plaintext := by
  have noError := hides.fieldError path
  obtain ⟨ciphertext, marker, decrypts⟩ := hides
  cases cipher with
  | none => simp [clean] at noError
  | some c =>
    obtain ⟨plaintext, plain⟩ := Option.isSome_iff_exists.mp (decrypts c rfl)
    refine ⟨plaintext, ?_, ?_⟩
    · simp [storedPlaintext, marker, decryptWith, plain, Except.toOption]
    · simp [SecretTraversal.fieldValue, decryptField, marker, decryptWith, plain]

theorem SameSecret.plain {path : String} {left right : Json} (same : SameSecret cipher left right)
    (clean : fieldError (decryptField cipher) (path, left) = none) :
    SamePlain (fieldValue (decryptField cipher) path left) (fieldValue (decryptField cipher) path right) ∧
      (fieldValue (decryptField cipher) path left = fieldValue (decryptField cipher) path right ↔
        storedPlaintext cipher left = storedPlaintext cipher right) := by
  have clean' := (same.fieldError path).symm.trans clean
  rcases same with rfl | ⟨hides, hides'⟩
  · exact ⟨Or.inl rfl, by simp⟩
  · obtain ⟨plaintext, isStored, shown⟩ := Hides.fieldValue hides clean
    obtain ⟨plaintext', isStored', shown'⟩ := Hides.fieldValue hides' clean'
    rw [isStored, isStored', shown, shown']
    exact ⟨Or.inr ⟨plaintext, plaintext', rfl, rfl⟩, by simp⟩

variable {ap : ActivePipeline}

theorem toRender_ok {input : RenderPipeline} (rendered : toRender cipher ap = .ok input) :
    ∃ graph, ap.graph = some graph ∧
      (∀ field ∈ graphFields graph, fieldError (decryptField cipher) field = none) ∧
      input = ⟨ap.customerSlug, ap.clientID, pipelineSlug ap.pipelineName,
        replaceGraph (fieldValue (decryptField cipher)) graph⟩ := by
  unfold toRender at rendered
  cases payload : ap.graph with
  | none => simp [parseGraph, payload] at rendered
  | some graph =>
    simp only [parseGraph, payload] at rendered
    cases decrypted : decryptGraphSecrets graph cipher with
    | error msg => simp [decrypted] at rendered
    | ok plain =>
      simp only [decrypted, Except.ok.injEq] at rendered
      obtain ⟨rfl, stored⟩ := decryptGraphSecrets_ok decrypted
      refine ⟨graph, rfl, fun field mem => ?_, rendered.symm⟩
      rw [fieldError, stored field mem]

variable {ap' : ActivePipeline}

theorem toRender_twin (same : SameActive cipher ap ap') {input input' : RenderPipeline}
    (rendered : toRender cipher ap = .ok input) (rendered' : toRender cipher ap' = .ok input') :
    Twin input input' ∧ (input = input' ↔ opened cipher ap = opened cipher ap') := by
  obtain ⟨graph, payload, clean, rfl⟩ := toRender_ok rendered
  obtain ⟨graph', payload', _, rfl⟩ := toRender_ok rendered'
  have graphs := same.graph
  rw [payload, payload'] at graphs
  obtain ⟨rest, fields⟩ : SameGraph cipher graph graph' := by
    cases graphs with
    | some related => exact related
  have slugs : ap.customerSlug = ap'.customerSlug ∧ ap.clientID = ap'.clientID ∧ ap.pipelineName = ap'.pipelineName := by
    rw [← same.rest]
    exact ⟨rfl, rfl, rfl⟩
  have plainRest : replaceGraph blank (replaceGraph (fieldValue (decryptField cipher)) graph) =
      replaceGraph blank (replaceGraph (fieldValue (decryptField cipher)) graph') := by
    rw [replaceGraph_replaceGraph, replaceGraph_replaceGraph]
    exact rest
  have pairs := (List.forall₂_and_left _ _).mpr ⟨clean, fields⟩
  have plainFields : FieldsRel SamePlain (graphFields (replaceGraph (fieldValue (decryptField cipher)) graph))
      (graphFields (replaceGraph (fieldValue (decryptField cipher)) graph')) := by
    rw [graphFields_replaceGraph, graphFields_replaceGraph, FieldsRel, List.forall₂_map_left_iff,
      List.forall₂_map_right_iff]
    refine pairs.imp fun field field' related => ⟨related.2.1, ?_⟩
    rw [← related.2.1]
    exact (SameSecret.plain related.2.2 related.1).1
  refine ⟨⟨by simp [slugs], plainRest, plainFields⟩, ?_⟩
  have sameFields : graphFields (replaceGraph (fieldValue (decryptField cipher)) graph) =
      graphFields (replaceGraph (fieldValue (decryptField cipher)) graph') ↔ opened cipher ap = opened cipher ap' := by
    rw [graphFields_replaceGraph, graphFields_replaceGraph, opened, opened, payload, payload']
    refine map_eq_map_iff_of_forall₂ pairs fun field field' related => ?_
    rw [Prod.mk.injEq, Prod.mk.injEq, ← related.2.1, (SameSecret.plain related.2.2 related.1).2]
  rw [← sameFields]
  constructor
  · intro equal
    rw [(RenderPipeline.mk.inj equal).2.2.2]
  · intro equal
    have graphsEqual := graph_eq_of_rest eq_determined plainRest
      (by rw [equal]; exact List.forall₂_same.mpr fun _ _ => ⟨rfl, rfl⟩) False.elim False.elim
    rw [graphsEqual, slugs.1, slugs.2.1, slugs.2.2]

theorem toRender_agree (same : SameActive cipher ap ap') :
    Eff.Agree Twin (toRender cipher ap) (toRender cipher ap') := by
  have agree := toRender_same same
  generalize outcome : toRender cipher ap = res, outcome' : toRender cipher ap' = res' at agree
  cases agree with
  | error msg => exact .error msg
  | ok _ => exact .ok (toRender_twin same outcome outcome').1

theorem renderInputs_cons {rest : List ActivePipeline} {inputs : List RenderPipeline}
    (rendered : renderInputs cipher none (ap :: rest) = .ok inputs) :
    ∃ input others, toRender cipher ap = .ok input ∧ renderInputs cipher none rest = .ok others ∧
      inputs = input :: others := by
  simp only [renderInputs, reduceCtorEq, if_false] at rendered
  cases first : toRender cipher ap with
  | error msg => simp [first, bind, Except.bind] at rendered
  | ok input =>
    cases second : renderInputs cipher none rest with
    | error msg => simp [first, second, bind, Except.bind] at rendered
    | ok others =>
      simp only [first, second, bind, Except.bind, pure, Except.pure, Except.ok.injEq] at rendered
      exact ⟨input, others, rfl, rfl, rendered.symm⟩

/-- The inputs of the renderer are equal if and only if the stores hide the same
    plaintexts. -/
theorem renderInputs_eq_iff {left right : List ActivePipeline} (same : List.Forall₂ (SameActive cipher) left right)
    {inputs inputs' : List RenderPipeline} (rendered : renderInputs cipher none left = .ok inputs)
    (rendered' : renderInputs cipher none right = .ok inputs') :
    inputs = inputs' ↔ left.map (opened cipher) = right.map (opened cipher) := by
  induction same generalizing inputs inputs' with
  | nil =>
    cases rendered
    cases rendered'
    simp
  | @cons ap ap' rest rest' head _ ih =>
    obtain ⟨input, others, isInput, isOthers, rfl⟩ := renderInputs_cons rendered
    obtain ⟨input', others', isInput', isOthers', rfl⟩ := renderInputs_cons rendered'
    rw [List.cons.injEq, (toRender_twin head isInput isInput').2, ih isOthers isOthers', List.map_cons,
      List.map_cons, List.cons.injEq]

end

/-! ## Rendered configs -/

theorem lessPipeline_twin (a a' b b' : RenderPipeline) (twin : Twin a b) (twin' : Twin a' b') :
    lessPipeline a' a = false ↔ lessPipeline b' b = false := by
  rw [← twin.key, ← twin'.key]
  exact Iff.rfl

variable {left right : List RenderPipeline}

section

variable (twins : List.Forall₂ Twin left right)
include twins

theorem twins_eq_of_components
    (processors : (left.flatMap fun p => p.components p.graph.processors) = right.flatMap fun p => p.components p.graph.processors)
    (exporters : (left.flatMap fun p => p.components p.graph.exporters) =
      right.flatMap fun p => p.components p.graph.exporters) : left = right := by
  induction twins with
  | nil => rfl
  | @cons p p' rest rest' twin _ ih =>
    have lengths : p.graph.processors.length = p'.graph.processors.length ∧
        p.graph.exporters.length = p'.graph.exporters.length := by
      have replaced := twin.rest
      simp only [replaceGraph, Pipelines.Graph.mk.injEq] at replaced
      exact ⟨length_of_rest replaced.2.1, length_of_rest replaced.2.2⟩
    rw [List.flatMap_cons] at processors exporters
    obtain ⟨ownProcessors, otherProcessors⟩ :=
      List.append_inj processors (by simp [RenderPipeline.components, lengths])
    obtain ⟨ownExporters, otherExporters⟩ :=
      List.append_inj exporters (by simp [RenderPipeline.components, lengths])
    have graphs : p.graph = p'.graph := by
      refine graph_eq_of_rest samePlain_determined twin.rest twin.fields (fun _ => ?_) fun _ => ?_
      · rw [← map_snd_components, ← map_snd_components, ownProcessors]
      · rw [← map_snd_components, ← map_snd_components, ownExporters]
    have same : p = p' := by
      rw [← twin.key, ← graphs]
    rw [same, ih otherProcessors otherExporters]

theorem twins_eq_of_edgeConfig (same : edgeConfig left = edgeConfig right) : left = right := by
  have empty : (left = []) ↔ right = [] := by
    cases twins <;> simp
  simp only [edgeConfig, YamlNode.map.injEq, List.cons.injEq, Prod.mk.injEq, true_and, processorsSection,
    exportersSection, empty] at same
  exact twins_eq_of_components twins same.1 (List.append_cancel_left same.2.1)

theorem twins_sorted : List.Forall₂ Twin (sortPipelines left) (sortPipelines right) :=
  forall₂_insertionSort lessPipeline_twin twins

theorem renderEdgeConfig_eq_iff [PrintTable] :
    renderEdgeConfig left = renderEdgeConfig right ↔
      duplicateKey [] (sortPipelines left) = none → left = right := by
  have keys : duplicateKey [] (sortPipelines left) = duplicateKey [] (sortPipelines right) :=
    duplicateKey_same ((twins_sorted twins).imp fun _ _ twin => twin.sameKey) []
  unfold renderEdgeConfig
  dsimp only
  rw [← keys]
  cases duplicate : duplicateKey [] (sortPipelines left) with
  | some key => simp
  | none =>
    simp only [Except.ok.injEq, forall_const]
    constructor
    · intro same
      exact eq_of_insertionSort_eq lessPipeline_twin twins (twins_eq_of_edgeConfig (twins_sorted twins) same)
    · intro same
      rw [same]

end

/-! ## Responses -/

/-- The agent is an edge agent that the principal may read, the edge config of its
    customer can be rendered, and the stores hide different plaintexts in the
    active edge pipelines of this customer. -/
def Reveals (env : ServiceEnv) (principal : Option Principal) (agents : FleetTables) (agentID : Uuid)
    (world other : World) : Prop :=
  env.faults world.calls = none ∧ env.faults (world.calls + 1) = none ∧
  ∃ agent customerID, agents.getAgent agentID = .ok agent ∧
    requireCustomerAccess principal agent.customerID = .ok () ∧
    agent.agentClass = .edge ∧ agent.customerID = some customerID ∧
    (∃ inputs, renderInputs env.cipher none (world.db.listActivePipelines .edge (some customerID)) = .ok inputs ∧
      duplicateKey [] (sortPipelines inputs) = none) ∧
    (world.db.listActivePipelines .edge (some customerID)).map (opened env.cipher) ≠
      (other.db.listActivePipelines .edge (some customerID)).map (opened env.cipher)

section

variable [PrintTable] {env : ServiceEnv} {principal : Option Principal} {agents : FleetTables} {agentID : Uuid}

def edgeRendering (cipher : Option Cipher) (db : PipelineTables) (customerID : Uuid) : Except String YamlNode :=
  (renderInputs cipher none (db.listActivePipelines .edge (some customerID))).bind renderEdgeConfig

theorem run_renderEdgeCurrent (env : ServiceEnv) (customerID : Uuid) (world : World) :
    ((renderEdgeCurrent env customerID).run world).1 =
      match env.faults world.calls with
      | some msg => .error (.store (.other msg))
      | none => (edgeRendering env.cipher world.db customerID).mapError .other := by
  rw [renderEdgeCurrent, Eff.run_bind, run_activeRenderPipelines, edgeRendering]
  cases env.faults world.calls with
  | some msg => rfl
  | none =>
    cases renderInputs env.cipher none (world.db.listActivePipelines .edge (some customerID)) <;> rfl

theorem run_assignedConfig (agent : Agent) (world : World) :
    ((assignedConfig env agent).run world).1 =
      match agent.agentClass, agent.customerID with
      | .edge, some customerID =>
        match env.faults world.calls with
        | some _ => .error .internal
        | none => ((edgeRendering env.cipher world.db customerID).mapError fun _ => .internal).map some
      | _, _ => .ok none := by
  unfold assignedConfig
  cases agent.agentClass with
  | gateway => rfl
  | edge =>
    cases agent.customerID with
    | none => rfl
    | some customerID =>
      dsimp only
      rw [Eff.run_bind, run_callService, run_renderEdgeCurrent]
      cases env.faults world.calls with
      | some msg => rfl
      | none => cases edgeRendering env.cipher world.db customerID <;> rfl

theorem run_getAgentConfig (world : World) :
    ((getAgentConfig env principal agents agentID).run world).1 =
      match env.faults world.calls with
      | some _ => .error .internal
      | none =>
        match agents.getAgent agentID with
        | .error err => .error (notFoundOr "agent not found" (.store err))
        | .ok agent => (requireCustomerAccess principal agent.customerID).bind fun _ =>
            (((assignedConfig env agent).run (tick world)).1).map fun assigned =>
              ⟨assigned, agent.reportedConfigYAML.getD ""⟩ := by
  rw [getAgentConfig, Eff.run_bind, run_callService, run_query]
  cases env.faults world.calls with
  | some msg => rfl
  | none =>
    cases agents.getAgent agentID with
    | error err => rfl
    | ok agent =>
      dsimp only [Except.mapError]
      rw [Eff.run_bind, Eff.run_ofExcept]
      cases requireCustomerAccess principal agent.customerID with
      | error err => rfl
      | ok _ =>
        dsimp only [Except.bind]
        rw [Eff.run_bind]
        cases (assignedConfig env agent).run (tick world) with
        | mk res after => cases res <;> rfl

section

variable {left right : PipelineTables} (same : SameStore env.cipher left right) (customerID : Uuid)
include same customerID

theorem rendered_agree :
    Eff.Agree (fun _ _ => True) (edgeRendering env.cipher left customerID) (edgeRendering env.cipher right customerID) := by
  have agree := renderInputs_same none (listActivePipelines_same same .edge (some customerID))
  unfold edgeRendering
  generalize renderInputs env.cipher none (left.listActivePipelines .edge (some customerID)) = res,
    renderInputs env.cipher none (right.listActivePipelines .edge (some customerID)) = res' at agree
  cases agree with
  | error msg => exact .error msg
  | ok related => exact renderFullFor_same .edge related

theorem rendered_eq_iff :
    edgeRendering env.cipher left customerID = edgeRendering env.cipher right customerID ↔
      ∀ inputs, renderInputs env.cipher none (left.listActivePipelines .edge (some customerID)) = .ok inputs →
        duplicateKey [] (sortPipelines inputs) = none →
        (left.listActivePipelines .edge (some customerID)).map (opened env.cipher) =
          (right.listActivePipelines .edge (some customerID)).map (opened env.cipher) := by
  have rows := listActivePipelines_same same .edge (some customerID)
  have agree := renderInputs_agree none (rows.imp fun _ _ related => ⟨related.pipelineID, toRender_agree related⟩)
  unfold edgeRendering
  generalize outcome : renderInputs env.cipher none (left.listActivePipelines .edge (some customerID)) = res,
    outcome' : renderInputs env.cipher none (right.listActivePipelines .edge (some customerID)) = res' at agree
  cases agree with
  | error msg => simp
  | @ok inputs inputs' twins =>
    have inputsEqual := renderInputs_eq_iff rows outcome outcome'
    simp only [Except.bind, renderEdgeConfig_eq_iff twins, inputsEqual, Except.ok.injEq]
    constructor
    · rintro equal _ rfl distinct
      exact equal distinct
    · intro equal distinct
      exact equal inputs rfl distinct

theorem shown_eq_iff (reported : String) :
    ((((edgeRendering env.cipher left customerID).mapError fun _ => ApiError.internal).map some).map
        fun assigned => AgentConfigResponse.mk assigned reported) =
      (((edgeRendering env.cipher right customerID).mapError fun _ => ApiError.internal).map some).map
        (fun assigned => AgentConfigResponse.mk assigned reported) ↔
    edgeRendering env.cipher left customerID = edgeRendering env.cipher right customerID := by
  have agree := rendered_agree same customerID
  generalize edgeRendering env.cipher left customerID = res, edgeRendering env.cipher right customerID = res' at agree
  cases agree with
  | error msg => simp
  | ok => simp [Except.mapError, Except.map]

end

/-- Over stores that differ in hidden secrets only, the request is answered the
    same, unless it renders the config of a customer whose secrets differ. -/
theorem getAgentConfig_response_eq_iff {world other : World} (same : SameWorld env.cipher world other) :
    ((getAgentConfig env principal agents agentID).run world).1 =
        ((getAgentConfig env principal agents agentID).run other).1 ↔
      ¬ Reveals env principal agents agentID world other := by
  rw [run_getAgentConfig, run_getAgentConfig, ← same.calls]
  cases first : env.faults world.calls with
  | some msg => exact iff_of_true rfl fun reveals => by cases first.symm.trans reveals.1
  | none =>
    cases found : agents.getAgent agentID with
    | error err =>
      refine iff_of_true rfl ?_
      rintro ⟨_, _, _, _, isFound, _⟩
      cases found.symm.trans isFound
    | ok agent =>
      have hidden (unrendered : ¬ ∃ customerID, env.faults (world.calls + 1) = none ∧
          requireCustomerAccess principal agent.customerID = .ok () ∧ agent.agentClass = .edge ∧
            agent.customerID = some customerID) : ¬ Reveals env principal agents agentID world other := by
        rintro ⟨_, second, _, customerID, isFound, access, edge, isCustomer, _⟩
        cases found.symm.trans isFound
        exact unrendered ⟨customerID, second, access, edge, isCustomer⟩
      simp only [run_assignedConfig, tick, ← same.calls]
      cases access : requireCustomerAccess principal agent.customerID with
      | error err => exact iff_of_true rfl (hidden (by simp [access]))
      | ok _ =>
        cases edge : agent.agentClass with
        | gateway => exact iff_of_true rfl (hidden (by simp [edge]))
        | edge =>
          cases isCustomer : agent.customerID with
          | none => exact iff_of_true rfl (hidden (by simp [isCustomer]))
          | some customerID =>
            cases second : env.faults (world.calls + 1) with
            | some msg => exact iff_of_true rfl (hidden (by simp [second]))
            | none =>
              -- the config is rendered and shown
              refine ((shown_eq_iff same.db customerID _).trans (rendered_eq_iff same.db customerID)).trans ?_
              constructor
              · rintro equal ⟨_, _, _, otherID, isFound, _, _, isOther, ⟨inputs, isInputs, distinct⟩, differ⟩
                cases found.symm.trans isFound
                cases isCustomer.symm.trans isOther
                exact differ (equal inputs isInputs distinct)
              · intro notRevealed inputs isInputs distinct
                by_contra differ
                exact notRevealed ⟨first, second, agent, customerID, found, access, edge, isCustomer,
                  ⟨inputs, isInputs, distinct⟩, differ⟩

end

/-! ## The token of an edge pipeline -/

attribute [local instance] asciiPrintTable

def edgeWorld (token : String) : World :=
  { splunkWorld token with
    db := { (splunkWorld token).db with pipelines := [⟨⟨10⟩, ⟨1⟩, "main", .edge, some ⟨100⟩, 0⟩] } }

def edgeAgent : Agent where
  id := ⟨7⟩
  instanceUID := [1]
  customerID := some ⟨1⟩
  agentClass := .edge
  enrolledVia := none
  createdAt := 0

def edgeAgents : FleetTables where
  customers := (edgeWorld "").db.customers
  tokens := []
  agents := [edgeAgent]
  events := []
  tokens_id := by decide
  agents_id := by decide
  agents_uid := by decide
  agents_token := by decide

def acmeViewer : Principal where
  user := { id := ⟨3⟩, email := "viewer@acme.example", role := "viewer", createdAt := 0 }
  allCustomers := false
  allowedCustomers := [⟨1⟩]

theorem edgeWorld_same (token other : String) : SameWorld refusing.cipher (edgeWorld token) (edgeWorld other) :=
  ⟨⟨rfl, rfl, rfl, rfl, (splunkWorld_same token other).db.versions⟩, rfl⟩

theorem edgeToken_response_iff :
    SameWorld refusing.cipher (edgeWorld "a") (edgeWorld "b") ∧
    (((getAgentConfig refusing (some acmeViewer) edgeAgents ⟨7⟩).run (edgeWorld "a")).1 =
        ((getAgentConfig refusing (some acmeViewer) edgeAgents ⟨7⟩).run (edgeWorld "b")).1 ↔
      ¬ Reveals refusing (some acmeViewer) edgeAgents ⟨7⟩ (edgeWorld "a") (edgeWorld "b")) :=
  ⟨edgeWorld_same "a" "b", getAgentConfig_response_eq_iff (edgeWorld_same "a" "b")⟩

/-- The config is shown with the token in plaintext. -/
theorem edgeToken_revealed :
    SameWorld refusing.cipher (edgeWorld "a") (edgeWorld "b") ∧
    requireCustomerAccess (some acmeViewer) edgeAgent.customerID = .ok () ∧
    ((getAgentConfig refusing (some acmeViewer) edgeAgents ⟨7⟩).run (edgeWorld "a")).1 ≠
      ((getAgentConfig refusing (some acmeViewer) edgeAgents ⟨7⟩).run (edgeWorld "b")).1 := by
  refine ⟨edgeWorld_same "a" "b", rfl, fun equal => ?_⟩
  have rendered := (shown_eq_iff (edgeWorld_same "a" "b").db ⟨1⟩ "").mp equal
  rw [rendered_eq_iff (edgeWorld_same "a" "b").db ⟨1⟩] at rendered
  exact absurd (rendered _ rfl rfl) (by decide)

end OtelFleet.Verified.AgentConfig
