import OtelFleet.Verified.ComponentIds

/-! # Tenant isolation of the forwarding config

Reading the rendered document as the collector does delivers an item to the
exporters of its tenant's pipelines and to no others.
-/

namespace OtelFleet.Verified.TenantRouting

open Data Tenants Pipelines Collector Verified.ComponentIds

/-! ## Sections of the document -/

theorem instances_eq {config : YamlNode} {name : String} {entries : List Instance}
    (found : ∀ entry ∈ entries, (config.get name).content.lookup entry.1 = some entry.2) :
    instances config name (entries.map Prod.fst) = entries := by
  induction entries with
  | nil => rfl
  | cons entry entries ih =>
    obtain ⟨here, later⟩ := List.forall_mem_cons.mp found
    have rest := ih later
    unfold instances at rest ⊢
    rw [List.map_cons, List.filterMap_cons, here, rest]
    rfl

theorem getStrings_of_lookup {node : YamlNode} {key : String} {values : List String}
    (found : node.content.lookup key = some (.strings values)) : node.getStrings key = values := by
  rw [YamlNode.getStrings, YamlNode.get, found]
  exact YamlNode.filterMap_strings values

section

variable [PrintTable] (ps : List RenderPipeline)

theorem get_connectors : ((forwardingConfig ps).get "connectors").content = connectors ps := by
  unfold forwardingConfig
  split
  · next none => rw [none]; rfl
  · rfl

theorem pipelineSection_eq : pipelineSection (forwardingConfig ps) =
    signals.map (fun signal => (signal ++ "/in", entryPipeline (entrySink ps signal))) ++
      ps.flatMap (customerPipelines customerPipeline) := by
  unfold forwardingConfig
  split <;> rfl

end

/-! ## The routing table -/

theorem signalsWith_eq {ps : List RenderPipeline} (nodup : ∀ p ∈ ps, p.graph.signals.Nodup) (signal : String) :
    signalsWith ps signal = ps.filter fun p => p.graph.hasSignal signal := by
  induction ps with
  | nil => rfl
  | cons p ps ih =>
    obtain ⟨here, later⟩ := List.forall_mem_cons.mp nodup
    have rest := ih later
    rw [signalsWith] at rest ⊢
    rw [List.flatMap_cons, rest, List.filter_cons, List.filter_eq]
    by_cases carried : signal ∈ p.graph.signals
    · rw [List.count_eq_one_of_mem here carried, if_pos (by simpa [Graph.hasSignal] using carried)]
      rfl
    · rw [List.count_eq_zero_of_not_mem carried, if_neg (by simpa [Graph.hasSignal] using carried)]
      rfl

theorem lookup_addToClient (clientID id client : String) (table : List (String × List String)) :
    ((addToClient clientID id table).lookup client).getD [] =
      (table.lookup client).getD [] ++ if clientID = client then [id] else [] := by
  induction table with
  | nil =>
    rw [addToClient, lookup_cons]
    by_cases same : clientID = client
    · simp [same]
    · simp [same, Ne.symm same]
  | cons row table ih =>
    obtain ⟨owner, ids⟩ := row
    rw [addToClient]
    split
    · next isOwner =>
      rw [lookup_cons, lookup_cons, isOwner]
      by_cases same : client = clientID
      · simp [same]
      · simp [same, Ne.symm same]
    · next other =>
      rw [lookup_cons, lookup_cons]
      by_cases same : client = owner
      · have different : clientID ≠ client := fun equal => other (by rw [← same, equal])
        simp [same, same ▸ different]
      · rw [if_neg same, if_neg same, ih]

theorem lookup_byClient (signal client : String) (routed : List RenderPipeline) :
    ((byClient signal routed).lookup client).getD [] = (routed.filter fun p => p.clientID = client).map
      fun p => collectorPipelineID signal p.customerSlug p.pipelineSlug := by
  -- the loop adds to the table it has so far
  suffices general : ∀ table : List (String × List String), ((routed.foldl (fun table p =>
      addToClient p.clientID (collectorPipelineID signal p.customerSlug p.pipelineSlug) table) table).lookup
        client).getD [] = (table.lookup client).getD [] ++ (routed.filter fun p => p.clientID = client).map
      fun p => collectorPipelineID signal p.customerSlug p.pipelineSlug from general []
  induction routed with
  | nil => simp
  | cons p routed ih =>
    intro table
    rw [List.foldl_cons, ih, lookup_addToClient]
    by_cases same : p.clientID = client <;> simp [same]

section

variable [PrintTable]

theorem conditionHolds_routingCondition (tenant clientID : String) :
    conditionHolds tenant (routingCondition clientID) = decide (tenant = clientID) := by
  have text : (routingCondition clientID).toList = conditionHead.toList ++ (quote clientID).toList :=
    String.toList_append ..
  have starts : conditionHead.toList.isPrefixOf (conditionHead.toList ++ (quote clientID).toList) = true :=
    List.isPrefixOf_iff_prefix.mpr (List.prefix_append ..)
  rw [conditionHolds, text, starts, List.drop_left, String.ofList_toList, unquote_quote]
  simp [eq_comm]

theorem routes_routingConnector (tenant signal : String) (routed : List RenderPipeline) :
    routes tenant (routingConnector signal routed) = ((byClient signal routed).lookup tenant).getD [] := by
  unfold routes
  have rows : ((routingConnector signal routed).get "table").items = (byClient signal routed).map tableEntry := rfl
  rw [rows]
  generalize byClient signal routed = table
  induction table with
  | nil => rfl
  | cons row table ih =>
    obtain ⟨client, ids⟩ := row
    have condition : (((tableEntry (client, ids)).get "condition").text?.any (conditionHolds tenant)) =
        decide (tenant = client) := by
      have text : (tableEntry (client, ids)).get "condition" = .str (routingCondition client) := rfl
      rw [text, YamlNode.str, YamlNode.text?, Option.any_some, conditionHolds_routingCondition]
    rw [List.map_cons, List.find?_cons, condition, lookup_cons]
    by_cases same : tenant = client
    · rw [if_pos same, decide_eq_true same]
      exact getStrings_of_lookup rfl
    · rw [if_neg same, decide_eq_false same]
      exact ih

end

/-! ## Runs of the collector -/

theorem slash_notMem_signal : ∀ signal ∈ signals, '/' ∉ signal.toList := by decide

def sharedProcessors : List Instance :=
  [("memory_limiter", toNode memoryLimiterConfig), ("batch", toNode batchConfig)]

def instanceOf (p : RenderPipeline) (i : Nat) (node : Node) : Instance :=
  (componentID node i p.customerSlug p.pipelineSlug, toNode node.configValue)

/-- What the exporters of the graph get: an item that has passed its processors in order. -/
def deliveriesOf (p : RenderPipeline) : List Delivery :=
  p.graph.exporters.mapIdx fun i exporter =>
    ⟨sharedProcessors ++ p.graph.processors.mapIdx (instanceOf p), instanceOf p i exporter⟩

theorem deliveriesOf_eq (p : RenderPipeline) : deliveriesOf p =
    (p.components p.graph.exporters).map (Delivery.mk (sharedProcessors ++ p.components p.graph.processors)) := by
  simp only [deliveriesOf, RenderPipeline.components, List.mapIdx_eq_zipIdx_map, List.map_map]
  rfl

theorem idType_of_slash {type : String} (isType : '/' ∉ type.toList) {id : String} {rest : List Char}
    (text : id.toList = type.toList ++ '/' :: rest) : idType id = type := by
  have noSlash : ∀ c ∈ type.toList, decide (c ≠ '/') = true := by
    intro c mem
    exact decide_eq_true fun isSlash => isType (isSlash ▸ mem)
  rw [idType, text, List.takeWhile_append_of_pos noSlash]
  simp

variable (signal : String)

theorem toList_routingConnectorID :
    (routingConnectorID signal).toList = "routing".toList ++ '/' :: ("tenants_".toList ++ signal.toList) := by
  have head : "routing/tenants_".toList = "routing".toList ++ '/' :: "tenants_".toList := by decide
  calc (routingConnectorID signal).toList = "routing/tenants_".toList ++ signal.toList := String.toList_append ..
    _ = _ := by rw [head, List.append_assoc, List.cons_append]

theorem entry_ne_customer {signal signal' : String} (known : signal ∈ signals) (known' : signal' ∈ signals)
    (customerSlug pipelineSlug : String) :
    signal ++ "/in" ≠ collectorPipelineID signal' customerSlug pipelineSlug := by
  intro same
  have texts := congrArg String.toList same
  rw [toList_collectorPipelineID, String.toList_append] at texts
  have names := (@append_cons_inj '/' _ ['i', 'n'] _ _ (slash_notMem_signal signal known)
    (slash_notMem_signal signal' known') texts).2
  have separator : '_' ∈ ['i', 'n'] := by
    rw [names]
    simp
  exact absurd separator (by decide)

theorem getStrings_customerPipeline (p : RenderPipeline) :
    (customerPipeline signal p).getStrings "receivers" = [routingConnectorID signal] ∧
      (customerPipeline signal p).getStrings "processors" = p.componentIDs p.graph.processors ∧
      (customerPipeline signal p).getStrings "exporters" = p.componentIDs p.graph.exporters := by
  unfold customerPipeline
  split
  · next none =>
    rw [none]
    exact ⟨rfl, rfl, getStrings_of_lookup rfl⟩
  · exact ⟨rfl, getStrings_of_lookup rfl, getStrings_of_lookup rfl⟩

theorem consumes_entry {signal' : String} (known' : signal' ∈ signals) (sink : String) :
    consumes signal "otlp" (signal' ++ "/in", entryPipeline sink) = decide (signal' = signal) := by
  have type : idType (signal' ++ "/in") = signal' :=
    idType_of_slash (slash_notMem_signal signal' known') (String.toList_append ..)
  have receivers : (entryPipeline sink).getStrings "receivers" = ["otlp"] := getStrings_of_lookup rfl
  simp [consumes, type, receivers]

section

variable [PrintTable] {ps : List RenderPipeline}

theorem lookup_connectors {signal : String} (known : signal ∈ signals) (carried : signalsWith ps signal ≠ []) :
    (connectors ps).lookup (routingConnectorID signal) =
      some (routingConnector signal (signalsWith ps signal)) := by
  refine lookup_of_unique (List.mem_filterMap.mpr ⟨signal, known, if_neg carried⟩) fun other mem same => ?_
  obtain ⟨signal', _, isOther⟩ := List.mem_filterMap.mp mem
  split at isOther
  · cases isOther
  · cases isOther
    rw [(String.append_right_inj _).mp same]

theorem mem_connectors {id : String} {connector : YamlNode} (mem : (id, connector) ∈ connectors ps) :
    ∃ signal ∈ signals, id = routingConnectorID signal := by
  obtain ⟨signal, known, isConnector⟩ := List.mem_filterMap.mp mem
  split at isConnector
  · cases isConnector
  · cases isConnector
    exact ⟨signal, known, rfl⟩

theorem lookup_connectors_debug : (connectors ps).lookup "debug" = none := by
  refine lookup_eq_none_iff.mpr fun field mem isDebug => ?_
  obtain ⟨signal, known, isID⟩ := mem_connectors mem
  have impossible : ∀ signal ∈ signals, "debug" ≠ routingConnectorID signal := by decide
  exact impossible signal known (isDebug.symm.trans isID)

omit [PrintTable] in
theorem componentID_ne_routingConnectorID {kind : Kind} {node : Node} {component : Component}
    (found : Catalog.lookup kind node.type = some component) (idx : Nat) (customerSlug pipelineSlug signal : String) :
    componentID node idx customerSlug pipelineSlug ≠ routingConnectorID signal := by
  intro same
  obtain ⟨known, sameType⟩ := Catalog.lookup_type found
  have texts := congrArg String.toList same
  rw [toList_componentID, toList_routingConnectorID, ← sameType] at texts
  have type := (append_cons_inj (Catalog.slash_notMem_type component known) (by decide) texts).1
  have unknown : ∀ component ∈ Catalog.all, component.type.toList ≠ "routing".toList := by decide
  exact unknown component known type

variable {entry : String × YamlNode}

theorem lookup_connectors_exporter {p : RenderPipeline} (wellFormed : WellFormed p)
    (component : entry ∈ p.components p.graph.exporters) : (connectors ps).lookup entry.1 = none := by
  refine lookup_eq_none_iff.mpr fun field mem same => ?_
  obtain ⟨signal, _, isID⟩ := mem_connectors mem
  obtain ⟨i, inRange, rfl⟩ := List.mem_mapIdx.mp component
  obtain ⟨_, found⟩ := wellFormed.exporters.known _ (List.getElem_mem inRange)
  exact componentID_ne_routingConnectorID found i _ _ signal (same.symm.trans isID)

section

variable (wellFormed : ∀ p ∈ ps, WellFormed p) (distinct : (ps.map RenderPipeline.key).Nodup)
variable {p : RenderPipeline} (mem : p ∈ ps) {signal : String}

include wellFormed distinct mem

theorem lookup_customerPipeline (known : signal ∈ signals) (carried : p.graph.hasSignal signal) :
    (pipelineSection (forwardingConfig ps)).lookup (collectorPipelineID signal p.customerSlug p.pipelineSlug) =
      some (customerPipeline signal p) := by
  rw [pipelineSection_eq]
  refine lookup_of_unique (List.mem_append_right _ (List.mem_flatMap.mpr ⟨p, mem, List.mem_map.mpr
    ⟨signal, List.mem_filter.mpr ⟨known, carried⟩, rfl⟩⟩)) fun field isField same => ?_
  rcases List.mem_append.mp isField with entry | customers
  · obtain ⟨signal', known', rfl⟩ := List.mem_map.mp entry
    exact absurd same (entry_ne_customer known' known _ _)
  · obtain ⟨q, other, isCustomer⟩ := List.mem_flatMap.mp customers
    obtain ⟨signal', isSignal, rfl⟩ := List.mem_map.mp isCustomer
    obtain ⟨sameSignal, slugs⟩ := collectorPipelineID_inj (wellFormed q other).customer (wellFormed p mem).customer
      (slash_notMem_signal signal' (List.mem_filter.mp isSignal).1) (slash_notMem_signal signal known) same
    rw [sameSignal, eq_of_slugs distinct other mem slugs]

theorem instances_processors :
    instances (forwardingConfig ps) "processors" (p.componentIDs p.graph.processors) =
      p.components p.graph.processors := by
  rw [componentIDs_eq]
  refine instances_eq fun entry component => ?_
  exact lookup_processorsSection wellFormed distinct mem component

theorem instances_exporter (component : entry ∈ p.components p.graph.exporters) :
    instances (forwardingConfig ps) "exporters" [entry.1] = [entry] := by
  refine @instances_eq _ _ [entry] (List.forall_mem_singleton.mpr ?_)
  rw [get_exporters]
  exact lookup_exportersSection wellFormed distinct _ mem component

theorem runPipeline_customer (known : signal ∈ signals) (carried : p.graph.hasSignal signal) (tenant : String)
    (fuel : Nat) (passed : List Instance) :
    runPipeline (forwardingConfig ps) signal tenant (fuel + 1) passed
        (collectorPipelineID signal p.customerSlug p.pipelineSlug) =
      (p.components p.graph.exporters).map (Delivery.mk (passed ++ p.components p.graph.processors)) := by
  obtain ⟨_, processors, exporters⟩ := getStrings_customerPipeline signal p
  rw [runPipeline, lookup_customerPipeline wellFormed distinct mem known carried]
  dsimp only
  rw [processors, exporters, instances_processors wellFormed distinct mem, componentIDs_eq, List.flatMap_map,
    List.map_eq_flatMap]
  refine List.flatMap_congr fun entry component => ?_
  rw [get_connectors, lookup_connectors_exporter (wellFormed p mem) component]
  rw [instances_exporter wellFormed distinct mem component]
  rfl

end

/-! The entry pipelines. -/

section

variable {signal : String} (known : signal ∈ signals)

include known

theorem filter_pipelineSection : (pipelineSection (forwardingConfig ps)).filter (consumes signal "otlp") =
    [(signal ++ "/in", entryPipeline (entrySink ps signal))] := by
  have customers : (ps.flatMap (customerPipelines customerPipeline)).filter (consumes signal "otlp") = [] := by
    refine List.filter_eq_nil_iff.mpr fun pipeline isPipeline consumed => ?_
    obtain ⟨p, _, isCustomer⟩ := List.mem_flatMap.mp isPipeline
    obtain ⟨signal', known', rfl⟩ := List.mem_map.mp isCustomer
    have notOtlp : ∀ signal' ∈ signals, "otlp" ≠ routingConnectorID signal' := by decide
    rw [consumes, (getStrings_customerPipeline signal' p).1] at consumed
    simp only [Bool.and_eq_true, List.contains_eq_mem, List.mem_singleton, decide_eq_true_eq] at consumed
    exact notOtlp signal' (List.mem_filter.mp known').1 consumed.2
  have entries : signals.filter (fun signal' => consumes signal "otlp"
      (signal' ++ "/in", entryPipeline (entrySink ps signal'))) = signals.filter (· = signal) :=
    List.filter_congr fun signal' known' => consumes_entry signal known' _
  rw [pipelineSection_eq, List.filter_append, customers, List.filter_map, List.append_nil]
  show List.map _ (signals.filter fun signal' => consumes signal "otlp" _) = _
  rw [entries, List.filter_eq, List.count_eq_one_of_mem (by decide) known]
  rfl

theorem lookup_entry : (pipelineSection (forwardingConfig ps)).lookup (signal ++ "/in") =
    some (entryPipeline (entrySink ps signal)) := by
  rw [pipelineSection_eq]
  refine lookup_of_unique (List.mem_append_left _ (List.mem_map.mpr ⟨signal, known, rfl⟩)) fun field isField same => ?_
  rcases List.mem_append.mp isField with entry | customers
  · obtain ⟨signal', _, rfl⟩ := List.mem_map.mp entry
    rw [String.append_left_inj _ |>.mp same]
  · obtain ⟨p, _, isCustomer⟩ := List.mem_flatMap.mp customers
    obtain ⟨signal', isSignal, rfl⟩ := List.mem_map.mp isCustomer
    exact absurd same.symm (entry_ne_customer known (List.mem_filter.mp isSignal).1 _ _)

theorem runPipeline_entry (tenant : String) (fuel : Nat) :
    deliveries (forwardingConfig ps) (fuel + 1) signal tenant =
      match (connectors ps).lookup (entrySink ps signal) with
      | some connector =>
        ((routes tenant connector).filter fun target => ((pipelineSection (forwardingConfig ps)).lookup target).any
            fun next => consumes signal (entrySink ps signal) (target, next)).flatMap
          (runPipeline (forwardingConfig ps) signal tenant fuel sharedProcessors)
      | none => (instances (forwardingConfig ps) "exporters" [entrySink ps signal]).map
          (Delivery.mk sharedProcessors) := by
  have sink : (entryPipeline (entrySink ps signal)).getStrings "exporters" = [entrySink ps signal] :=
    getStrings_of_lookup rfl
  rw [deliveries, filter_pipelineSection known, List.flatMap_singleton, runPipeline, lookup_entry known]
  dsimp only
  rw [sink, List.flatMap_singleton, get_connectors]
  rfl

theorem deliveries_unrouted (tenant : String) (fuel : Nat) (unrouted : signalsWith ps signal = []) :
    deliveries (forwardingConfig ps) (fuel + 2) signal tenant = [⟨sharedProcessors, ("debug", toNode (.obj []))⟩] := by
  have sink : entrySink ps signal = "debug" := if_pos unrouted
  have needDebug : (signals.any fun signal => signalsWith ps signal = []) = true :=
    List.any_eq_true.mpr ⟨signal, known, decide_eq_true unrouted⟩
  have debug : instances (forwardingConfig ps) "exporters" ["debug"] = [("debug", toNode (.obj []))] := by
    rw [instances, get_exporters, needDebug]
    rfl
  rw [runPipeline_entry known, sink, lookup_connectors_debug]
  rw [debug]
  rfl

end

/-- The pipeline gets the items of this signal and tenant. -/
def Serves (signal tenant : String) (p : RenderPipeline) : Prop :=
  p.clientID = tenant ∧ p.graph.hasSignal signal

instance (signal tenant : String) (p : RenderPipeline) : Decidable (Serves signal tenant p) :=
  inferInstanceAs (Decidable (_ ∧ _))

theorem deliveries_routed (wellFormed : ∀ p ∈ ps, WellFormed p) (distinct : (ps.map RenderPipeline.key).Nodup)
    {signal : String} (known : signal ∈ signals) (routed : signalsWith ps signal ≠ []) (tenant : String) (fuel : Nat) :
    deliveries (forwardingConfig ps) (fuel + 2) signal tenant =
      (ps.filter (Serves signal tenant)).flatMap deliveriesOf := by
  have sink : entrySink ps signal = routingConnectorID signal := if_neg routed
  have carried := signalsWith_eq (fun p mem => (wellFormed p mem).signals) signal
  rw [runPipeline_entry known, sink, lookup_connectors known routed]
  dsimp only
  have row : ps.filter (fun p => decide (p.clientID = tenant) && p.graph.hasSignal signal) = ps.filter (Serves signal tenant) := by
    refine List.filter_congr fun p _ => ?_
    rw [Bool.eq_iff_iff, Bool.and_eq_true, decide_eq_true_iff, decide_eq_true_iff]
    rfl
  rw [routes_routingConnector, lookup_byClient, carried, List.filter_filter, row]
  -- every pipeline of the row takes items from the connector
  have consumed : ∀ p ∈ ps.filter (Serves signal tenant),
      (((pipelineSection (forwardingConfig ps)).lookup
        (collectorPipelineID signal p.customerSlug p.pipelineSlug)).any fun next =>
          consumes signal (routingConnectorID signal)
            (collectorPipelineID signal p.customerSlug p.pipelineSlug, next)) = true := by
    intro p isTenant
    obtain ⟨mem, serves⟩ := List.mem_filter.mp isTenant
    have type := idType_of_slash (slash_notMem_signal signal known)
      (toList_collectorPipelineID signal p.customerSlug p.pipelineSlug)
    rw [lookup_customerPipeline wellFormed distinct mem known (of_decide_eq_true serves).2]
    simp [consumes, type, (getStrings_customerPipeline signal p).1]
  rw [List.filter_eq_self.mpr (List.forall_mem_map.mpr consumed), List.flatMap_map]
  refine List.flatMap_congr fun p isTenant => ?_
  obtain ⟨mem, serves⟩ := List.mem_filter.mp isTenant
  rw [deliveriesOf_eq]
  exact runPipeline_customer wellFormed distinct mem known (of_decide_eq_true serves).2 tenant fuel _

end

/-! ## Isolation -/

/-- An item is delivered to the exporters of its tenant's pipelines for its signal,
    each once and behind the processors of the pipeline, and to no other pipeline's
    exporter; an item of a signal without pipelines goes to `debug`. -/
theorem item_delivered_exactly [PrintTable] {schemas : SchemaValidator} {pipelines : List RenderPipeline}
    {config : YamlNode}
    (valid : ∀ p ∈ pipelines,
      validateStructural schemas p.graph = [] ∧ validSlug p.customerSlug ∧ validSlug p.pipelineSlug)
    (rendered : renderForwardingConfig pipelines = .ok config) {signal : String} (known : signal ∈ signals)
    (tenant : String) (fuel : Nat) :
    ((∃ p ∈ pipelines, p.graph.hasSignal signal) →
      (deliveries config (fuel + 2) signal tenant).Perm
        ((pipelines.filter (Serves signal tenant)).flatMap deliveriesOf)) ∧
    ((∀ p ∈ pipelines, ¬ p.graph.hasSignal signal) →
      deliveries config (fuel + 2) signal tenant = [⟨sharedProcessors, ("debug", toNode (.obj []))⟩]) ∧
    ∀ p ∈ pipelines, ¬ Serves signal tenant p → ∀ delivery ∈ deliveries config (fuel + 2) signal tenant,
      delivery.exporter.1 ∉ p.componentIDs p.graph.exporters := by
  obtain ⟨rfl, distinct⟩ := @renderFullFor_ok _ _ .forwarding _ rendered
  have sorted : (sortPipelines pipelines).Perm pipelines := List.perm_insertionSort _ pipelines
  have wellFormed : ∀ p ∈ sortPipelines pipelines, WellFormed p := by
    intro p mem
    obtain ⟨clean, customer, pipeline⟩ := valid p (sorted.mem_iff.mp mem)
    exact wellFormed_of_valid clean customer pipeline
  have carried := signalsWith_eq (fun p mem => (wellFormed p mem).signals) signal
  have routedIff : signalsWith (sortPipelines pipelines) signal = [] ↔ ∀ p ∈ pipelines, ¬ p.graph.hasSignal signal := by
    rw [carried, List.filter_eq_nil_iff]
    exact forall_congr' fun p => imp_congr_left sorted.mem_iff
  have routed := @deliveries_routed _ _ wellFormed distinct _ known
  refine ⟨fun isCarried => ?_, fun notCarried => deliveries_unrouted known tenant fuel (routedIff.mpr notCarried),
    fun p mem foreign delivery delivered isOwn => ?_⟩
  · obtain ⟨p, mem, carries⟩ := isCarried
    rw [routed fun unrouted => routedIff.mp unrouted p mem carries]
    exact (sorted.filter _).flatMap_right _
  · rw [componentIDs_eq] at isOwn
    obtain ⟨entry, component, same⟩ := List.mem_map.mp isOwn
    by_cases unrouted : signalsWith (sortPipelines pipelines) signal = []
    · rw [deliveries_unrouted known tenant fuel unrouted] at delivered
      cases List.mem_singleton.mp delivered
      exact absurd (same ▸ slash_mem_of_component component) (by decide)
    · rw [routed unrouted] at delivered
      obtain ⟨q, isServing, isDelivery⟩ := List.mem_flatMap.mp delivered
      obtain ⟨other, serves⟩ := List.mem_filter.mp isServing
      rw [deliveriesOf_eq] at isDelivery
      obtain ⟨exporter, isExporter, rfl⟩ := List.mem_map.mp isDelivery
      -- the ID belongs to one pipeline only
      cases (@components_inj _ wellFormed distinct .exporter p q (sorted.mem_iff.mpr mem) other entry exporter
        component isExporter same).1
      exact foreign (of_decide_eq_true serves)

/-! Two customers with a pipeline each for logs. -/

attribute [local instance] asciiPrintTable

def acmeLogs : RenderPipeline := ⟨"acme", "cust_acme", "main", ⟨["logs"], [⟨"batch", none, none⟩], [⟨"debug", none, none⟩]⟩⟩

def globexLogs : RenderPipeline := ⟨"globex", "cust_globex", "main", ⟨["logs"], [], [⟨"debug", none, none⟩]⟩⟩

theorem acmeLogs_delivered :
    (∀ p ∈ [globexLogs, acmeLogs],
      validateStructural (fun _ _ => none) p.graph = [] ∧ validSlug p.customerSlug ∧ validSlug p.pipelineSlug) ∧
    ∃ config, renderForwardingConfig [globexLogs, acmeLogs] = .ok config ∧
      (deliveries config 2 "logs" "cust_acme").Perm (deliveriesOf acmeLogs) := by
  have valid : ∀ p ∈ [globexLogs, acmeLogs],
      validateStructural (fun _ _ => none) p.graph = [] ∧ validSlug p.customerSlug ∧ validSlug p.pipelineSlug := by
    decide
  refine ⟨valid, _, rfl, ?_⟩
  exact (item_delivered_exactly valid rfl (by decide) "cust_acme" 0).1 ⟨acmeLogs, by decide, by decide⟩

end OtelFleet.Verified.TenantRouting
