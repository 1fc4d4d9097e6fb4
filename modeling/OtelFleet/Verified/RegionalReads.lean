import OtelFleet.Stats.CustomerReads

/-! # Reads in the customer's region

Which store each query on behalf of a customer goes to.  All calls but two go to the region
of the customer in every configuration: the stage statistics of a pipeline go to the default
region, and a metric query goes there if the region of the customer has no VictoriaMetrics.
-/

namespace OtelFleet.Verified.RegionalReads

open Data Store Stats

section

variable (reg : Registry) (customer : CustomerRow)

/-- The region of the customer; an empty or unknown name stands for the default region. -/
def home : Region := reg.regionFor customer.region

def AtHome : TelemetryStore → Prop
  | .clickHouse addr database => addr = (home reg customer).clickHouseAddr ∧
      database = (home reg customer).clickHouseDatabase
  | .victoriaMetrics url => url = (home reg customer).victoriaMetricsURL

instance (store : TelemetryStore) : Decidable (AtHome reg customer store) :=
  match store with
  | .clickHouse _ _ => inferInstanceAs (Decidable (_ ∧ _))
  | .victoriaMetrics _ => inferInstanceAs (Decidable (_ = _))

/-- When all queries of a call go to the customer's region: a metric query needs a
    VictoriaMetrics there, unless there is none at all; the stage statistics need the
    stores of the default region to be those of the customer's region, as far as
    they are asked. -/
def RoutedHome : TelemetryCall → Prop
  | .metrics _ _ _ _ => (home reg customer).victoriaMetricsURL = "" → reg.vm customer.region = ""
  | .stages _ signals start stop => start < stop → ∀ names ∈ signals,
      (names ≠ [] → AtHome reg customer (reg.clickHouseStore "")) ∧
      (1000000000 ≤ stop - start → reg.vm "" ≠ "" → AtHome reg customer (.victoriaMetrics (reg.vm "")))
  | _ => True

theorem metrics_atHome_iff {V : Type} [PrintTable] (answers : TelemetryAnswers V) (query : String) (start stop step : Int) :
    (∀ asked ∈ (queryRangeScoped reg answers customer.clientID customer.region query start stop step).1,
        AtHome reg customer asked.store) ↔
      ((home reg customer).victoriaMetricsURL = "" → reg.vm customer.region = "") := by
  have isVM : reg.vm customer.region = if (home reg customer).victoriaMetricsURL ≠ "" then
      (home reg customer).victoriaMetricsURL
    else (reg.regionFor reg.config.defaultRegion).victoriaMetricsURL := rfl
  rw [queryRangeScoped, queryRange]
  by_cases any : reg.vm customer.region = ""
  · simp [any]
  · rw [if_neg any]
    simp only [List.forall_mem_singleton, AtHome, any, imp_false]
    by_cases own : (home reg customer).victoriaMetricsURL = ""
    · simp [own, any]
    · rw [if_pos own] at isVM
      simp [isVM, own]

variable {V : Type} [Zero V] (answers : TelemetryAnswers V) {asked : TelemetryQuery} {time : Int}

omit [Zero V] in
theorem mem_vmSumBy {query : String} :
    asked ∈ (vmSumBy reg answers query time).1 ↔
      reg.vm "" ≠ "" ∧ asked = ⟨.victoriaMetrics (reg.vm ""), .query query (time / 1000000000)⟩ := by
  unfold vmSumBy
  split
  · next none => simp [none]
  · next url => simp [url]

theorem mem_exporterStages {counters : List (String × (ExporterStage V → V → ExporterStage V))}
    {exporters : List (String × ExporterStage V)} :
    asked ∈ (exporterStages reg answers time exporters counters).1 ↔ reg.vm "" ≠ "" ∧
      ∃ counter ∈ counters, asked = ⟨.victoriaMetrics (reg.vm ""), .query counter.1 (time / 1000000000)⟩ := by
  induction counters generalizing exporters with
  | nil => simp [exporterStages]
  | cons counter counters ih =>
    have queries : (exporterStages reg answers time exporters (counter :: counters)).1 =
        (vmSumBy reg answers counter.1 time).1 ++ (exporterStages reg answers time
          (enterValues counter.2 (vmSumBy reg answers counter.1 time).2 exporters) counters).1 := rfl
    rw [queries, List.mem_append, mem_vmSumBy, ih, ← and_or_left]
    simp only [List.mem_cons, exists_eq_or_imp]

theorem seconds_nonpos_iff (duration : Int) : duration.tdiv 1000000000 ≤ 0 ↔ ¬ 1000000000 ≤ duration := by
  rcases Int.le_total 0 duration with nonneg | negative
  · rw [Int.tdiv_eq_ediv_of_nonneg nonneg]
    omega
  · have mirrored : 0 ≤ (-duration).tdiv 1000000000 := Int.tdiv_nonneg (by omega) (by decide)
    rw [Int.neg_tdiv] at mirrored
    omega

variable [PrintTable] (round : V → Int) {query : PipelineStageQuery}

theorem mem_getPipelineStages (mem : asked ∈ (getPipelineStages reg answers round query).1) :
    (query.signals ≠ [] ∧ asked.store = reg.clickHouseStore "") ∨ (1000000000 ≤ query.stop - query.start ∧
      reg.vm "" ≠ "" ∧ asked.store = .victoriaMetrics (reg.vm "")) := by
  have counts : ∀ asked ∈ (receivedCounts reg answers query).1,
      query.signals ≠ [] ∧ asked.store = reg.clickHouseStore "" := by
    unfold receivedCounts
    split
    · simp
    · next signals => simp [signals]
  unfold getPipelineStages at mem
  split at mem
  · next received =>
    rw [received] at counts
    exact Or.inl (counts asked mem)
  · next received =>
    rw [received] at counts
    dsimp only at mem
    split at mem
    · exact Or.inl (counts asked mem)
    · next long =>
      cases List.mem_append.mp mem with
      | inl first => exact Or.inl (counts asked first)
      | inr later =>
        obtain ⟨url, _, _, rfl⟩ := (mem_exporterStages reg answers).mp later
        exact Or.inr ⟨not_not.mp (mt (seconds_nonpos_iff _).mpr long), url, rfl⟩

def noRows : TelemetryAnswers V
  | ⟨_, .select _ _⟩ => .ok []
  | ⟨_, .delete _ _⟩ => none
  | ⟨_, .queryRange ..⟩ => .unreachable
  | ⟨_, .query ..⟩ => none

theorem counts_mem_getPipelineStages (query : PipelineStageQuery) (signals : query.signals ≠ []) :
    ∃ asked ∈ (getPipelineStages reg (noRows : TelemetryAnswers V) round query).1,
      asked.store = reg.clickHouseStore "" := by
  have counts : ∃ asked, receivedCounts reg (noRows : TelemetryAnswers V) query = ([asked], .ok []) ∧
      asked.store = reg.clickHouseStore "" := by
    rw [receivedCounts, if_neg signals]
    exact ⟨_, rfl, rfl⟩
  obtain ⟨asked, received, isStore⟩ := counts
  refine ⟨asked, ?_, isStore⟩
  unfold getPipelineStages
  rw [received]
  dsimp only
  split <;> simp

theorem exporters_mem_getPipelineStages (query : PipelineStageQuery) (long : 1000000000 ≤ query.stop - query.start)
    (url : reg.vm "" ≠ "") : ∃ asked ∈ (getPipelineStages reg (noRows : TelemetryAnswers V) round query).1,
      asked.store = .victoriaMetrics (reg.vm "") := by
  have counts : ∃ queries, receivedCounts reg (noRows : TelemetryAnswers V) query = (queries, .ok []) := by
    unfold receivedCounts
    split <;> exact ⟨_, rfl⟩
  obtain ⟨queries, received⟩ := counts
  unfold getPipelineStages
  rw [received]
  dsimp only
  rw [if_neg fun short => (seconds_nonpos_iff _).mp short long]
  exact ⟨_, List.mem_append.mpr (Or.inr ((mem_exporterStages reg noRows).mpr
    ⟨url, _, List.mem_cons_self, rfl⟩)), rfl⟩

theorem stages_atHome_iff (name : String) (signals : Option (List String)) (start stop : Int) :
    (∀ answers : TelemetryAnswers V, ∀ asked ∈ (pipelineStageStats reg answers round customer name signals start stop).1,
        AtHome reg customer asked.store) ↔ RoutedHome reg customer (.stages name signals start stop) := by
  unfold pipelineStageStats RoutedHome
  by_cases ordered : start < stop
  · simp only [ordered, forall_const]
    cases signals with
    | none => simp
    | some names =>
      simp only [Option.mem_some_iff, forall_eq']
      constructor
      · intro atHome
        let query : PipelineStageQuery :=
          ⟨customer.clientID, names, Pipelines.exporterLabelRegex customer.slug (Pipelines.pipelineSlug name), start, stop⟩
        refine ⟨fun someSignal => ?_, fun long url => ?_⟩
        · obtain ⟨asked, mem, isStore⟩ := counts_mem_getPipelineStages reg round query someSignal
          rw [← isStore]
          exact atHome noRows asked mem
        · obtain ⟨asked, mem, isStore⟩ := exporters_mem_getPipelineStages reg round query long url
          rw [← isStore]
          exact atHome noRows asked mem
      · rintro ⟨clickHouse, victoriaMetrics⟩ answers asked mem
        rcases mem_getPipelineStages reg answers round mem with ⟨someSignal, isStore⟩ | ⟨long, url, isStore⟩
        · rw [isStore]
          exact clickHouse someSignal
        · rw [isStore]
          exact victoriaMetrics long url
  · simp [ordered]

omit [Zero V] [PrintTable] in
theorem execAll_atHome {answers : TelemetryAnswers V} {ch : TelemetryStore} (atHome : AtHome reg customer ch) {tenant : String}
    {statements : List (String × List Condition)} :
    ∀ asked ∈ (execAll answers ch tenant statements).1, AtHome reg customer asked.store := by
  intro asked mem
  simp only [execAll, List.map_map, List.mem_map] at mem
  obtain ⟨_, _, rfl⟩ := mem
  exact atHome

/-- Exactly under this condition all queries of a call go to the stores of the
    customer's region. -/
theorem reads_atHome_iff (call : TelemetryCall) :
    (∀ answers : TelemetryAnswers V, ∀ asked ∈ issued reg round answers customer call, AtHome reg customer asked.store) ↔
      RoutedHome reg customer call := by
  have own : AtHome reg customer (reg.clickHouseStore customer.region) := ⟨rfl, rfl⟩
  cases call with
  | logs => simp [issued, respond, queryLogs, RoutedHome, own]
  | traces =>
    refine iff_of_true (fun answers asked mem => ?_) trivial
    simp only [issued, respond, queryTraces] at mem
    split at mem <;> simp at mem
    · exact mem ▸ own
    · exact mem ▸ own
    · rcases mem with rfl | rfl <;> exact own
  | trace => simp [issued, respond, getTrace, RoutedHome, own]
  | throughput => simp [issued, respond, getThroughput, RoutedHome, own]
  | metrics query start stop step =>
    have routed := fun answers : TelemetryAnswers V => metrics_atHome_iff reg customer answers query start stop step
    exact ⟨fun atHome => (routed noRows).mp (atHome noRows), fun atHome answers => (routed answers).mpr atHome⟩
  | stages name signals start stop => exact stages_atHome_iff reg customer round name signals start stop
  | purge => exact iff_of_true (fun answers => execAll_atHome reg customer own) trivial
  | retention =>
    refine iff_of_true (fun answers => ?_) trivial
    simp only [issued, respond]
    split
    · exact execAll_atHome reg customer own
    · simp

end

def twoRegions : Registry where
  config := ⟨[⟨"eu", "eu-ch:9000", "otel", "http://eu-vm:8428"⟩, ⟨"us", "us-ch:9000", "otel", "http://us-vm:8428"⟩], "eu"⟩
  distinct := by decide
  hasDefault := by decide

def usCustomer : CustomerRow := { id := ⟨1⟩, slug := "acme", name := "Acme", clientID := "c1", status := .active, region := "us" }

/-- The stage statistics of a pipeline in `us` are read from the stores of `eu`. -/
theorem us_stages_read_in_eu :
    ¬ ∀ answers : TelemetryAnswers Int, ∀ asked ∈ @issued Int asciiPrintTable _ twoRegions id answers usCustomer
        (.stages "backup" (some ["logs"]) 0 60000000000), AtHome twoRegions usCustomer asked.store := by
  intro atHome
  have asked := atHome noRows ⟨.clickHouse "eu-ch:9000" "otel", .select .received [.equals "TenantId" "c1", .atLeast "Minute" 0,
    .below "Minute" 60000000000, .oneOf "Signal" ["logs"]]⟩ (by decide +kernel)
  exact absurd asked (by decide +kernel)

end OtelFleet.Verified.RegionalReads
