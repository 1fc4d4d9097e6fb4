import OtelFleet.Data.CaseMap
import OtelFleet.Data.Quote
import OtelFleet.Data.Rows
import Mathlib.Data.List.Sort

/-! # Regions and their stores

The regions of the configuration, and the registry that resolves a region to its
telemetry stores.
-/

namespace OtelFleet.Stats

open Data

/-- A named data plane.  The display name is left out. -/
structure Region where
  name : String
  clickHouseAddr : String := ""
  clickHouseDatabase : String := ""
  victoriaMetricsURL : String := ""

structure RegionSettings where
  /-- `OTEL_FLEET_REGIONS`, decoded; `none` when it is not set. -/
  regions : Option (Except String (List Region)) := none
  /-- `OTEL_FLEET_DEFAULT_REGION`. -/
  defaultRegion : String := ""
  clickHouseAddr : String := ""
  clickHouseDatabase : String := ""
  victoriaMetricsURL : String := ""

structure RegionConfig where
  regions : List Region
  defaultRegion : String

def RegionConfig.hasRegion (config : RegionConfig) (name : String) : Bool := config.regions.any fun region => region.name = name

section

variable [PrintTable] (text : CaseMap)

/-- The loop over the regions: `i` is the index and `seen` are the names before it. -/
def checkNames (i : Nat) (seen : List String) : List Region → Except String Unit
  | [] => .ok ()
  | region :: regions =>
    if text.trimSpace region.name = "" then .error ("OTEL_FLEET_REGIONS[" ++ toString i ++ "]: name is required")
    else if region.name ∈ seen then .error ("OTEL_FLEET_REGIONS: duplicate region name " ++ quote region.name)
    else checkNames (i + 1) (region.name :: seen) regions

def listedRegions (settings : RegionSettings) : Except String (List Region) :=
  match settings.regions with
  | some (.error err) => .error ("OTEL_FLEET_REGIONS: invalid JSON: " ++ err)
  | some (.ok (region :: regions)) => .ok (region :: regions)
  | _ => .ok [⟨"default", settings.clickHouseAddr, settings.clickHouseDatabase, settings.victoriaMetricsURL⟩]

def withDefault (config : RegionConfig) : Except String RegionConfig :=
  if config.hasRegion config.defaultRegion then .ok config
  else .error ("OTEL_FLEET_DEFAULT_REGION " ++ quote config.defaultRegion ++ " is not a configured region")

def loadRegions (settings : RegionSettings) : Except String RegionConfig := do
  let regions ← listedRegions settings
  checkNames text 0 [] regions
  let first := (regions.head?.map fun region => region.name).getD ""
  withDefault ⟨regions, if settings.defaultRegion = "" then first else settings.defaultRegion⟩

theorem nodup_of_checkNames {i : Nat} {seen : List String} {regions : List Region}
    (checked : checkNames text i seen regions = .ok ()) :
    (regions.map fun region => region.name).Nodup ∧ ∀ region ∈ regions, region.name ∉ seen := by
  induction regions generalizing i seen with
  | nil => exact ⟨List.nodup_nil, fun _ mem => nomatch mem⟩
  | cons region regions ih =>
    rw [checkNames] at checked
    split at checked
    · cases checked
    · split at checked
      · cases checked
      · rename_i new
        obtain ⟨distinct, unseen⟩ := ih checked
        refine ⟨List.nodup_cons.mpr ⟨fun mem => ?_, distinct⟩, List.forall_mem_cons.mpr ⟨new, fun other mem => ?_⟩⟩
        · obtain ⟨other, isRegion, same⟩ := List.mem_map.mp mem
          exact unseen other isRegion (same ▸ List.mem_cons_self)
        · exact fun already => unseen other mem (List.mem_cons_of_mem _ already)

/-- Names of regions are distinct, and the default is one of them. -/
theorem loadRegions_spec {settings : RegionSettings} {config : RegionConfig} (loaded : loadRegions text settings = .ok config) :
    (config.regions.map fun region => region.name).Nodup ∧ config.hasRegion config.defaultRegion = true := by
  unfold loadRegions at loaded
  cases listed : listedRegions settings with
  | error err =>
    rw [listed] at loaded
    cases loaded
  | ok regions =>
    rw [listed] at loaded
    cases checked : checkNames text 0 [] regions with
    | error err =>
      simp only [bind, Except.bind, checked] at loaded
      cases loaded
    | ok _ =>
      simp only [bind, Except.bind, checked, withDefault] at loaded
      generalize (if settings.defaultRegion = "" then _ else _) = default at loaded
      split at loaded
      · rename_i hasDefault
        cases loaded
        exact ⟨(nodup_of_checkNames text checked).1, hasDefault⟩
      · cases loaded

end

structure Registry where
  config : RegionConfig
  distinct : (config.regions.map fun region => region.name).Nodup
  hasDefault : config.hasRegion config.defaultRegion = true

namespace Registry

variable (reg : Registry)

def names : List String := (reg.config.regions.map fun region => region.name).insertionSort (· ≤ ·)

variable (name : String)

def region? : Option Region := reg.config.regions.find? fun region => region.name = name

theorem isSome_region : ((reg.region? name).or (reg.region? reg.config.defaultRegion)).isSome := by
  have found : (reg.region? reg.config.defaultRegion).isSome := by
    rw [region?]
    simpa [RegionConfig.hasRegion] using reg.hasDefault
  cases reg.region? name with
  | none => exact found
  | some region => rfl

/-- The region of this name; an unknown name stands for the default region. -/
def regionFor : Region :=
  ((reg.region? name).or (reg.region? reg.config.defaultRegion)).get (reg.isSome_region name)

def clickHouse : String × String :=
  ((reg.regionFor name).clickHouseAddr, (reg.regionFor name).clickHouseDatabase)

/-- The URL of a region's VictoriaMetrics, or that of the default region. -/
def vm : String :=
  if (reg.regionFor name).victoriaMetricsURL ≠ "" then (reg.regionFor name).victoriaMetricsURL
  else (reg.regionFor reg.config.defaultRegion).victoriaMetricsURL

theorem regionFor_of_mem {region : Region} (mem : region ∈ reg.config.regions) :
    reg.regionFor region.name = region := by
  have found : reg.region? region.name = some region := find?_of_mem reg.distinct mem
  simp only [regionFor, found, Option.some_or, Option.get_some]

theorem map_names_perm : (reg.names.map reg.clickHouse).Perm
    (reg.config.regions.map fun region => (region.clickHouseAddr, region.clickHouseDatabase)) := by
  refine ((List.perm_insertionSort _ _).map _).trans ?_
  rw [List.map_map]
  apply List.Perm.of_eq
  apply List.map_congr_left
  intro region mem
  simp only [Function.comp_apply, clickHouse, reg.regionFor_of_mem mem]

end Registry

end OtelFleet.Stats
