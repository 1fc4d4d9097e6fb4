import OtelFleet.Verified.ConfigSections

/-! # Exporter labels

The metrics of an exporter carry its component ID as a label, and the exporters of a
pipeline are found by a regular expression over that label.  The expression matches the IDs
of one pipeline only: what stands before the first slash is a type, and slugs have no
underscore, so that the two separators after it are found at one place.
-/

namespace OtelFleet.Verified.ExporterLabels

open Data Tenants Pipelines Verified.ComponentIds
open Verified.ConfigSections

theorem parse_exporterLabelRegex (customerSlug pipelineSlug : String) :
    Regex.parse (exporterLabelRegex customerSlug pipelineSlug) = some (.start :: .plus (.noneOf ['/']) ::
      ((('/' :: (pipelineKey customerSlug pipelineSlug).toList ++ ['_', '_']).map fun c => .one (.literal c)) ++
        [.star .any])) := by
  have tail : Regex.tokens .plain "__.*".toList =
      some [.set (.literal '_'), .set (.literal '_'), .set .any, .star] := by decide
  have head : ∀ rest, Regex.tokens .plain ("^[^/]+/".toList ++ rest) = (Regex.tokens .plain rest).map fun after =>
      .start :: .set (.noneOf ['/']) :: .plus :: .set (.literal '/') :: after := by
    simp [Regex.tokens, Regex.isSpecial, Function.comp_def]
  rw [Regex.parse, exporterLabelRegex, String.toList_append, String.toList_append, List.append_assoc, head,
    Regex.tokens_quoteMeta, tail]
  have literals := Regex.items_literals ('/' :: (pipelineKey customerSlug pipelineSlug).toList ++ ['_', '_']) .any [.star]
  simp only [List.cons_append, List.map_cons, List.map_append, List.append_assoc, List.map_nil, List.nil_append]
    at literals ⊢
  simp only [Option.map_some, Option.bind_eq_bind, Option.bind_some, Regex.items, literals]

variable (customerSlug pipelineSlug text : String)

theorem fullMatch_exporterLabelRegex :
    Regex.fullMatch (exporterLabelRegex customerSlug pipelineSlug) text = some true ↔
      ∃ type node, type ≠ [] ∧ '/' ∉ type ∧ '\n' ∉ node ∧
        text.toList = type ++ '/' :: ((pipelineKey customerSlug pipelineSlug).toList ++ '_' :: '_' :: node) := by
  rw [Regex.fullMatch, parse_exporterLabelRegex, Option.map_some, Option.some.injEq, List.contains_iff_mem]
  simp only [Regex.mem_rests_cons, Regex.mem_rests_nil, Regex.mem_start_rests, true_and, exists_eq_left,
    Regex.mem_plus_rests, Regex.mem_rests_literals, Regex.mem_star_rests]
  constructor
  · rintro ⟨_, ⟨type, nonempty, same, isType⟩, after, rfl, _, ⟨node, rfl, isNode⟩, rfl⟩
    refine ⟨type, node, nonempty, fun slash => absurd (isType _ slash) (by decide),
      fun newline => absurd (isNode _ newline) (by decide), ?_⟩
    simpa using same
  · rintro ⟨type, node, nonempty, isType, isNode, same⟩
    refine ⟨_, ⟨type, nonempty, same, ?_⟩, node, by simp, [], ⟨node, by simp, ?_⟩, rfl⟩
    · intro c mem
      simpa [Regex.CharSet.holds] using ne_of_mem_of_not_mem mem isType
    · intro c mem
      simpa [Regex.CharSet.holds] using ne_of_mem_of_not_mem mem isNode

theorem slugs_of_keys {customerSlug pipelineSlug customerSlug' pipelineSlug' : String} (customer : validSlug customerSlug)
    (pipeline : validSlug pipelineSlug) (customer' : validSlug customerSlug') (pipeline' : validSlug pipelineSlug')
    {node node' : List Char} (same : (pipelineKey customerSlug pipelineSlug).toList ++ '_' :: '_' :: node =
      customerSlug'.toList ++ '_' :: '_' :: (pipelineSlug'.toList ++ '_' :: '_' :: node')) :
    customerSlug = customerSlug' ∧ pipelineSlug = pipelineSlug' := by
  simp only [pipelineKey, String.toList_append, List.append_assoc] at same
  obtain ⟨sameCustomer, rest⟩ := append_cons_inj (underscore_notMem_of_validSlug customer)
    (underscore_notMem_of_validSlug customer') same
  obtain ⟨samePipeline, _⟩ := append_cons_inj (underscore_notMem_of_validSlug pipeline)
    (underscore_notMem_of_validSlug pipeline') (List.cons.inj rest).2
  exact ⟨String.toList_inj.mp sameCustomer, String.toList_inj.mp samePipeline⟩

/-- The expression of a pipeline matches the IDs of the exporters of that pipeline and
    of no other. -/
theorem exporterLabelRegex_attributes [PrintTable] {schemas : SchemaValidator} {field : String} {exporters : List Node}
    (clean : validateNodes schemas field .exporter exporters = []) {node : Node} (mem : node ∈ exporters) (idx : Nat)
    {customerSlug pipelineSlug customerSlug' pipelineSlug' : String} (customer : validSlug customerSlug)
    (pipeline : validSlug pipelineSlug) (customer' : validSlug customerSlug') (pipeline' : validSlug pipelineSlug') :
    Regex.fullMatch (exporterLabelRegex customerSlug pipelineSlug)
      (componentID node idx customerSlug' pipelineSlug') =
        some (decide (customerSlug = customerSlug' ∧ pipelineSlug = pipelineSlug')) := by
  obtain ⟨known, distinct, _⟩ := nodeIssues_clean clean
  have noSlash : '/' ∉ node.type.toList := slash_notMem_type_of_named ⟨known, distinct⟩ mem
  obtain ⟨found, matched⟩ : ∃ found, Regex.fullMatch (exporterLabelRegex customerSlug pipelineSlug)
      (componentID node idx customerSlug' pipelineSlug') = some found := by
    rw [Regex.fullMatch, parse_exporterLabelRegex]
    exact ⟨_, rfl⟩
  rw [matched, Option.some.injEq, Bool.eq_iff_iff, decide_eq_true_iff]
  have texts := fullMatch_exporterLabelRegex customerSlug pipelineSlug (componentID node idx customerSlug' pipelineSlug')
  rw [matched, Option.some.injEq, toList_componentID] at texts
  rw [texts]
  constructor
  · rintro ⟨type, suffix, _, isType, _, same⟩
    -- both sides have their first slash after the type
    obtain ⟨_, keys⟩ := append_cons_inj noSlash isType same
    exact slugs_of_keys customer pipeline customer' pipeline' keys.symm
  · rintro ⟨rfl, rfl⟩
    refine ⟨node.type.toList, (nodeSuffix node idx).toList, ?_, noSlash, ?_, by simp [pipelineKey]⟩
    · obtain ⟨component, found⟩ := known node mem
      obtain ⟨isComponent, sameType⟩ := Catalog.lookup_type found
      rw [← sameType]
      exact Catalog.type_ne_nil component isComponent
    · intro newline
      exact absurd (isSlugChar_of_mem_nodeSuffix (names_of_clean clean node mem) idx _ newline) (by decide)

/-- The exporter of `acme-corp`'s `backup` is matched by the expression of that
    pipeline; the one of `other`'s is not. -/
theorem exporterLabelRegex_attributes_backup :
    Regex.fullMatch (exporterLabelRegex "acme-corp" "backup")
        (componentID ⟨"otlp", none, none⟩ 0 "acme-corp" "backup") = some true ∧
      Regex.fullMatch (exporterLabelRegex "acme-corp" "backup")
        (componentID ⟨"otlp", none, none⟩ 0 "other" "backup") = some false :=
  ⟨@exporterLabelRegex_attributes asciiPrintTable (fun _ _ => none) "exporters" [⟨"otlp", none, none⟩] (by decide) _
      (List.mem_singleton_self _) 0 _ _ _ _ (by decide) (by decide) (by decide) (by decide),
    @exporterLabelRegex_attributes asciiPrintTable (fun _ _ => none) "exporters" [⟨"otlp", none, none⟩] (by decide) _
      (List.mem_singleton_self _) 0 _ _ _ _ (by decide) (by decide) (by decide) (by decide)⟩

end OtelFleet.Verified.ExporterLabels
