import ApiLint.Proofs.Linter.Violations
import ApiLint.Proofs.Rule.Reports
import ApiLint.Rule.Preset
set_option autoImplicit false

/-!
# Changing one entry of the map of paths

Documents that differ in the value of one entry of the map of paths get the same reports
outside that entry, in the same order.  A walk visits the same places outside the entry,
what is found inside it is reported inside it, and at the document and at the map of
paths themselves nothing is reported visit by visit.
-/

namespace ApiLint

/-- A document but for the value of one entry of its map of paths. -/
structure EntryFrame where
  /-- the fields before the map of paths -/
  before : Fields
  /-- the entries before the entry left open -/
  above : Fields
  /-- the key of the entry left open -/
  template : String
  /-- the entries behind it -/
  below : Fields
  /-- the fields behind the map of paths -/
  after : Fields
  deriving Repr, Inhabited

namespace EntryFrame

/-- The entries of the map of paths, with a value for the one left open. -/
def entries (frame : EntryFrame) (item : Node) : Fields :=
  frame.above ++ (frame.template, item) :: frame.below

/-- The document with a value for the entry left open. -/
def fill (frame : EntryFrame) (item : Node) : Node :=
  .object (frame.before ++ ("paths", .object (frame.entries item)) :: frame.after)

/-- The path of the entry left open. -/
def path (frame : EntryFrame) : DocPath := [.key "paths", .key frame.template]

/-- The path leads neither to the entry left open nor below it. -/
def isOutside (frame : EntryFrame) (path : DocPath) : Bool := !frame.path.isPrefixOf path

variable (frame : EntryFrame)

/-! ## Fields of the document -/

/-- Every other field of the document is the same whatever the entry holds. -/
theorem get?_fill (key : String) (hkey : key ≠ "paths") (item other : Node) :
    (frame.fill item).get? key = (frame.fill other).get? key := by
  simp [fill, Node.get?, Fields.get?_append, Fields.get?, Ne.symm hkey]

theorem getFields?_fill {item : Node} (hwf : (frame.fill item).WellFormed) :
    (frame.fill item).getFields? "paths" = some (frame.entries item) := by
  have hmem : ("paths", Node.object (frame.entries item)) ∈ (frame.fill item).fields := by
    simp [fill, Node.fields, Node.fields?]
  rw [Node.getFields?, hwf.mem_fields_iff.mp hmem]
  rfl

theorem wellFormed_item {item : Node} (hwf : (frame.fill item).WellFormed) : item.WellFormed := by
  have hentries := ((Node.wellFormed_object_iff _).mp hwf).2
    ("paths", .object (frame.entries item)) (by simp)
  exact ((Node.wellFormed_object_iff _).mp hentries).2 (frame.template, item) (by simp [entries])

/-! ## The walk of the document -/

theorem preorderFields_append (path : DocPath) (fields others : Fields) :
    preorderFields path (fields ++ others) =
      preorderFields path fields ++ preorderFields path others := by
  simp only [preorderFields_eq_flatMap, List.flatMap_append]

/-- The places outside the entry, but for the document and its map of paths. -/
def outside : List Located :=
  preorderFields [] frame.before ++
    (preorderFields [.key "paths"] frame.above ++ preorderFields [.key "paths"] frame.below) ++
    preorderFields [] frame.after

theorem preorder_fill (item : Node) :
    preorder [] (frame.fill item) =
      ⟨[], frame.fill item⟩ ::
        (preorderFields [] frame.before ++
          (⟨[.key "paths"], .object (frame.entries item)⟩ ::
            (preorderFields [.key "paths"] frame.above ++
              (preorder frame.path item ++ preorderFields [.key "paths"] frame.below))) ++
          preorderFields [] frame.after) := by
  simp [fill, entries, path, preorder, preorderFields, preorderFields_append, DocPath.child]

/-- Findings at or below the entry are not outside of it. -/
theorem filter_eq_nil_of_standBelow {findings : List Finding}
    (h : Rule.StandBelow frame.path findings) :
    findings.filter (fun finding => frame.isOutside finding.path) = [] := by
  refine List.filter_eq_nil_iff.mpr fun finding hfinding houtside => ?_
  have hbelow := List.isPrefixOf_iff_prefix.mpr (h finding hfinding)
  simp [isOutside, hbelow] at houtside

/-- What is reported visit by visit outside the entry is what is reported at the places outside
it. -/
theorem filter_flatMap_walk_fill {item : Node} (hwf : (frame.fill item).WellFormed)
    {report : Visit → List Finding}
    (hdocument : ∀ node, report (Located.visit ⟨[], node⟩) = [])
    (hpaths : ∀ node, report (Located.visit ⟨[.key "paths"], node⟩) = [])
    (hbelow : ∀ place : Located, place.StandsIn (frame.fill item) →
      Rule.StandBelow place.path (report place.visit)) :
    ((walkDocument (frame.fill item)).flatMap report).filter
        (fun finding => frame.isOutside finding.path) =
      (frame.outside.flatMap fun place => report place.visit).filter
        fun finding => frame.isOutside finding.path := by
  have hitem : Rule.StandBelow frame.path
      ((preorder frame.path item).flatMap fun place => report place.visit) := by
    refine .flatMap fun place hplace => ?_
    have hmem : place ∈ preorder [] (frame.fill item) := by
      rw [preorder_fill]
      simp [hplace]
    obtain ⟨rest, hpath, hstands⟩ := (mem_preorder_iff hwf [] place).mp hmem
    rw [← (show place.path = rest from hpath)] at hstands
    have hentry := prefix_of_mem_preorder (frame.wellFormed_item hwf) hplace
    exact (hbelow place hstands).above hentry
  rw [walkDocument, walk_eq_map_visit, List.flatMap_map, preorder_fill]
  simp only [List.flatMap_cons, List.flatMap_append, List.filter_append, hdocument, hpaths,
    List.nil_append, frame.filter_eq_nil_of_standBelow hitem, outside]

/-! ## The rules -/

section Rules

variable {item other : Node} (hitem : (frame.fill item).WellFormed)
  (hother : (frame.fill other).WellFormed)
include hitem hother

/-- Rules that report visit by visit report the same outside the entry, whatever the entry holds. -/
theorem filter_flatMap_walk_eq (report : Visit → List Finding)
    (hdocument : ∀ node, report (Located.visit ⟨[], node⟩) = [])
    (hpaths : ∀ node, report (Located.visit ⟨[.key "paths"], node⟩) = [])
    (hbelow : ∀ document : Node, document.WellFormed → ∀ place : Located,
      place.StandsIn document → Rule.StandBelow place.path (report place.visit)) :
    ((walkDocument (frame.fill item)).flatMap report).filter
        (fun finding => frame.isOutside finding.path) =
      ((walkDocument (frame.fill other)).flatMap report).filter
        fun finding => frame.isOutside finding.path := by
  rw [frame.filter_flatMap_walk_fill hitem hdocument hpaths (hbelow _ hitem),
    frame.filter_flatMap_walk_fill hother hdocument hpaths (hbelow _ hother)]

theorem filter_flatMap_all_eq {report : Located → List Finding}
    (hreport : ∀ schema, Rule.StandBelow schema.path (report schema)) :
    ((Schema.all (frame.fill item)).flatMap report).filter
        (fun finding => frame.isOutside finding.path) =
      ((Schema.all (frame.fill other)).flatMap report).filter
        fun finding => frame.isOutside finding.path := by
  rw [Rule.flatMap_all, Rule.flatMap_all]
  refine frame.filter_flatMap_walk_eq hitem hother _ (fun _ => rfl) (fun _ => rfl) ?_
  intro document hwf place hplace
  exact Rule.standBelow_insideRoots hwf hreport hplace

omit hother in
/-- Only its keys decide what is reported on the segments of the map of paths. -/
theorem pathSegmentCase_fill :
    Rule.pathSegmentCase (frame.fill item) =
      ((Fields.keys (frame.entries item)).filter fun key => !Rule.isExtensionKey key).flatMap
        fun template => ((Text.split '/' template).filter Rule.isMisnamedSegment).map
          (Rule.segmentFinding template) := by
  rw [Rule.pathSegmentCase, frame.getFields?_fill hitem, Option.getD_some, Fields.keys,
    List.filter_map, List.flatMap_map]
  rfl

theorem pathSegmentCase_eq :
    Rule.pathSegmentCase (frame.fill item) = Rule.pathSegmentCase (frame.fill other) := by
  rw [frame.pathSegmentCase_fill hitem, frame.pathSegmentCase_fill hother]
  simp [Fields.keys, entries]

omit hother in
/-- What is reported on the entry itself is not outside of it. -/
theorem filter_pathParameters_fill (missing duplicate : Option Severity) :
    (Rule.pathParameters missing duplicate (frame.fill item)).filter
        (fun entry => frame.isOutside entry.2.path) =
      ((frame.above ++ frame.below).flatMap fun entry =>
        Rule.pathParametersAt missing duplicate entry.1 entry.2).filter
          fun entry => frame.isOutside entry.2.path := by
  have hentry : (Rule.pathParametersAt missing duplicate frame.template item).filter
      (fun entry => frame.isOutside entry.2.path) = [] := by
    refine List.filter_eq_nil_iff.mpr fun entry hmem houtside => ?_
    have hbelow := List.isPrefixOf_iff_prefix.mpr (Rule.prefix_of_mem_pathParametersAt hmem)
    have hpath : frame.path = DocPath.keys [] ["paths", frame.template] := rfl
    rw [isOutside, hpath, hbelow] at houtside
    exact absurd houtside (by decide)
  rw [Rule.pathParameters, frame.getFields?_fill hitem, Option.getD_some, entries]
  simp only [List.flatMap_append, List.flatMap_cons, List.filter_append, hentry, List.nil_append]

/-- Outside the entry the rules with one severity find the same, whatever the entry holds. -/
theorem filter_findingsOf_eq (id : RuleId) :
    (Rule.findingsOf id (frame.fill item)).filter
        (fun finding => frame.isOutside finding.path) =
      (Rule.findingsOf id (frame.fill other)).filter
        fun finding => frame.isOutside finding.path := by
  have htags := frame.get?_fill "tags" (by decide) item other
  cases id with
  | inlineResponseSchema =>
    simp only [Rule.findingsOf, Rule.inlineResponseSchema_eq]
    refine frame.filter_flatMap_walk_eq hitem hother _ (fun _ => rfl) (fun _ => rfl) ?_
    exact fun _ _ place _ => Rule.standBelow_inlineAt place.visit
  | pathParameters => rfl
  | pathSegmentCase =>
    exact congrArg (List.filter _) (frame.pathSegmentCase_eq hitem hother)
  | propertyCase =>
    exact frame.filter_flatMap_all_eq hitem hother Rule.standBelow_misnamedProperties
  | requiredPropertyMissing =>
    exact frame.filter_flatMap_all_eq hitem hother Rule.standBelow_undefinedRequired
  | stringBoundary =>
    simp only [Rule.findingsOf, Rule.stringBoundary_eq]
    exact frame.filter_flatMap_all_eq hitem hother Rule.standBelow_unboundedAt
  | errorResponseSchema =>
    simp only [Rule.findingsOf, Rule.errorResponseSchema_eq]
    refine frame.filter_flatMap_walk_eq hitem hother _ (fun _ => rfl) (fun _ => rfl) ?_
    exact fun _ _ place _ => Rule.standBelow_errorAt place.visit
  | operationTags =>
    simp only [Rule.findingsOf, Rule.operationTags_eq]
    refine frame.filter_flatMap_walk_eq hitem hother _ (fun _ => rfl) (fun _ => rfl) ?_
    exact fun _ _ place _ => Rule.standBelow_untaggedAt place.visit
  | openapiTags =>
    exact congrArg (List.filter _) (Rule.openapiTags_congr htags)
  | operationTagDefined =>
    simp only [Rule.findingsOf, Rule.operationTagDefined_eq, Rule.definedTags_congr htags]
    refine frame.filter_flatMap_walk_eq hitem hother _ (fun _ => rfl) (fun _ => rfl) ?_
    exact fun _ _ place _ => Rule.standBelow_undefinedTagsAt _ place.visit
  | noScriptTags =>
    simp only [Rule.findingsOf, Rule.noScriptTags_eq]
    refine frame.filter_flatMap_walk_eq hitem hother _ ?_ ?_ ?_
    · intro node
      simp [Rule.scriptAt, Rule.isScriptedDescription, Located.visit, DocPath.lastKey?,
        DocPath.last?]
    · intro node
      simp [Rule.scriptAt, Rule.isScriptedDescription, Located.visit, DocPath.lastKey?,
        DocPath.last?, Segment.key?]
    · exact fun _ _ place _ => Rule.standBelow_scriptAt place.visit

/-- Outside the entry every rule finds the same, whatever the entry holds. -/
theorem filter_gradedFindings_eq (rule : Rule) (block : RuleBlock) :
    (rule.gradedFindings block (frame.fill item)).filter
        (fun entry => frame.isOutside entry.2.path) =
      (rule.gradedFindings block (frame.fill other)).filter
        fun entry => frame.isOutside entry.2.path := by
  by_cases hid : rule.id = .pathParameters
  · rw [Rule.gradedFindings_pathParameters hid, Rule.gradedFindings_pathParameters hid,
      frame.filter_pathParameters_fill hitem, frame.filter_pathParameters_fill hother]
  · rw [Rule.gradedFindings_of_ne hid, Rule.gradedFindings_of_ne hid, List.filter_map,
      List.filter_map]
    exact congrArg (List.map _) (frame.filter_findingsOf_eq hitem hother rule.id)

end Rules

end EntryFrame

/-- Changing the value of one entry of the map of paths changes no report outside that entry: the
violations whose paths do not begin with that of the entry are the same, in the same order. -/
theorem Linter.lint_outside_entry (linter : Linter) (file : Option String) (frame : EntryFrame)
    {item other : Node} (hitem : (frame.fill item).WellFormed)
    (hother : (frame.fill other).WellFormed) :
    (linter.lint ⟨frame.fill item, file⟩).filter (fun v => frame.isOutside v.path) =
      (linter.lint ⟨frame.fill other, file⟩).filter fun v => frame.isOutside v.path := by
  rw [filter_lint, filter_lint]
  refine List.flatMap_congr fun rule _ => ?_
  rw [Rule.filter_report_path, Rule.filter_report_path,
    frame.filter_gradedFindings_eq hitem hother rule]

/-- A document with an untagged operation beside the entry, and a map of webhooks behind it. -/
def webhookFrame : EntryFrame where
  before := [("tags", .array [.object [("name", .string "pets")]])]
  above := [("/owners", .object [("get", .object [])])]
  template := "/pets/\x7bid\x7d"
  below := []
  after := [("webhooks", .object [("newPet", .object [("post", .object [
    ("tags", .array [.string "birds"])])])])]

/-- An operation that declares nothing, with a callback of its own. -/
def callbackItem : Node :=
  .object [("get", .object [("callbacks", .object [("onPet", .object [("/webhooks",
    .object [("post", .object [])])])])])]

/-- Without the entry's value two operations are reported, with it three more, all of them
inside the entry. -/
theorem lint_webhookFrame :
    ((Linter.lint { rules := Preset.recommended.rules }
        ⟨webhookFrame.fill .null, none⟩).length = 2 ∧
      (Linter.lint { rules := Preset.recommended.rules }
        ⟨webhookFrame.fill callbackItem, none⟩).length = 5) ∧
    (Linter.lint { rules := Preset.recommended.rules }
        ⟨webhookFrame.fill .null, none⟩).filter (fun v => webhookFrame.isOutside v.path) =
      (Linter.lint { rules := Preset.recommended.rules }
        ⟨webhookFrame.fill callbackItem, none⟩).filter fun v => webhookFrame.isOutside v.path := by
  refine ⟨by decide +kernel, ?_⟩
  refine Linter.lint_outside_entry _ none webhookFrame ?_ ?_
  · simp [webhookFrame, EntryFrame.fill, EntryFrame.entries, Node.WellFormed,
      Node.WellFormedFields, Node.WellFormedItems]
  · simp [webhookFrame, callbackItem, EntryFrame.fill, EntryFrame.entries, Node.WellFormed,
      Node.WellFormedFields, Node.WellFormedItems]

end ApiLint
