import ApiLint.Proofs.Rule.OutlinedReports
import ApiLint.Proofs.Rule.SingleReports
set_option autoImplicit false

/-!
# Which operations and tags are reported

What is an operation is said by its path alone, through the kinds of the walk: below a path,
a webhook or a reusable path item, and below the callbacks of operations in turn.  An operation
is reported once when it has no tags.  A tag of it is reported once, where it stands, when the
document does not define it; so a tag of an operation is left alone exactly when it is defined.
-/

namespace ApiLint.Rule

/-! ## The places of reports -/

/-- The path of an operation that is an object without tags. -/
structure UntaggedOperationPlace (document : Node) (operation : DocPath) : Prop where
  kind : ∃ method, NodeKind.of operation = .operation method
  untagged : ∃ node, operation.resolve document = some node ∧ node.isObject = true ∧
    ∀ tags, node.get? "tags" = some (.array tags) → tags = []

/-- The tags of the document have an element with this name. -/
def DefinesTag (document : Node) (tag : String) : Prop :=
  ∃ tags element, document.get? "tags" = some (.array tags) ∧ element ∈ tags ∧
    element.get? "name" = some (.string tag)

/-- The path of an element of the tags of an operation. -/
def tagPath (operation : DocPath) (position : Nat) : DocPath :=
  (operation.child (.key "tags")).child (.index position)

/-- The string is an element of the tags of an operation. -/
structure HasTagAt (document : Node) (operation : DocPath) (position : Nat) (tag : String) :
    Prop where
  kind : ∃ method, NodeKind.of operation = .operation method
  element : ∃ node tags, operation.resolve document = some node ∧
    node.get? "tags" = some (.array tags) ∧ tags[position]? = some (.string tag)

/-- The path of a tag of an operation that the document does not define. -/
inductive UndefinedTagPlace (document : Node) : DocPath → Prop
  | intro {operation : DocPath} {position : Nat} {tag : String}
      (htag : HasTagAt document operation position tag) (hundefined : ¬ DefinesTag document tag) :
      UndefinedTagPlace document (tagPath operation position)

/-- A path tells the operation and the position of its tag. -/
theorem eq_of_tagPath_eq {operation other : DocPath} {position otherPosition : Nat}
    (h : tagPath operation position = tagPath other otherPosition) :
    operation = other ∧ position = otherPosition := by
  obtain ⟨htags, hposition⟩ := List.append_inj' h rfl
  obtain ⟨hoperation, _⟩ := List.append_inj' htags rfl
  exact ⟨hoperation, by simpa using hposition⟩

/-- Only one tag stands at a position. -/
theorem HasTagAt.unique {document : Node} {operation : DocPath} {position : Nat}
    {tag other : String} (h : HasTagAt document operation position tag)
    (hother : HasTagAt document operation position other) : tag = other := by
  obtain ⟨node, tags, hnode, htags, htag⟩ := h.element
  obtain ⟨otherNode, otherTags, hotherNode, hotherTags, hotherTag⟩ := hother.element
  obtain rfl := Option.some.inj (hnode.symm.trans hotherNode)
  obtain rfl := Node.array.inj (Option.some.inj (htags.symm.trans hotherTags))
  exact Node.string.inj (Option.some.inj (htag.symm.trans hotherTag))

theorem undefinedTagPlace_iff {document : Node} {operation : DocPath} {position : Nat}
    {tag : String} (h : HasTagAt document operation position tag) :
    UndefinedTagPlace document (tagPath operation position) ↔ ¬ DefinesTag document tag := by
  constructor
  · generalize hpath : tagPath operation position = path
    intro hplace
    cases hplace with
    | intro hother hundefined =>
      obtain ⟨rfl, rfl⟩ := eq_of_tagPath_eq hpath
      rwa [h.unique hother]
  · exact .intro h

theorem mem_definedTags_iff (document : Node) (tag : String) :
    tag ∈ definedTags document ↔ DefinesTag document tag := by
  rw [definedTags, List.mem_filterMap]
  constructor
  · rintro ⟨element, helement, hname⟩
    obtain ⟨tags, htags, hmem⟩ := Node.mem_getItems_iff.mp helement
    exact ⟨tags, element, htags, hmem, Node.getString?_eq_some_iff.mp hname⟩
  · rintro ⟨tags, element, htags, hmem, hname⟩
    exact ⟨element, Node.mem_getItems_iff.mpr ⟨tags, htags, hmem⟩,
      Node.getString?_eq_some_iff.mpr hname⟩

theorem isUntaggedOperation_iff (operation : Located) :
    isUntaggedOperation operation.visit = true ↔
      (NodeKind.of operation.path).isOperation = true ∧ operation.node.isObject = true ∧
        ∀ tags, operation.node.get? "tags" = some (.array tags) → tags = [] := by
  simp [isUntaggedOperation, hasTags, Located.visit, ← Node.getItems_eq_nil_iff, and_assoc]

/-! ## The tags of an operation -/

/-- A string that is not among the defined tags. -/
def isUndefinedTag (defined : List String) (tag : Node) : Bool :=
  tag.string?.any fun name => !defined.contains name

theorem isUndefinedTag_iff (document tag : Node) :
    isUndefinedTag (definedTags document) tag = true ↔
      ∃ name, tag = .string name ∧ ¬ DefinesTag document name := by
  simp only [← mem_definedTags_iff]
  cases tag <;> simp [isUndefinedTag, Node.string?]

/-- What is reported on tags stands where the undefined ones among them do. -/
theorem map_path_undefinedTags (defined : List String) (operation : DocPath) (tags : List Node)
    (position : Nat) :
    (undefinedTags defined operation position tags).map Finding.path =
      ((tags.zipIdx position).filter fun tag => isUndefinedTag defined tag.1).map
        fun tag => tagPath operation tag.2 := by
  -- what is no string is no tag, so both sides pass it over as they do a defined tag
  induction tags generalizing position with
  | nil => rfl
  | cons tag rest ih =>
    rw [undefinedTags_cons, List.zipIdx_cons, List.filter_cons, isUndefinedTag]
    cases tag.string? with
    | none => exact ih (position + 1)
    | some name =>
      by_cases hdefined : name ∈ defined
      · simp [hdefined, ih]
      · simp [hdefined, ih, undefinedTagFinding, tagPath]

theorem nodup_tagPaths (operation : DocPath) (tags : List Node) :
    ((tags.zipIdx).map fun tag => tagPath operation tag.2).Nodup := by
  have hinjective : (tagPath operation).Injective := fun _ _ h => (eq_of_tagPath_eq h).2
  have hpaths := (nodup_positions tags).map hinjective
  rwa [List.map_map] at hpaths

section WellFormed

variable {document : Node} (hwf : document.WellFormed)
include hwf

theorem listsOnce_operationTags :
    ListsOnce ((operationTags document).map Finding.path) (UntaggedOperationPlace document) := by
  have hpaths : (operationTags document).map Finding.path =
      ((walkDocument document).filter isUntaggedOperation).map Visit.path := by
    rw [operationTags, List.map_map]
    rfl
  rw [hpaths]
  refine (ListsOnce.chosen (nodup_walkDocument hwf) _).congr fun path => ?_
  constructor
  · rintro ⟨visit, hvisit, huntagged, rfl⟩
    obtain ⟨place, hstands, rfl⟩ := (mem_walkDocument_iff hwf visit).mp hvisit
    obtain ⟨hkind, huntagged⟩ := (isUntaggedOperation_iff place).mp huntagged
    exact ⟨(NodeKind.isOperation_iff _).mp hkind, place.node, hstands, huntagged⟩
  · rintro ⟨hkind, node, hnode, huntagged⟩
    have hoperation := (isUntaggedOperation_iff ⟨path, node⟩).mpr
      ⟨(NodeKind.isOperation_iff _).mpr hkind, huntagged⟩
    exact ⟨_, (mem_walkDocument_iff hwf _).mpr ⟨⟨path, node⟩, hnode, rfl⟩, hoperation, rfl⟩

theorem listsOnce_operationTagDefined :
    ListsOnce ((operationTagDefined document).map Finding.path) (UndefinedTagPlace document) := by
  have hreport : ∀ operation : Located, operation.StandsIn document →
      ListsOnce ((undefinedTagsAt (definedTags document) operation.visit).map Finding.path)
        (fun path => (NodeKind.of operation.path).isOperation = true ∧
          ∃ tag ∈ (operation.node.getItems "tags").zipIdx,
            isUndefinedTag (definedTags document) tag.1 = true ∧
              tagPath operation.path tag.2 = path) := by
    intro operation hoperation
    rw [undefinedTagsAt, apply_ite (List.map Finding.path), map_path_undefinedTags]
    exact (ListsOnce.chosen (nodup_tagPaths _ _) _).ite
  refine (listsOnce_visits hwf hreport ?_).congr fun path => ?_
  · rintro operation other path ⟨_, tag, _, _, rfl⟩ ⟨_, otherTag, _, _, hpath⟩
    exact (eq_of_tagPath_eq hpath).1.symm
  · constructor
    · rintro ⟨operation, hstands, hkind, ⟨tag, position⟩, htag, hundefined, rfl⟩
      obtain ⟨name, rfl, hname⟩ := (isUndefinedTag_iff document tag).mp hundefined
      have helement := List.mem_zipIdx_iff_getElem?.mp htag
      obtain ⟨tags, htags, hposition⟩ := Node.getElem?_getItems_iff.mp helement
      have hat : HasTagAt document operation.path position name :=
        ⟨(NodeKind.isOperation_iff _).mp hkind, operation.node, tags, hstands, htags, hposition⟩
      exact .intro hat hname
    · intro hplace
      cases hplace with
      | @intro operation position name hat hname =>
        obtain ⟨hkind, node, tags, hnode, htags, hposition⟩ := hat
        have helement := Node.getElem?_getItems_iff.mpr ⟨tags, htags, hposition⟩
        have hundefined := (isUndefinedTag_iff document _).mpr ⟨name, rfl, hname⟩
        exact ⟨⟨operation, node⟩, hnode, (NodeKind.isOperation_iff _).mpr hkind,
          (.string name, position), List.mem_zipIdx_iff_getElem?.mpr helement, hundefined, rfl⟩

/-- An operation without tags is reported once, at any depth of callbacks, and so is a tag that
the document does not define; neither rule reports anything else.  Hence a tag of an operation
is left alone exactly when it is defined. -/
theorem operation_tags_reported_once {rule : Rule} (block : RuleBlock) :
    (rule.id = .operationTags →
        ReportsOnce (rule.check block document) (UntaggedOperationPlace document)) ∧
      (rule.id = .operationTagDefined →
        ReportsOnce (rule.check block document) (UndefinedTagPlace document) ∧
          ∀ operation position tag, HasTagAt document operation position tag →
            ((∀ v ∈ rule.check block document, v.path ≠ tagPath operation position) ↔
              DefinesTag document tag)) := by
  constructor
  · intro hid
    exact reportsOnce_check hid (by decide) block (listsOnce_operationTags hwf)
  · intro hid
    have hreports := reportsOnce_check hid (by decide) block (listsOnce_operationTagDefined hwf)
    refine ⟨hreports, fun operation position tag htag => ?_⟩
    rw [hreports.silent_iff, undefinedTagPlace_iff htag, not_not]

end WellFormed

/-- A document that defines one of the two tags of an operation, and whose callback has none. -/
def callbackDocument : Node :=
  .object [("tags", .array [.object [("name", .string "pets")]]),
    ("paths", .object [("/pets", .object [("post", .object [
      ("tags", .array [.string "pets", .string "owners"]),
      ("callbacks", .object [("created", .object [("hook", .object [
        ("put", .object [])])])])])])])]

/-- The path of its operation. -/
def taggedOperation : DocPath := DocPath.keys [] ["paths", "/pets", "post"]

/-- The callback is reported for its lack of tags and the operation for its second tag; the first
one is defined. -/
theorem reports_callbackDocument :
    (∃ v, ((standard .operationTags).check {} callbackDocument).filter
        (·.path = taggedOperation.keys ["callbacks", "created", "hook", "put"]) = [v]) ∧
      (∃ v, ((standard .operationTagDefined).check {} callbackDocument).filter
        (·.path = tagPath taggedOperation 1) = [v]) ∧
      ∀ v ∈ (standard .operationTagDefined).check {} callbackDocument,
        v.path ≠ tagPath taggedOperation 0 := by
  have hwf : callbackDocument.WellFormed := by
    simp [callbackDocument, Node.WellFormed, Node.WellFormedFields, Node.WellFormedItems]
  have huntagged : ReportsOnce ((standard .operationTags).check {} callbackDocument)
      (UntaggedOperationPlace callbackDocument) := (operation_tags_reported_once hwf {}).1 rfl
  obtain ⟨hundefined, hsilent⟩ :
      ReportsOnce ((standard .operationTagDefined).check {} callbackDocument)
          (UndefinedTagPlace callbackDocument) ∧
        ∀ operation position tag, HasTagAt callbackDocument operation position tag →
          ((∀ v ∈ (standard .operationTagDefined).check {} callbackDocument,
              v.path ≠ tagPath operation position) ↔ DefinesTag callbackDocument tag) :=
    (operation_tags_reported_once hwf {}).2 rfl
  have hfirst : HasTagAt callbackDocument taggedOperation 0 "pets" :=
    ⟨⟨_, rfl⟩, _, _, rfl, rfl, rfl⟩
  have hsecond : HasTagAt callbackDocument taggedOperation 1 "owners" :=
    ⟨⟨_, rfl⟩, _, _, rfl, rfl, rfl⟩
  refine ⟨(huntagged.once _).mpr ?_, (hundefined.once _).mpr (.intro hsecond ?_), ?_⟩
  · exact ⟨⟨_, rfl⟩, .object [], rfl, rfl, by simp [Node.get?, Fields.get?]⟩
  · rw [← mem_definedTags_iff]
    decide
  · exact (hsilent _ _ _ hfirst).mpr ⟨_, _, rfl, List.mem_cons_self, rfl⟩

end ApiLint.Rule
