import ApiLint.Proofs.Node.Same
import ApiLint.Proofs.Rule.Reports
import ApiLint.Proofs.Schema.Merging
import ApiLint.Proofs.Schema.OutlinedPlaces
set_option autoImplicit false

/-!
# Reports and the order of fields

What a rule reports on a place depends on its path and on the outline of its node, but for
the order of the reports.
-/

namespace ApiLint.Rule

/-! ## Responses -/

/-- What is seen of a response schema. -/
def ResponseSchema.view (r : ResponseSchema) :
    String × String × DocPath × (DocPath → Option Node) :=
  (r.status, r.mediaType, r.schema.view)

/-- Responses with one outline have the same schemas, up to their order. -/
theorem perm_responseSchemas (path : DocPath) {a b : Node} (ha : a.WellFormed)
    (hb : b.WellFormed) (h : a.outline = b.outline) :
    ((responseSchemas ⟨path, a⟩).map ResponseSchema.view).Perm
      ((responseSchemas ⟨path, b⟩).map ResponseSchema.view) := by
  unfold responseSchemas
  rw [List.map_flatMap, List.map_flatMap]
  refine perm_flatMap_of_view (Node.perm_fields ha hb h) ?_
  rintro ⟨status, response⟩ hresponse ⟨_, other⟩ hother heq
  obtain ⟨rfl, hoption⟩ := Prod.mk.inj heq
  dsimp only
  rw [List.map_flatMap, List.map_flatMap]
  refine perm_flatMap_of_view (Node.perm_getFields? (ha.of_mem_fields hresponse)
    (hb.of_mem_fields hother) hoption "content") ?_
  rintro ⟨mediaType, content⟩ _ ⟨_, otherContent⟩ _ heq
  obtain ⟨rfl, hcontent⟩ := Prod.mk.inj heq
  dsimp only
  obtain ⟨hnone, hnone'⟩ | ⟨v, w, hv, hw, hvw⟩ := Node.get?_of_outline hcontent "schema"
  · rw [hnone, hnone']
  · rw [hv, hw]
    simp [ResponseSchema.view, Located.view, hvw]

theorem ResponseSchema.of_view_eq {r s : ResponseSchema} (h : r.view = s.view) :
    r.status = s.status ∧ r.mediaType = s.mediaType ∧ r.schema.path = s.schema.path ∧
      r.schema.node.outline = s.schema.node.outline := by
  simpa [view, Located.view] using h

theorem isNull_eq_of_outline {a b : Node} (h : a.outline = b.outline) : isNull a = isNull b := by
  have hlabel := Node.label_eq_of_outline h
  cases a <;> cases b <;> simp_all [Node.label, isNull]

theorem composesProperty_eq_of_outline {a b : Node} (h : a.outline = b.outline) (name : String) :
    Schema.composesProperty a name = Schema.composesProperty b name :=
  Schema.satisfies_eq_of_outline (fun _ _ => Schema.definesProperty_eq_of_outline name) h

theorem isInline_eq_of_view {r s : ResponseSchema} (h : r.view = s.view) :
    r.isInline = s.isInline := by
  obtain ⟨_, hmediaType, _, houtline⟩ := ResponseSchema.of_view_eq h
  rw [ResponseSchema.isInline, ResponseSchema.isInline, hmediaType,
    isNull_eq_of_outline houtline, Schema.isNamed_eq_of_outline houtline]

theorem lacksErrors_eq_of_view {r s : ResponseSchema} (h : r.view = s.view) :
    r.lacksErrors = s.lacksErrors := by
  obtain ⟨hstatus, hmediaType, _, houtline⟩ := ResponseSchema.of_view_eq h
  rw [ResponseSchema.lacksErrors, ResponseSchema.lacksErrors, hstatus, hmediaType,
    Schema.isRef_eq_of_outline houtline, composesProperty_eq_of_outline houtline]

/-! ## Tags -/

section Tags

variable (path : DocPath) (defined : List String)

theorem undefinedTags_cons (position : Nat) (tag : Node) (rest : List Node) :
    undefinedTags defined path position (tag :: rest) =
      match tag.string? with
      | some name =>
        if defined.contains name then undefinedTags defined path (position + 1) rest
        else undefinedTagFinding path position name ::
          undefinedTags defined path (position + 1) rest
      | none => undefinedTags defined path (position + 1) rest := by
  cases tag <;> rfl

theorem undefinedTags_eq_of_outline {tags others : List Node}
    (htags : tags.map Node.outline = others.map Node.outline) (position : Nat) :
    undefinedTags defined path position tags = undefinedTags defined path position others := by
  induction tags generalizing others position with
  | nil =>
    obtain rfl : others = [] := List.map_eq_nil_iff.mp htags.symm
    rfl
  | cons tag rest ih =>
    cases others with
    | nil => simp at htags
    | cons other others =>
      obtain ⟨htag, hrest⟩ := List.cons.inj htags
      rw [undefinedTags_cons, undefinedTags_cons, Node.string?_eq_of_outline htag, ih hrest]

end Tags

/-! ## Places -/

section Places

variable (path : DocPath) {a b : Node} (h : a.outline = b.outline)
include h

theorem hasTags_eq_of_outline : hasTags a = hasTags b := by
  have htags := congrArg List.isEmpty (Node.map_outline_getItems h "tags")
  rw [List.isEmpty_map, List.isEmpty_map] at htags
  rw [hasTags, hasTags, htags]

theorem untaggedAt_eq :
    untaggedAt (Located.visit ⟨path, a⟩) = untaggedAt (Located.visit ⟨path, b⟩) := by
  have huntagged : isUntaggedOperation (Located.visit ⟨path, a⟩) =
      isUntaggedOperation (Located.visit ⟨path, b⟩) := by
    simp only [isUntaggedOperation, Located.visit, Node.isObject_eq_of_outline h,
      hasTags_eq_of_outline h]
  rw [untaggedAt, untaggedAt, huntagged]
  rfl

theorem undefinedTagsAt_eq (defined : List String) :
    undefinedTagsAt defined (Located.visit ⟨path, a⟩) =
      undefinedTagsAt defined (Located.visit ⟨path, b⟩) := by
  have htags := undefinedTags_eq_of_outline path defined (Node.map_outline_getItems h "tags") 0
  unfold undefinedTagsAt Located.visit
  dsimp only
  rw [htags]

theorem scriptAt_eq :
    scriptAt (Located.visit ⟨path, a⟩) = scriptAt (Located.visit ⟨path, b⟩) := by
  have hlabel := Node.label_eq_of_outline h
  unfold scriptAt isScriptedDescription Located.visit scriptFinding
  dsimp only
  cases a <;> cases b <;> simp_all [Node.label]

theorem unboundedAt_eq : unboundedAt ⟨path, a⟩ = unboundedAt ⟨path, b⟩ := by
  have hneedsBound : needsBound a = needsBound b := by
    rw [needsBound, needsBound, Schema.hasType_eq_of_outline h, Node.hasKey_eq_of_outline h,
      hasBoundedFormat, hasBoundedFormat, Node.getString?_eq_of_outline h]
  have hmaxLength : ∀ x y : Node, x.outline = y.outline →
      x.hasKey "maxLength" = y.hasKey "maxLength" :=
    fun _ _ heq => Node.hasKey_eq_of_outline heq "maxLength"
  have hbound := Schema.satisfies_eq_of_outline hmaxLength h
  unfold unboundedAt isUnbounded
  rw [hneedsBound, hbound]
  rfl

variable (ha : a.WellFormed) (hb : b.WellFormed)
include ha hb

theorem perm_inlineAt :
    (inlineAt (Located.visit ⟨path, a⟩)).Perm (inlineAt (Located.visit ⟨path, b⟩)) := by
  unfold inlineAt Located.visit
  dsimp only
  rw [Schema.isRef_eq_of_outline h]
  split
  · refine perm_map_filter_of_view (perm_responseSchemas path ha hb h) fun r _ s _ heq => ?_
    exact ⟨isInline_eq_of_view heq,
      by rw [inlineFinding, inlineFinding, (r.of_view_eq heq).2.2.1]⟩
  · exact .nil

theorem perm_errorAt :
    (errorAt (Located.visit ⟨path, a⟩)).Perm (errorAt (Located.visit ⟨path, b⟩)) := by
  unfold errorAt Located.visit
  dsimp only
  split
  · refine perm_map_filter_of_view (perm_responseSchemas path ha hb h) fun r _ s _ heq => ?_
    exact ⟨lacksErrors_eq_of_view heq,
      by rw [errorFinding, errorFinding, (r.of_view_eq heq).2.2.1]⟩
  · exact .nil

theorem perm_misnamedProperties :
    (misnamedProperties ⟨path, a⟩).Perm (misnamedProperties ⟨path, b⟩) := by
  have hkeys := (Node.perm_getFields? ha hb h "properties").map Prod.fst
  rw [List.map_map, List.map_map] at hkeys
  exact (hkeys.filter _).map _

theorem undefinedRequired_eq : undefinedRequired ⟨path, a⟩ = undefinedRequired ⟨path, b⟩ := by
  have hmerged := Schema.outline_mergeAllOf ha hb h
  have hnames : requiredNames (Schema.mergeAllOf a) = requiredNames (Schema.mergeAllOf b) :=
    filterMap_eq_of_view (Node.map_outline_getItems hmerged "required")
      fun _ _ _ _ heq => Node.string?_eq_of_outline heq
  unfold undefinedRequired
  simp only [hnames, composesProperty_eq_of_outline hmerged]

end Places

end ApiLint.Rule
