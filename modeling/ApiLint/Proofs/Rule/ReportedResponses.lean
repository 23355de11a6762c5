import ApiLint.Proofs.Rule.ResponseRoots
import ApiLint.Proofs.Rule.SingleReports
set_option autoImplicit false

/-!
# Which response schemas are reported

A schema of a response stands four keys behind a map of responses: its status, `content`, its
media type and `schema`.  What the two rules on response schemas report is said here by the
paths of such schemas, by the kinds of the maps above them and by the schemas alone: each of
them is reported once, however deep the callbacks are nested that the map stands in, and
nothing else is, whatever else in the document is called like a response.
-/

namespace ApiLint.Rule

open Schema (Collects named under)

/-! ## The schemas of a map of responses -/

/-- The path of a schema of a response. -/
def schemaPath (responses : DocPath) (status mediaType : String) : DocPath :=
  responses.keys [status, "content", mediaType, "schema"]

/-- The path tells the map of responses, the status and the media type. -/
theorem eq_of_schemaPath_eq {responses other : DocPath}
    {status mediaType otherStatus otherMediaType : String}
    (h : schemaPath responses status mediaType = schemaPath other otherStatus otherMediaType) :
    responses = other ∧ status = otherStatus ∧ mediaType = otherMediaType := by
  obtain ⟨hresponses, hkeys⟩ := List.append_inj' h rfl
  have hnames : [status, "content", mediaType, "schema"] =
      [otherStatus, "content", otherMediaType, "schema"] :=
    List.map_injective_iff.mpr (fun _ _ => Segment.key.inj) hkeys
  simp only [List.cons.injEq, true_and, and_true] at hnames
  exact ⟨hresponses, hnames⟩

/-- The path of a chosen schema in the map of responses at this path. -/
def IsChosenSchema (document : Node) (p : ResponseSchema → Bool) (responses path : DocPath) :
    Prop :=
  ∃ status mediaType schema, path = schemaPath responses status mediaType ∧
    path.resolve document = some schema ∧ p ⟨status, mediaType, ⟨path, schema⟩⟩ = true

theorem path_eq_schemaPath {responses : Located} {r : ResponseSchema}
    (h : r ∈ responseSchemas responses) :
    r.schema.path = schemaPath responses.path r.status r.mediaType := by
  rw [path_of_mem_responseSchemas h, schemaPath, DocPath.keys_cons responses.path]

/-- Only an object has responses. -/
theorem exists_object_of_resolve_schemaPath {document schema : Node} {responses : DocPath}
    {status mediaType : String}
    (h : (schemaPath responses status mediaType).resolve document = some schema) :
    ∃ fields : Fields, responses.resolve document = some (.object fields) := by
  rw [schemaPath, DocPath.keys_cons] at h
  obtain ⟨response, hresponse⟩ := DocPath.exists_resolve_on_way (DocPath.prefix_keys _ _) h
  rw [DocPath.resolve_child] at hresponse
  obtain ⟨node, hnode, hstatus⟩ := Option.bind_eq_some_iff.mp hresponse
  cases node with
  | object fields => exact ⟨fields, hnode⟩
  | _ => simp [DocPath.step?, Node.get?] at hstatus

theorem map_schema_responseSchemas (responses : Located) :
    (responseSchemas responses).map ResponseSchema.schema =
      named (under "content" (named (under "schema" fun schema => [schema]))) responses := by
  unfold responseSchemas named under Node.getFields? Node.fields
  rw [List.map_flatMap]
  refine List.flatMap_congr ?_
  rintro ⟨status, response⟩ _
  dsimp only
  cases response.get? "content" with
  | none => rfl
  | some content =>
    rw [List.map_flatMap]
    refine List.flatMap_congr ?_
    rintro ⟨mediaType, media⟩ _
    dsimp only
    cases media.get? "schema" with
    | none => rfl
    | some schema => simp [DocPath.keys_cons]

/-! ## The places of reports -/

/-- A schema that has no name: no reference, of no primitive type, and no array of these. -/
structure Unnamed (schema : Node) : Prop where
  reference : Schema.isRef schema = false
  primitive : Schema.isPrimitive schema = false
  items : ∀ items, Schema.hasType schema "array" = true → schema.get? "items" = some items →
    Schema.isRef items = false ∧ Schema.isPrimitive items = false

/-- The path of a JSON schema that stands in place, in a map of responses that is no reference. -/
inductive InlineSchemaPlace (document : Node) : DocPath → Prop
  | intro {responses : DocPath} {fields : Fields} {status mediaType : String} {schema : Node}
      (hkind : NodeKind.of responses = .operationResponses ∨
        NodeKind.of responses = .componentResponses)
      (hresponses : responses.resolve document = some (.object fields))
      (href : fields.hasKey "$ref" = false)
      (hschema : (schemaPath responses status mediaType).resolve document = some schema)
      (hnull : schema ≠ .null) (hjson : MediaType.isJson mediaType = true)
      (hunnamed : Unnamed schema) :
      InlineSchemaPlace document (schemaPath responses status mediaType)

/-- The path of a JSON schema of an error response of an operation that is no reference and
defines no `errors`, neither itself nor by its composition. -/
inductive ErrorSchemaPlace (document : Node) : DocPath → Prop
  | intro {responses : DocPath} {status mediaType : String} {schema : Node}
      (hkind : NodeKind.of responses = .operationResponses)
      (hschema : (schemaPath responses status mediaType).resolve document = some schema)
      (hlength : status.utf8ByteSize = 3)
      (hfirst : status.toList.head? = some '4' ∨ status.toList.head? = some '5')
      (hjson : MediaType.isJson mediaType = true) (href : Schema.isRef schema = false)
      (herrors : Schema.composesProperty schema "errors" = false) :
      ErrorSchemaPlace document (schemaPath responses status mediaType)

theorem unnamed_iff (schema : Node) : Unnamed schema ↔ Schema.isNamed schema = false := by
  have hitems : (∀ items, Schema.hasType schema "array" = true →
      schema.get? "items" = some items →
        Schema.isRef items = false ∧ Schema.isPrimitive items = false) ↔
      Schema.isArrayOfNamed schema = false := by
    unfold Schema.isArrayOfNamed
    cases schema.get? "items" with
    | none => simp
    | some items => simp
  rw [Schema.isNamed, Bool.or_eq_false_iff, Bool.or_eq_false_iff, ← hitems, and_assoc]
  constructor
  · rintro ⟨href, hprimitive, hitems⟩
    exact ⟨href, hprimitive, hitems⟩
  · rintro ⟨href, hprimitive, hitems⟩
    exact ⟨href, hprimitive, hitems⟩

theorem isInline_iff (r : ResponseSchema) :
    r.isInline = true ↔
      MediaType.isJson r.mediaType = true ∧ r.schema.node ≠ .null ∧ Unnamed r.schema.node := by
  have hnull : isNull r.schema.node = false ↔ r.schema.node ≠ .null := by
    cases r.schema.node <;> simp [isNull]
  rw [unnamed_iff, ← hnull]
  simp [ResponseSchema.isInline, and_assoc]

theorem isInlineVisit_iff (responses : Located) :
    (responses.visit.kind.isResponses && !Schema.isRef responses.visit.node) = true ↔
      (NodeKind.of responses.path = .operationResponses ∨
        NodeKind.of responses.path = .componentResponses) ∧
        Schema.isRef responses.node = false := by
  rw [Bool.and_eq_true, NodeKind.isResponses, Bool.or_eq_true, decide_eq_true_iff,
    decide_eq_true_iff, Bool.not_eq_true']
  rfl

theorem lacksErrors_iff (r : ResponseSchema) :
    r.lacksErrors = true ↔
      r.status.utf8ByteSize = 3 ∧
        (r.status.toList.head? = some '4' ∨ r.status.toList.head? = some '5') ∧
        MediaType.isJson r.mediaType = true ∧ Schema.isRef r.schema.node = false ∧
        Schema.composesProperty r.schema.node "errors" = false := by
  simp [ResponseSchema.lacksErrors, isErrorStatus, and_assoc]

section WellFormed

variable {document : Node} (hwf : document.WellFormed)
include hwf

/-- The schemas of the responses in a map are the nodes four keys behind it. -/
theorem collects_responseSchemas :
    Collects document (fun responses => (responseSchemas responses).map ResponseSchema.schema)
      (fun responses path => ∃ status mediaType, path = schemaPath responses status mediaType) := by
  have hcontent := ((Schema.collects_namedSchemas hwf).under "content").named hwf
  refine (hcontent.congr fun responses _ => map_schema_responseSchemas responses).places_congr
    fun responses path => ?_
  simp [schemaPath, DocPath.keys_cons]

theorem nodup_responseSchemas {responses : Located} (h : responses.StandsIn document) :
    ((responseSchemas responses).map fun r => r.schema.path).Nodup := by
  have hdiverge := List.pairwise_map.mp ((collects_responseSchemas hwf).diverge responses h)
  exact List.pairwise_map.mpr (hdiverge.imp DocPath.Diverge.ne)

/-- A schema that stands at such a path is listed for its status and its media type. -/
theorem mem_responseSchemas_iff {responses : Located} (h : responses.StandsIn document)
    (r : ResponseSchema) :
    r ∈ responseSchemas responses ↔
      r.schema.StandsIn document ∧
        r.schema.path = schemaPath responses.path r.status r.mediaType := by
  constructor
  · intro hr
    exact ⟨standsIn_responseSchemas hwf h r hr, path_eq_schemaPath hr⟩
  · rintro ⟨hstands, hplace⟩
    -- some listed entry has this schema, and the path of the schema tells the rest of the entry
    have hlisted := ((collects_responseSchemas hwf).mem_iff responses h r.schema).mpr
      ⟨hstands, r.status, r.mediaType, hplace⟩
    obtain ⟨s, hs, hschema⟩ := List.mem_map.mp hlisted
    obtain ⟨_, hstatus, hmediaType⟩ :=
      eq_of_schemaPath_eq ((path_eq_schemaPath hs).symm.trans (hschema ▸ hplace))
    obtain ⟨status, mediaType, schema⟩ := r
    obtain ⟨_, _, _⟩ := s
    dsimp only at hstatus hmediaType hschema
    rwa [hstatus, hmediaType, hschema] at hs

theorem listsOnce_chosenSchemas {responses : Located} (h : responses.StandsIn document)
    (p : ResponseSchema → Bool) :
    ListsOnce (((responseSchemas responses).filter p).map fun r => r.schema.path)
      (IsChosenSchema document p responses.path) := by
  refine (ListsOnce.chosen (nodup_responseSchemas hwf h) p).congr fun path => ?_
  constructor
  · rintro ⟨⟨status, mediaType, place, schema⟩, hr, hchosen, rfl⟩
    obtain ⟨hschema, hpath⟩ := (mem_responseSchemas_iff hwf h _).mp hr
    exact ⟨status, mediaType, schema, hpath, hschema, hchosen⟩
  · rintro ⟨status, mediaType, schema, hpath, hschema, hchosen⟩
    let r : ResponseSchema := ⟨status, mediaType, ⟨path, schema⟩⟩
    have hr : r ∈ responseSchemas responses :=
      (mem_responseSchemas_iff hwf h r).mpr ⟨hschema, hpath⟩
    exact ⟨r, hr, hchosen, rfl⟩

/-- A rule that reports chosen schemas of chosen maps of responses reports each of them once. -/
theorem listsOnce_responseSchemas {c : Visit → Prop} [DecidablePred c]
    {p : ResponseSchema → Bool} {report : ResponseSchema → Finding}
    (hreport : ∀ r, (report r).path = r.schema.path) :
    ListsOnce (((walkDocument document).flatMap fun visit =>
        if c visit then ((responseSchemas ⟨visit.path, visit.node⟩).filter p).map report
        else []).map Finding.path)
      fun path => ∃ responses : Located, responses.StandsIn document ∧ c responses.visit ∧
        IsChosenSchema document p responses.path path := by
  apply listsOnce_visits hwf
  · intro responses hresponses
    have hpaths : (((responseSchemas responses).filter p).map report).map Finding.path =
        ((responseSchemas responses).filter p).map fun r => r.schema.path := by
      rw [List.map_map]
      exact List.map_congr_left fun r _ => hreport r
    have hchosen := listsOnce_chosenSchemas hwf hresponses p
    rw [← hpaths] at hchosen
    rw [apply_ite (List.map Finding.path)]
    exact hchosen.ite
  · rintro responses other path ⟨_, _, _, _, hpath, _⟩ ⟨_, _, _, _, hother, _⟩
    exact (eq_of_schemaPath_eq (hpath.symm.trans hother)).1

theorem listsOnce_inlineResponseSchema :
    ListsOnce ((inlineResponseSchema document).map Finding.path) (InlineSchemaPlace document) := by
  refine (listsOnce_responseSchemas hwf (fun _ => rfl)).congr fun path => ?_
  constructor
  · rintro ⟨responses, hresponses, hvisit, status, mediaType, schema, rfl, hschema, hinline⟩
    obtain ⟨fields, hfields⟩ := exists_object_of_resolve_schemaPath hschema
    obtain ⟨hkind, href⟩ := (isInlineVisit_iff responses).mp hvisit
    obtain ⟨hjson, hnull, hunnamed⟩ := (isInline_iff _).mp hinline
    rw [Option.some.inj (hresponses.symm.trans hfields)] at href
    exact .intro hkind hfields href hschema hnull hjson hunnamed
  · intro hplace
    cases hplace with
    | @intro responses fields status mediaType schema hkind hresponses href hschema hnull hjson
        hunnamed =>
      have hvisit := (isInlineVisit_iff ⟨responses, .object fields⟩).mpr ⟨hkind, href⟩
      exact ⟨⟨responses, .object fields⟩, hresponses, hvisit, status, mediaType, schema, rfl,
        hschema, (isInline_iff _).mpr ⟨hjson, hnull, hunnamed⟩⟩

theorem listsOnce_errorResponseSchema :
    ListsOnce ((errorResponseSchema document).map Finding.path) (ErrorSchemaPlace document) := by
  refine (listsOnce_responseSchemas hwf (fun _ => rfl)).congr fun path => ?_
  constructor
  · rintro ⟨responses, _, hkind, status, mediaType, schema, rfl, hschema, hlacks⟩
    obtain ⟨hlength, hfirst, hjson, href, herrors⟩ := (lacksErrors_iff _).mp hlacks
    exact .intro hkind hschema hlength hfirst hjson href herrors
  · intro hplace
    cases hplace with
    | @intro responses status mediaType schema hkind hschema hlength hfirst hjson href herrors =>
      obtain ⟨fields, hresponses⟩ := exists_object_of_resolve_schemaPath hschema
      exact ⟨⟨responses, .object fields⟩, hresponses, hkind, status, mediaType, schema, rfl,
        hschema, (lacksErrors_iff _).mpr ⟨hlength, hfirst, hjson, href, herrors⟩⟩

/-- An inline schema of a response is reported once, and so is an error response without `errors`;
neither rule reports anything else. -/
theorem response_schemas_reported_once {rule : Rule} (block : RuleBlock) :
    (rule.id = .inlineResponseSchema →
        ReportsOnce (rule.check block document) (InlineSchemaPlace document)) ∧
      (rule.id = .errorResponseSchema →
        ReportsOnce (rule.check block document) (ErrorSchemaPlace document)) := by
  constructor
  · intro hid
    exact reportsOnce_check hid (by decide) block (listsOnce_inlineResponseSchema hwf)
  · intro hid
    exact reportsOnce_check hid (by decide) block (listsOnce_errorResponseSchema hwf)

end WellFormed

/-- An operation with schemas in place, of a success and of a failure. -/
def inlineDocument : Node :=
  .object [("paths", .object [("/pets", .object [("get", .object [("responses", .object [
    ("200", .object [("content", .object [
      ("application/json", .object [("schema", .object [("type", .string "object")])])])]),
    ("404", .object [("content", .object [
      ("application/problem+json", .object [("schema", .object [("type", .string "object")])])])])
    ])])])])]

/-- The map of its responses. -/
def inlineResponses : DocPath := DocPath.keys [] ["paths", "/pets", "get", "responses"]

/-- The schema of the success is reported for standing in place, that of the failure for its
lack of `errors`; a success needs none. -/
theorem reports_inlineDocument :
    (∃ v, ((standard .inlineResponseSchema).check {} inlineDocument).filter
        (·.path = schemaPath inlineResponses "200" "application/json") = [v]) ∧
      (∃ v, ((standard .errorResponseSchema).check {} inlineDocument).filter
        (·.path = schemaPath inlineResponses "404" "application/problem+json") = [v]) ∧
      ∀ v ∈ (standard .errorResponseSchema).check {} inlineDocument,
        v.path ≠ schemaPath inlineResponses "200" "application/json" := by
  have hwf : inlineDocument.WellFormed := by
    simp [inlineDocument, Node.WellFormed, Node.WellFormedFields]
  have hinline : ReportsOnce ((standard .inlineResponseSchema).check {} inlineDocument)
      (InlineSchemaPlace inlineDocument) := (response_schemas_reported_once hwf {}).1 rfl
  have herrors : ReportsOnce ((standard .errorResponseSchema).check {} inlineDocument)
      (ErrorSchemaPlace inlineDocument) := (response_schemas_reported_once hwf {}).2 rfl
  have hunnamed : Unnamed (.object [("type", .string "object")]) :=
    (unnamed_iff _).mpr (by decide)
  refine ⟨(hinline.once _).mpr ?_, (herrors.once _).mpr ?_, ?_⟩
  · exact .intro (.inl rfl) rfl rfl rfl (by simp) (by decide +kernel) hunnamed
  · exact .intro rfl rfl rfl (.inl rfl) (by decide +kernel) rfl (by decide +kernel)
  · refine (herrors.silent_iff _).mpr fun hplace => ?_
    generalize hpath : schemaPath inlineResponses "200" "application/json" = path at hplace
    cases hplace with
    | intro _ _ _ hfirst _ _ _ =>
      obtain ⟨_, rfl, _⟩ := eq_of_schemaPath_eq hpath
      exact absurd hfirst (by decide)

end ApiLint.Rule
