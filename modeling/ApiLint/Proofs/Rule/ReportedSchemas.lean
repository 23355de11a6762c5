import ApiLint.Proofs.Node.Outline
import ApiLint.Proofs.Rule.SingleReports
set_option autoImplicit false

/-!
# Which parts of schemas are reported

A schema stands at the end of a chain of schemas from a root, and the rules on names and on
bounded strings judge it by its node alone.  So their reports are said by chains: a property
is reported once for its name, where it stands, and a string once for lacking a bound; the
chain may be as long as it likes and nothing beside it matters.
-/

namespace ApiLint

/-- The schemas of a document are the nodes at the end of chains of schemas from the roots that
are listed for it. -/
theorem Schema.mem_all_iff_exists_root {document : Node} (hwf : document.WellFormed)
    (schema : Located) :
    schema ∈ all document ↔
      schema.StandsIn document ∧ ∃ root ∈ roots document,
        NestedAt document root.path schema.path := by
  rw [mem_all_iff hwf]
  refine and_congr_right fun hstands => ?_
  constructor
  · rintro ⟨path, hplace, hnested⟩
    obtain ⟨node, hnode⟩ := DocPath.exists_resolve_on_way hnested.prefix_path hstands
    exact ⟨⟨path, node⟩, (mem_roots_iff hwf _).mpr ⟨hnode, hplace⟩, hnested⟩
  · rintro ⟨root, hroot, hnested⟩
    exact ⟨root.path, ((mem_roots_iff hwf root).mp hroot).2, hnested⟩

namespace Rule

open Schema (NestedAt)

/-! ## The places of reports -/

/-- The path of a property of a schema that has no name in snake case. -/
inductive MisnamedPropertyPlace (document : Node) : DocPath → Prop
  | intro {root : Located} {schema : DocPath} {name : String} {property : Node}
      (hroot : root ∈ Schema.roots document) (hnested : NestedAt document root.path schema)
      (hproperty : (schema.keys ["properties", name]).resolve document = some property)
      (hname : Naming.isSnakeCase name = false) :
      MisnamedPropertyPlace document (schema.keys ["properties", name])

/-- A schema of a string without any bound on its length. -/
structure LacksBound (schema : Node) : Prop where
  type : schema.getString? "type" = some "string"
  enumeration : schema.hasKey "enum" = false
  format : ∀ format, schema.getString? "format" = some format → format ∉ boundedFormats
  length : Schema.satisfies (·.hasKey "maxLength") schema = false

/-- The path of a schema of a string without a bound. -/
inductive UnboundedStringPlace (document : Node) : DocPath → Prop
  | intro {root schema : Located} (hroot : root ∈ Schema.roots document)
      (hnested : NestedAt document root.path schema.path) (hschema : schema.StandsIn document)
      (hlacks : LacksBound schema.node) : UnboundedStringPlace document schema.path

theorem lacksBound_iff (schema : Node) : LacksBound schema ↔ isUnbounded schema = true := by
  have hformat : (∀ format, schema.getString? "format" = some format → format ∉ boundedFormats) ↔
      hasBoundedFormat schema = false := by
    unfold hasBoundedFormat
    cases schema.getString? "format" with
    | none => simp
    | some format => simp
  simp only [isUnbounded, needsBound, Schema.hasType, Bool.and_eq_true, Bool.not_eq_true',
    decide_eq_true_iff, and_assoc, ← hformat]
  constructor
  · rintro ⟨htype, henumeration, hformat, hlength⟩
    exact ⟨htype, henumeration, hformat, hlength⟩
  · rintro ⟨htype, henumeration, hformat, hlength⟩
    exact ⟨htype, henumeration, hformat, hlength⟩

/-! ## The properties of a schema -/

/-- The path of a property of one schema that has no name in snake case. -/
def IsMisnamedProperty (document : Node) (schema : Located) (path : DocPath) : Prop :=
  ∃ name property, path = schema.path.keys ["properties", name] ∧
    path.resolve document = some property ∧ Naming.isSnakeCase name = false

/-- A path tells the schema and the name of its property. -/
theorem eq_of_keys_properties_eq {schema other : DocPath} {name otherName : String}
    (h : schema.keys ["properties", name] = other.keys ["properties", otherName]) :
    schema = other ∧ name = otherName := by
  obtain ⟨hschema, hkeys⟩ := List.append_inj' h rfl
  simp only [List.map_cons, List.map_nil, List.cons.injEq, Segment.key.injEq, true_and,
    and_true] at hkeys
  exact ⟨hschema, hkeys⟩

section WellFormed

variable {document : Node} (hwf : document.WellFormed)
include hwf

/-- The properties of a schema are the nodes two keys behind it. -/
theorem mem_keys_properties_iff {schema : Located} (h : schema.StandsIn document)
    (name : String) :
    name ∈ Fields.keys ((schema.node.getFields? "properties").getD []) ↔
      ∃ property, (schema.path.keys ["properties", name]).resolve document = some property := by
  rw [Fields.keys, List.mem_map]
  constructor
  · rintro ⟨⟨_, property⟩, hfield, rfl⟩
    exact ⟨property, h.field hwf hfield⟩
  · rintro ⟨property, hproperty⟩
    exact ⟨(name, property), (h.mem_getFields_iff hwf).mpr hproperty, rfl⟩

theorem listsOnce_misnamedProperties {schema : Located} (h : schema.StandsIn document) :
    ListsOnce ((misnamedProperties schema).map Finding.path)
      (IsMisnamedProperty document schema) := by
  let pathOf (name : String) : DocPath := schema.path.keys ["properties", name]
  have hinjective : pathOf.Injective := fun _ _ hname => (eq_of_keys_properties_eq hname).2
  have hkeys : (Fields.keys ((schema.node.getFields? "properties").getD [])).Nodup :=
    ((h.wellFormed hwf).object_getFields? "properties").nodup_keys
  rw [misnamedProperties, List.map_map]
  refine (ListsOnce.chosen (hkeys.map hinjective) _).congr fun path => ?_
  constructor
  · rintro ⟨name, hname, hmisnamed, rfl⟩
    obtain ⟨property, hproperty⟩ := (mem_keys_properties_iff hwf h name).mp hname
    exact ⟨name, property, rfl, hproperty, by simpa using hmisnamed⟩
  · rintro ⟨name, property, rfl, hproperty, hmisnamed⟩
    have hname := (mem_keys_properties_iff hwf h name).mpr ⟨property, hproperty⟩
    exact ⟨name, hname, by simpa using hmisnamed, rfl⟩

theorem listsOnce_propertyCase :
    ListsOnce ((propertyCase document).map Finding.path) (MisnamedPropertyPlace document) := by
  have hplace : ∀ (schema other : Located) (path : DocPath),
      IsMisnamedProperty document schema path → IsMisnamedProperty document other path →
        schema.path = other.path := by
    rintro schema other path ⟨_, _, hpath, _⟩ ⟨_, _, hother, _⟩
    exact (eq_of_keys_properties_eq (hpath.symm.trans hother)).1
  refine (listsOnce_schemas hwf (fun _ => listsOnce_misnamedProperties hwf) hplace).congr
    fun path => ?_
  constructor
  · rintro ⟨schema, hschema, name, property, rfl, hproperty, hname⟩
    obtain ⟨_, root, hroot, hnested⟩ := (Schema.mem_all_iff_exists_root hwf schema).mp hschema
    exact .intro hroot hnested hproperty hname
  · intro hplace
    cases hplace with
    | @intro root schema name property hroot hnested hproperty hname =>
      obtain ⟨node, hnode⟩ := DocPath.exists_resolve_on_way (DocPath.prefix_keys _ _) hproperty
      have hschema := (Schema.mem_all_iff_exists_root hwf ⟨schema, node⟩).mpr
        ⟨hnode, root, hroot, hnested⟩
      exact ⟨_, hschema, name, property, rfl, hproperty, hname⟩

theorem listsOnce_stringBoundary :
    ListsOnce ((stringBoundary document).map Finding.path) (UnboundedStringPlace document) := by
  have hpaths : (stringBoundary document).map Finding.path =
      ((Schema.all document).filter fun schema => isUnbounded schema.node).map Located.path := by
    rw [stringBoundary, List.map_map]
    rfl
  rw [hpaths]
  refine (ListsOnce.chosen (Schema.nodup_all hwf) _).congr fun path => ?_
  constructor
  · rintro ⟨schema, hschema, hunbounded, rfl⟩
    obtain ⟨hstands, root, hroot, hnested⟩ := (Schema.mem_all_iff_exists_root hwf schema).mp hschema
    exact .intro hroot hnested hstands ((lacksBound_iff _).mpr hunbounded)
  · intro hplace
    cases hplace with
    | @intro root schema hroot hnested hstands hlacks =>
      have hschema := (Schema.mem_all_iff_exists_root hwf schema).mpr
        ⟨hstands, root, hroot, hnested⟩
      exact ⟨schema, hschema, (lacksBound_iff _).mp hlacks, rfl⟩

/-- A property of a schema is reported once for its name, and a string once for lacking a bound,
at whatever depth below a root they stand; neither rule reports anything else. -/
theorem schema_contents_reported_once {rule : Rule} (block : RuleBlock) :
    (rule.id = .propertyCase →
        ReportsOnce (rule.check block document) (MisnamedPropertyPlace document)) ∧
      (rule.id = .stringBoundary →
        ReportsOnce (rule.check block document) (UnboundedStringPlace document)) := by
  constructor
  · intro hid
    exact reportsOnce_check hid (by decide) block (listsOnce_propertyCase hwf)
  · intro hid
    exact reportsOnce_check hid (by decide) block (listsOnce_stringBoundary hwf)

end WellFormed

/-- A document with a property of the items of a property. -/
def nestedDocument : Node :=
  .object [("components", .object [("schemas", .object [("Pet", .object [("properties", .object [
    ("owners", .object [("items", .object [("properties", .object [
      ("lastName", .object [("type", .string "string")])])])])])])])])]

/-- The path of its outermost schema. -/
def nestingRoot : DocPath := DocPath.keys [] ["components", "schemas", "Pet"]

/-- The path of the schema of the items. -/
def nestedItems : DocPath := (nestingRoot.keys ["properties", "owners"]).child (.key "items")

/-- The innermost property is reported once for its name and once for lacking a bound. -/
theorem reports_nestedDocument :
    (∃ v, ((standard .propertyCase).check {} nestedDocument).filter
        (·.path = nestedItems.keys ["properties", "lastName"]) = [v]) ∧
      ∃ v, ((standard .stringBoundary).check {} nestedDocument).filter
        (·.path = nestedItems.keys ["properties", "lastName"]) = [v] := by
  have hwf : nestedDocument.WellFormed := by
    simp [nestedDocument, Node.WellFormed, Node.WellFormedFields]
  have hnames : ReportsOnce ((standard .propertyCase).check {} nestedDocument)
      (MisnamedPropertyPlace nestedDocument) := (schema_contents_reported_once hwf {}).1 rfl
  have hbounds : ReportsOnce ((standard .stringBoundary).check {} nestedDocument)
      (UnboundedStringPlace nestedDocument) := (schema_contents_reported_once hwf {}).2 rfl
  obtain ⟨root, hroot, hpath⟩ : ∃ root ∈ Schema.roots nestedDocument, root.path = nestingRoot :=
    ⟨_, List.mem_cons_self, rfl⟩
  have hitems : ∀ path, NestedAt nestedDocument nestedItems path →
      NestedAt nestedDocument root.path path := by
    intro path hrest
    rw [hpath]
    have howners : NestedAt nestedDocument (nestingRoot.keys ["properties", "owners"]) path :=
      .held ⟨_, rfl, rfl⟩ (.value (by decide)) hrest
    exact .held ⟨_, rfl, rfl⟩ (.property "owners") howners
  have hobject : Schema.IsObjectAt nestedDocument nestedItems := ⟨_, rfl, rfl⟩
  have hproperty : Schema.IsObjectAt nestedDocument
      (nestedItems.keys ["properties", "lastName"]) := ⟨_, rfl, rfl⟩
  refine ⟨(hnames.once _).mpr ?_, (hbounds.once _).mpr ?_⟩
  · exact .intro hroot (hitems _ (.itself hobject)) rfl (by decide +kernel)
  · have hlacks : LacksBound (.object [("type", .string "string")]) :=
      (lacksBound_iff _).mpr (by decide +kernel)
    let property : Located :=
      ⟨nestedItems.keys ["properties", "lastName"], .object [("type", .string "string")]⟩
    have hchain : NestedAt nestedDocument root.path property.path :=
      hitems _ (.held hobject (.property "lastName") (.itself hproperty))
    exact .intro hroot hchain rfl hlacks

end Rule

end ApiLint
