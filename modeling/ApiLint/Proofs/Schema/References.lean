import ApiLint.Proofs.Schema.Role
set_option autoImplicit false

/-!
# References above roots

Schemas are looked for in no parameter, header, response or request body that is a
reference: every one of these on the way to a root is none.  This is not so for the other
objects on the way.  A path item, an operation or a media type object is entered even when
it carries `$ref`, and then roots stand below a reference.
-/

namespace ApiLint.Schema

variable {document : Node}

/-! ## Owners -/

/-- Where what owns schemas may stand: a parameter or header, a response or a request body. -/
def OwnerPlace (document : Node) (path : DocPath) : Prop :=
  ParameterPlace document path ∨ ResponsePlace path ∨ BodyPlace path

theorem OwnerPlace.isOwner {path : DocPath} (h : OwnerPlace document path) :
    (Role.of path).isOwner = true := by
  rcases h with hparameter | hresponse | hbody
  · rw [hparameter.role]
    rfl
  · rw [hresponse.role]
    rfl
  · rw [hbody.role]
    rfl

/-! ## Paths without a reference among the owners -/

/-- No owner on the way to the path, nor at it, is a reference. -/
def Unreferred (document : Node) (path : DocPath) : Prop :=
  ∀ owner, owner <+: path → (Role.of owner).isOwner = true → ¬ IsRefAt document owner

namespace Unreferred

variable {path : DocPath}

/-- Above a node of a known kind only such nodes stand, and they own no schemas. -/
theorem of_kind {kind : NodeKind} (h : Role.of path = .kind kind) :
    Unreferred document path := by
  rintro owner ⟨rest, rfl⟩ hrole
  obtain ⟨kind, hkind⟩ := Role.exists_kind_above h
  rw [hkind] at hrole
  exact absurd hrole (by simp [Role.isOwner])

/-- The last step leads to no owner, or to one that is no reference. -/
theorem child (h : Unreferred document path) {segment : Segment}
    (hlast : (Role.of (path.child segment)).isOwner = true →
      ¬ IsRefAt document (path.child segment)) :
    Unreferred document (path.child segment) := by
  intro owner howner hrole
  rcases List.prefix_concat_iff.mp howner with heq | habove
  · obtain rfl : owner = path.child segment := heq
    exact hlast hrole
  · exact h owner habove hrole

theorem step (h : Unreferred document path) {segment : Segment}
    (hrole : ((Role.of path).child segment).isOwner = false) :
    Unreferred document (path.child segment) := by
  refine h.child fun howner => ?_
  rw [Role.of_child, hrole] at howner
  exact absurd howner (by decide)

/-- A key of the document leads to no owner. -/
theorem topLevel {key : String} (hrole : ((Role.kind .root).child (.key key)).isOwner = false) :
    Unreferred document [.key key] := by
  have hroot : Unreferred document [] := .of_kind rfl
  exact hroot.step hrole

/-- A key of the components leads to no owner. -/
theorem componentSection {key : String}
    (hrole : ((Role.kind .components).child (.key key)).isOwner = false) :
    Unreferred document (DocPath.keys [] ["components", key]) := by
  have hcomponents : Unreferred document [.key "components"] := .of_kind rfl
  exact hcomponents.step hrole

/-- Below an owner stand the schemas of its media types. -/
theorem content (h : Unreferred document path) (hrole : (Role.of path).isOwner = true)
    (mediaType : String) : Unreferred document (path.keys ["content", mediaType, "schema"]) := by
  have hcontent : Role.of (path.child (.key "content")) = .content := by
    rw [Role.of_child, Role.child_content hrole]
  have hmediaType := Role.of_mediaType hrole mediaType
  simp only [DocPath.keys_cons, DocPath.keys_nil] at hmediaType ⊢
  refine ((h.step ?_).step ?_).step ?_
  · rw [Role.child_content hrole]
    rfl
  · rw [hcontent]
    rfl
  · rw [hmediaType]
    rfl

end Unreferred

theorem ResponsePlace.unreferred {path : DocPath} (h : ResponsePlace path)
    (href : ¬ IsRefAt document path) : Unreferred document path := by
  cases h with
  | @operation item method status hitem hmethod =>
    obtain ⟨m, hoperation⟩ := Role.exists_of_operation hitem hmethod
    have hresponses : Role.of (item.keys [method, "responses"]) = .kind .operationResponses := by
      rw [DocPath.keys_cons, Role.of_keys, hoperation]
      rfl
    have hway : Unreferred document (item.keys [method, "responses"]) := .of_kind hresponses
    simp only [DocPath.keys_cons, DocPath.keys_nil] at href hway ⊢
    exact hway.child fun _ => href
  | component name =>
    have hway : Unreferred document (DocPath.keys [] ["components", "responses"]) :=
      .componentSection rfl
    exact hway.child fun _ => href
  | topLevel name =>
    have hway : Unreferred document [.key "responses"] := .topLevel rfl
    exact hway.child fun _ => href

theorem ParameterPlace.unreferred {path : DocPath} (h : ParameterPlace document path)
    (href : ¬ IsRefAt document path) : Unreferred document path := by
  cases h with
  | @pathItem item position hitem =>
    have hrole := Role.of_pathItem hitem
    have hway : Unreferred document (item.keys ["parameters"]) :=
      (Unreferred.of_kind hrole).step (by rw [hrole]; rfl)
    exact hway.child fun _ => href
  | @operation item method position hitem hmethod =>
    obtain ⟨m, hoperation⟩ := Role.exists_of_operation hitem hmethod
    have hway : Unreferred document (item.keys [method, "parameters"]) := by
      simp only [DocPath.keys_cons, DocPath.keys_nil]
      exact (Unreferred.of_kind hoperation).step (by rw [hoperation]; rfl)
    exact hway.child fun _ => href
  | component name =>
    have hway : Unreferred document (DocPath.keys [] ["components", "parameters"]) :=
      .componentSection rfl
    exact hway.child fun _ => href
  | componentHeader name =>
    have hway : Unreferred document (DocPath.keys [] ["components", "headers"]) :=
      .componentSection rfl
    exact hway.child fun _ => href
  | topLevel name =>
    have hway : Unreferred document [.key "parameters"] := .topLevel rfl
    exact hway.child fun _ => href
  | @header response name hresponse hresponseRef =>
    have hway : Unreferred document (response.keys ["headers"]) :=
      (hresponse.unreferred hresponseRef).step (by rw [hresponse.role]; rfl)
    rw [DocPath.keys_cons] at href ⊢
    exact hway.child fun _ => href

theorem BodyPlace.unreferred {path : DocPath} (h : BodyPlace path)
    (href : ¬ IsRefAt document path) : Unreferred document path := by
  cases h with
  | @operation item method hitem hmethod =>
    obtain ⟨m, hoperation⟩ := Role.exists_of_operation hitem hmethod
    rw [DocPath.keys_cons] at href ⊢
    exact (Unreferred.of_kind hoperation).child fun _ => href
  | component name =>
    have hway : Unreferred document (DocPath.keys [] ["components", "requestBodies"]) :=
      .componentSection rfl
    exact hway.child fun _ => href

/-- On the way to the schema of a parameter or response no owner is a reference. -/
theorem unreferred_of_schemaOf {owner path : DocPath}
    (hrole : Role.of owner = .parameter ∨ Role.of owner = .response)
    (howner : ¬ IsRefAt document owner → Unreferred document owner)
    (h : SchemaOf document owner path) : Unreferred document path := by
  obtain ⟨href, rfl | ⟨mediaType, rfl⟩⟩ := h
  · refine (howner href).step ?_
    rw [Role.child_schema hrole]
    rfl
  · exact (howner href).content (Role.isOwner_of_or hrole) mediaType

/-- On the way to a root no owner is a reference. -/
theorem RootPlace.unreferred {path : DocPath} (h : RootPlace document path) :
    Unreferred document path := by
  cases h with
  | componentSchema name =>
    have hway : Unreferred document (DocPath.keys [] ["components", "schemas"]) :=
      .componentSection rfl
    exact hway.step rfl
  | definition name =>
    have hway : Unreferred document [.key "definitions"] := .topLevel rfl
    exact hway.step rfl
  | parameter howner hschema =>
    exact unreferred_of_schemaOf (.inl howner.role) howner.unreferred hschema
  | response howner hschema =>
    exact unreferred_of_schemaOf (.inr howner.role) howner.unreferred hschema
  | body howner hcontent =>
    obtain ⟨href, mediaType, rfl⟩ := hcontent
    refine (howner.unreferred href).content ?_ mediaType
    rw [howner.role]
    rfl

/-! ## Roots and references -/

/-- A parameter, header, response or request body above a root is no reference. -/
theorem not_isRefAt_of_above_root (hwf : document.WellFormed) {root : Located}
    (hroot : root ∈ roots document) {owner : DocPath} (howner : OwnerPlace document owner)
    (habove : owner <+: root.path) : ¬ IsRefAt document owner :=
  ((mem_roots_iff hwf root).mp hroot).2.unreferred owner habove howner.isOwner

/-- A document with a path item that is a reference beside its own parameters, and a media type
object that is a reference beside its own schema. -/
def besideReferenceDocument : Node :=
  .object [
    ("paths", .object [("/pets", .object [("$ref", .string "./pets.yaml"),
      ("parameters", .array [.object [("name", .string "limit"), ("in", .string "query"),
        ("schema", .object [("type", .string "integer")])]])])]),
    ("components", .object [("responses", .object [("Pets", .object [("content", .object [
      ("application/json", .object [("$ref", .string "#/x-media/Pets"),
        ("schema", .object [("type", .string "array")])])])])])])]

/-- The parameter of the referring path item is no reference itself. -/
theorem not_isRefAt_besideReference :
    ((roots besideReferenceDocument).map Located.path =
      [[.key "paths", .key "/pets", .key "parameters", .index 0, .key "schema"],
        DocPath.keys [] ["components", "responses", "Pets", "content", "application/json",
          "schema"]]) ∧
      ¬ IsRefAt besideReferenceDocument
        [.key "paths", .key "/pets", .key "parameters", .index 0] := by
  have hwf : besideReferenceDocument.WellFormed := by
    simp [besideReferenceDocument, Node.WellFormed, Node.WellFormedFields, Node.WellFormedItems]
  have hroots : (roots besideReferenceDocument).map Located.path =
      [[.key "paths", .key "/pets", .key "parameters", .index 0, .key "schema"],
        DocPath.keys [] ["components", "responses", "Pets", "content", "application/json",
          "schema"]] := by
    decide +kernel
  obtain ⟨root, hroot, hpath⟩ := List.mem_map.mp (hroots ▸ List.mem_cons_self)
  have howner : OwnerPlace besideReferenceDocument
      [.key "paths", .key "/pets", .key "parameters", .index 0] :=
    .inl (@ParameterPlace.pathItem besideReferenceDocument [.key "paths", .key "/pets"] 0 rfl)
  refine ⟨hroots, not_isRefAt_of_above_root hwf hroot howner ?_⟩
  rw [hpath]
  exact DocPath.prefix_child _ _

/-- Not every object above a root is free of `$ref`: path items and media type objects are entered
although they carry it. -/
theorem exists_reference_above_root :
    ¬ ∀ root ∈ roots besideReferenceDocument, ∀ above, above <+: root.path →
      above ≠ root.path → ¬ IsRefAt besideReferenceDocument above := by
  have hroots : (roots besideReferenceDocument).map Located.path =
      [[.key "paths", .key "/pets", .key "parameters", .index 0, .key "schema"],
        DocPath.keys [] ["components", "responses", "Pets", "content", "application/json",
          "schema"]] := by
    decide +kernel
  obtain ⟨root, hroot, hpath⟩ := List.mem_map.mp (hroots ▸ List.mem_cons_self)
  intro h
  refine h root hroot [.key "paths", .key "/pets"] ?_ ?_ ⟨_, rfl, rfl⟩
  · rw [hpath]
    exact ⟨[.key "parameters", .index 0, .key "schema"], rfl⟩
  · rw [hpath]
    decide

end ApiLint.Schema
