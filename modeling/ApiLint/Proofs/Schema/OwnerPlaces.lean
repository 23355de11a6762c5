import ApiLint.Proofs.Schema.Collector
set_option autoImplicit false

/-!
# The schemas of owners

Where the schemas of a parameter, response, operation, path item or the components
stand, said relative to the path of the owner; a reference owns none.  Each collector of
`Schema.Roots` collects exactly the schemas at these places.
-/

namespace ApiLint.Schema

/-! ## The schemas of one owner -/

/-- A schema of the media types of an owner that is no reference. -/
def ContentOf (document : Node) (owner path : DocPath) : Prop :=
  ¬ IsRefAt document owner ∧ ∃ mediaType, path = owner.keys ["content", mediaType, "schema"]

/-- The schema of an owner that is no reference, or one of its media types. -/
def SchemaOf (document : Node) (owner path : DocPath) : Prop :=
  ¬ IsRefAt document owner ∧
    (path = owner.child (.key "schema") ∨
      ∃ mediaType, path = owner.keys ["content", mediaType, "schema"])

/-- A schema of a response that is no reference, or of one of its headers. -/
def ResponseOf (document : Node) (owner path : DocPath) : Prop :=
  ¬ IsRefAt document owner ∧
    (path = owner.child (.key "schema") ∨
      (∃ name, SchemaOf document (owner.keys ["headers", name]) path) ∨
      ∃ mediaType, path = owner.keys ["content", mediaType, "schema"])

/-- A schema of an operation. -/
def OperationOf (document : Node) (owner path : DocPath) : Prop :=
  (∃ position, SchemaOf document ((owner.child (.key "parameters")).child (.index position)) path) ∨
    ContentOf document (owner.child (.key "requestBody")) path ∨
    ∃ status, ResponseOf document (owner.keys ["responses", status]) path

/-- A schema of a path item. -/
def PathItemOf (document : Node) (owner path : DocPath) : Prop :=
  (∃ position, SchemaOf document ((owner.child (.key "parameters")).child (.index position)) path) ∨
    ∃ method, Method.isOperationKey method = true ∧
      OperationOf document (owner.child (.key method)) path

/-- A schema of the reusable components. -/
def ComponentOf (document : Node) (owner path : DocPath) : Prop :=
  (∃ name, path = owner.keys ["schemas", name]) ∨
    (∃ name, SchemaOf document (owner.keys ["parameters", name]) path) ∨
    (∃ name, SchemaOf document (owner.keys ["headers", name]) path) ∨
    (∃ name, ContentOf document (owner.keys ["requestBodies", name]) path) ∨
    ∃ name, ResponseOf document (owner.keys ["responses", name]) path

/-- A choice by key, said for each of the keys. -/
theorem exists_key_ite (name : String) {p q : String → Prop} (hq : ¬ q name) :
    (∃ key, if key = name then p key else q key) ↔ p name ∨ ∃ key, q key := by
  constructor
  · rintro ⟨key, hkey⟩
    split at hkey
    · next heq => exact .inl (heq ▸ hkey)
    · exact .inr ⟨key, hkey⟩
  · rintro (hname | ⟨key, hkey⟩)
    · exact ⟨name, by rwa [if_pos rfl]⟩
    · have hne : key ≠ name := by
        rintro rfl
        exact hq hkey
      exact ⟨key, by rwa [if_neg hne]⟩

section Collectors

variable {document : Node} (hwf : document.WellFormed)
include hwf

/-- The schema under one key of every value of a map. -/
theorem collects_namedSchemas :
    Collects document (named (under "schema" fun schema => [schema]))
      (fun owner path => ∃ name, path = owner.keys [name, "schema"]) :=
  ((Collects.itself.under "schema").named hwf).places_congr fun owner path => by
    simp [DocPath.keys_cons]

omit hwf in
theorem mediaTypes_eq (owner : Located) :
    mediaTypes owner =
      unlessRef (under "content" (named (under "schema" fun schema => [schema]))) owner := by
  unfold mediaTypes unlessRef under named Node.getFields? Node.fields
  split
  · rfl
  · cases owner.node.get? "content" with
    | none => rfl
    | some content =>
      simp only [DocPath.keys_cons, DocPath.keys_nil]
      rfl

theorem collects_mediaTypes : Collects document mediaTypes (ContentOf document) := by
  have hcontent := ((collects_namedSchemas hwf).under "content").unlessRef
  refine (hcontent.congr fun owner _ => mediaTypes_eq owner).places_congr fun owner path => ?_
  simp [ContentOf, DocPath.keys_cons]

omit hwf in
theorem parameter_eq (owner : Located) :
    parameter owner =
      unlessRef (fun owner => under "schema" (fun schema => [schema]) owner ++
        under "content" (named (under "schema" fun schema => [schema])) owner) owner := by
  unfold parameter
  rw [mediaTypes_eq]
  unfold unlessRef
  split
  · rfl
  · rfl

theorem collects_parameter : Collects document parameter (SchemaOf document) := by
  have hboth := ((Collects.itself.under "schema").append
    ((collects_namedSchemas hwf).under "content") ?_).unlessRef
  · refine (hboth.congr fun owner _ => parameter_eq owner).places_congr fun owner path => ?_
    simp [SchemaOf, DocPath.keys_cons]
  · rintro owner p q rfl ⟨name, rfl⟩
    exact DocPath.diverge_of_prefix_child (by decide) (List.prefix_refl _)
      (DocPath.prefix_keys _ _)

/-- What a response holds under a key. -/
def responseAt (key : String) (place : Located) : List Located :=
  if key = "schema" then [place]
  else if key = "headers" then named parameter place
  else if key = "content" then named (under "schema" fun schema => [schema]) place
  else []

omit hwf in
theorem response_eq (owner : Located) (howner : owner.node.WellFormed) :
    response owner = unlessRef (byKey responseAt) owner := by
  unfold response unlessRef byKey responseAt
  split
  · rfl
  · next href =>
    refine List.flatMap_congr fun field hfield => ?_
    have hget := howner.mem_fields_iff.mp hfield
    split
    · next hkey => rw [hkey]
    · split
      · next hkey => rw [hkey]
      · split
        · next hkey =>
          rw [hkey] at hget
          rw [mediaTypes_eq, unlessRef, if_neg href, under, hget, hkey]
        · rfl

theorem collects_response : Collects document response (ResponseOf document) := by
  have hkeys : ∀ key, Collects document (responseAt key) (fun owner path =>
      if key = "schema" then path = owner
      else if key = "headers" then ∃ name, SchemaOf document (owner.child (.key name)) path
      else if key = "content" then ∃ name, path = owner.keys [name, "schema"]
      else False) :=
    fun key => Collects.itself.ite (fun _ => key = "schema")
      (((collects_parameter hwf).named hwf).ite (fun _ => key = "headers")
        ((collects_namedSchemas hwf).ite (fun _ => key = "content") .nothing))
  refine (((Collects.byKey hwf hkeys).unlessRef).congr fun owner howner =>
    response_eq owner (howner.wellFormed hwf)).places_congr
    fun owner path => and_congr_right fun _ => ?_
  rw [exists_key_ite "schema" (by simp), exists_key_ite "headers" (by simp),
    exists_key_ite "content" (by simp)]
  simp [DocPath.keys_cons]

/-- What an operation holds under a key. -/
def operationAt (key : String) (place : Located) : List Located :=
  if key = "parameters" then listed parameter place
  else if key = "requestBody" then mediaTypes place
  else if key = "responses" then named response place
  else []

theorem collects_operation : Collects document operation (OperationOf document) := by
  have hkeys : ∀ key, Collects document (operationAt key) (fun owner path =>
      if key = "parameters" then
        ∃ position, SchemaOf document (owner.child (.index position)) path
      else if key = "requestBody" then ContentOf document owner path
      else if key = "responses" then ∃ name, ResponseOf document (owner.child (.key name)) path
      else False) :=
    fun key => ((collects_parameter hwf).listed hwf).ite (fun _ => key = "parameters")
      ((collects_mediaTypes hwf).ite (fun _ => key = "requestBody")
        (((collects_response hwf).named hwf).ite (fun _ => key = "responses") .nothing))
  refine (Collects.byKey hwf hkeys).places_congr fun owner path => ?_
  rw [exists_key_ite "parameters" (by simp), exists_key_ite "requestBody" (by simp),
    exists_key_ite "responses" (by simp)]
  simp [OperationOf, DocPath.keys_cons]

/-- What a path item holds under a key. -/
def pathItemAt (key : String) (place : Located) : List Located :=
  if key = "parameters" then listed parameter place
  else if Method.isOperationKey key then operation place
  else []

theorem collects_pathItem : Collects document pathItem (PathItemOf document) := by
  have hkeys : ∀ key, Collects document (pathItemAt key) (fun owner path =>
      if key = "parameters" then
        ∃ position, SchemaOf document (owner.child (.index position)) path
      else if Method.isOperationKey key = true then OperationOf document owner path
      else False) :=
    fun key => ((collects_parameter hwf).listed hwf).ite (fun _ => key = "parameters")
      ((collects_operation hwf).ite (fun _ => Method.isOperationKey key = true) .nothing)
  have hparameters : Method.isOperationKey "parameters" = false := by decide
  refine (Collects.byKey hwf hkeys).places_congr fun owner path => ?_
  rw [exists_key_ite "parameters" (by simp [hparameters])]
  simp [PathItemOf]

/-- What the reusable components hold under a key. -/
def componentAt (key : String) (place : Located) : List Located :=
  if key = "schemas" then named (fun schema => [schema]) place
  else if key = "parameters" then named parameter place
  else if key = "headers" then named parameter place
  else if key = "requestBodies" then named mediaTypes place
  else if key = "responses" then named response place
  else []

theorem collects_components : Collects document components (ComponentOf document) := by
  have hkeys : ∀ key, Collects document (componentAt key) (fun owner path =>
      if key = "schemas" then ∃ name, path = owner.child (.key name)
      else if key = "parameters" then ∃ name, SchemaOf document (owner.child (.key name)) path
      else if key = "headers" then ∃ name, SchemaOf document (owner.child (.key name)) path
      else if key = "requestBodies" then ∃ name, ContentOf document (owner.child (.key name)) path
      else if key = "responses" then ∃ name, ResponseOf document (owner.child (.key name)) path
      else False) :=
    fun key => (Collects.itself.named hwf).ite (fun _ => key = "schemas")
      (((collects_parameter hwf).named hwf).ite (fun _ => key = "parameters")
        (((collects_parameter hwf).named hwf).ite (fun _ => key = "headers")
          (((collects_mediaTypes hwf).named hwf).ite (fun _ => key = "requestBodies")
            (((collects_response hwf).named hwf).ite (fun _ => key = "responses") .nothing))))
  refine (Collects.byKey hwf hkeys).places_congr fun owner path => ?_
  rw [exists_key_ite "schemas" (by simp), exists_key_ite "parameters" (by simp),
    exists_key_ite "headers" (by simp), exists_key_ite "requestBodies" (by simp),
    exists_key_ite "responses" (by simp)]
  simp [ComponentOf, DocPath.keys_cons]

end Collectors

end ApiLint.Schema
