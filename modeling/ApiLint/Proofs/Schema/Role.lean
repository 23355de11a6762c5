import ApiLint.Proofs.Schema.Nesting
import Mathlib.Data.List.Induction
set_option autoImplicit false

/-!
# The role of a place

What stands at a path as far as schemas are concerned is decided step by step from the
root, like the kind of a node, and goes on where no kind is known any more: through the
owners of schemas to the schemas and the schemas inside them.  Every place of the grammars
of roots and of held schemas has its role, so places with different roles are different
places.
-/

namespace ApiLint.Schema

/-- What stands at a place as far as schemas are concerned. -/
inductive Role where
  /-- a construct of a known kind -/
  | kind (kind : NodeKind)
  | schemaMap
  | parameterMap
  | responseMap
  | bodyMap
  | parameterList
  | parameter
  | response
  | body
  | content
  | mediaType
  | schema
  | propertyMap
  | branchList
  /-- nothing that schemas are looked for in -/
  | inert
  deriving DecidableEq, Repr, Inhabited

namespace Role

/-- What a key leads to from a known kind, where it leads to no known kind. -/
def opened : NodeKind → String → Role
  | .root, key =>
    if key = "definitions" then schemaMap
    else if key = "parameters" then parameterMap
    else if key = "responses" then responseMap
    else inert
  | .components, key =>
    if key = "schemas" then schemaMap
    else if key = "parameters" ∨ key = "headers" then parameterMap
    else if key = "requestBodies" then bodyMap
    else inert
  | .pathItem, key => if key = "parameters" then parameterList else inert
  | .operation _, key =>
    if key = "parameters" then parameterList
    else if key = "requestBody" then body
    else inert
  | .operationResponses, _ => response
  | .componentResponses, _ => response
  | _, _ => inert

/-- What a keyword leads to from a schema. -/
def inside (keyword : String) : Role :=
  if keyword = "properties" then propertyMap
  else if keyword ∈ branchKeywords then branchList
  else if keyword ∈ valueKeywords then schema
  else inert

theorem inside_branchKeyword {keyword : String} (h : keyword ∈ branchKeywords) :
    inside keyword = branchList := by
  have hall : ∀ keyword ∈ branchKeywords, inside keyword = branchList := by decide
  exact hall keyword h

theorem inside_valueKeyword {keyword : String} (h : keyword ∈ valueKeywords) :
    inside keyword = schema := by
  have hall : ∀ keyword ∈ valueKeywords, inside keyword = schema := by decide
  exact hall keyword h

/-- The role of the child that a step leads to. -/
def child : Role → Segment → Role
  | kind k, .key key => if k.childKey key = .other then opened k key else kind (k.childKey key)
  | schemaMap, .key _ => schema
  | parameterMap, .key _ => parameter
  | responseMap, .key _ => response
  | bodyMap, .key _ => body
  | parameterList, .index _ => parameter
  | parameter, .key key =>
    if key = "schema" then schema else if key = "content" then content else inert
  | response, .key key =>
    if key = "schema" then schema
    else if key = "headers" then parameterMap
    else if key = "content" then content
    else inert
  | body, .key key => if key = "content" then content else inert
  | content, .key _ => mediaType
  | mediaType, .key key => if key = "schema" then schema else inert
  | schema, .key keyword => inside keyword
  | propertyMap, .key _ => schema
  | branchList, .index _ => schema
  | _, _ => inert

/-- The role of the place at a path. -/
def of (path : DocPath) : Role := path.foldl child (kind .root)

theorem of_append (p q : DocPath) : of (p ++ q) = q.foldl child (of p) := by
  rw [of, of, List.foldl_append]

theorem of_child (path : DocPath) (segment : Segment) :
    of (path.child segment) = (of path).child segment :=
  of_append path [segment]

theorem of_keys (path : DocPath) (names : List String) :
    of (path.keys names) = (names.map Segment.key).foldl child (of path) :=
  of_append path _

/-! ## Owners -/

/-- The roles of what owns schemas: parameters and headers, responses, request bodies. -/
def isOwner : Role → Bool
  | parameter => true
  | response => true
  | body => true
  | _ => false

/-- Every owner holds its media types below one key. -/
theorem child_content {role : Role} (h : role.isOwner = true) :
    role.child (.key "content") = content := by
  cases role <;> first | rfl | simp [isOwner] at h

theorem of_mediaType {owner : DocPath} (h : (of owner).isOwner = true) (name : String) :
    of (owner.keys ["content", name]) = mediaType := by
  rw [DocPath.keys_cons, of_keys, of_child, child_content h]
  rfl

/-- Below the media type of an owner its schema stands. -/
theorem of_mediaTypeSchema {owner : DocPath} (h : (of owner).isOwner = true) (name : String) :
    of (owner.keys ["content", name, "schema"]) = schema := by
  rw [DocPath.keys_cons, of_keys, of_child, child_content h]
  rfl

/-- Parameters and responses hold a schema of their own. -/
theorem child_schema {role : Role} (h : role = parameter ∨ role = response) :
    role.child (.key "schema") = schema := by
  rcases h with rfl | rfl
  · rfl
  · rfl

theorem isOwner_of_or {role : Role} (h : role = parameter ∨ role = response) :
    role.isOwner = true := by
  rcases h with rfl | rfl
  · rfl
  · rfl

/-! ## Known kinds -/

/-- Where the kind is known it is the role. -/
theorem of_eq_kind {path : DocPath} (h : NodeKind.of path ≠ .other) :
    of path = kind (NodeKind.of path) := by
  induction path using List.reverseRecOn with
  | nil => rfl
  | append_singleton above segment ih =>
    have hchild : NodeKind.of (above ++ [segment]) = (NodeKind.of above).child segment :=
      NodeKind.of_child above segment
    rw [hchild] at h ⊢
    have habove : NodeKind.of above ≠ .other := fun heq =>
      h (by rw [heq, NodeKind.child_other])
    have hrole : of (above ++ [segment]) = (of above).child segment := of_child above segment
    rw [hrole, ih habove]
    cases segment with
    | index position => exact absurd rfl h
    | key key => exact if_neg h

theorem of_pathItem {item : DocPath} (h : NodeKind.of item = .pathItem) :
    of item = kind .pathItem := by
  rw [of_eq_kind (by simp [h]), h]

/-- Only from a known kind a step leads to one. -/
theorem exists_kind_of_child {role : Role} {segment : Segment} {known : NodeKind}
    (h : role.child segment = kind known) : ∃ above, role = kind above := by
  cases role with
  | kind above => exact ⟨above, rfl⟩
  | parameter | response | body | mediaType | schema =>
    cases segment with
    | key key =>
      simp only [child, inside] at h
      split_ifs at h
    | index position => cases h
  | _ => cases segment <;> cases h

/-- Above a node of a known kind only such nodes stand. -/
theorem exists_kind_above {path rest : DocPath} {known : NodeKind}
    (h : of (path ++ rest) = kind known) : ∃ above, of path = kind above := by
  induction rest using List.reverseRecOn generalizing known with
  | nil => exact ⟨known, by simpa using h⟩
  | append_singleton steps segment ih =>
    have hchild : of (path ++ (steps ++ [segment])) = (of (path ++ steps)).child segment := by
      rw [← List.append_assoc]
      exact of_child (path ++ steps) segment
    obtain ⟨above, habove⟩ := exists_kind_of_child (hchild.symm.trans h)
    exact ih habove

/-- A place with another role than a kind is of no known kind. -/
theorem kind_eq_other {path : DocPath} (h : ∀ kind, of path ≠ .kind kind) :
    NodeKind.of path = .other := by
  by_contra hother
  exact h _ (of_eq_kind hother)

/-- Below a method of a path item stands an operation. -/
theorem exists_of_operation {item : DocPath} (hitem : NodeKind.of item = .pathItem)
    {method : String} (hmethod : Method.isOperationKey method = true) :
    ∃ m, of (item.child (.key method)) = kind (.operation m) := by
  obtain ⟨m, hm⟩ := NodeKind.child_operationKey hmethod
  have hoperation : NodeKind.of (item.child (.key method)) = .operation m := by
    rw [NodeKind.of_child, hitem, hm]
  exact ⟨m, by rw [of_eq_kind (by simp [hoperation]), hoperation]⟩

/-! ## Below a path item -/

theorem foldl_child_inert (path : DocPath) : path.foldl child inert = inert := by
  induction path with
  | nil => rfl
  | cons segment rest ih =>
    have hchild : inert.child segment = inert := by cases segment <;> rfl
    rw [List.foldl_cons, hchild, ih]

/-- From a path item only the keys of operations and that of its parameters lead on. -/
theorem exists_key_below_item {item rest : DocPath} (hitem : of item = kind .pathItem)
    (hrest : rest ≠ []) (h : of (item ++ rest) ≠ inert) :
    ∃ name after, rest = .key name :: after ∧
      (Method.isOperationKey name = true ∨ name = "parameters") := by
  cases rest with
  | nil => exact absurd rfl hrest
  | cons segment after =>
    rw [of_append, hitem, List.foldl_cons] at h
    cases segment with
    | index position => exact absurd (foldl_child_inert after) h
    | key name =>
      refine ⟨name, after, rfl, ?_⟩
      by_contra hname
      obtain ⟨hoperation, hparameters⟩ := not_or.mp hname
      have hnone : Method.ofKey? name = none := by
        simpa [Method.isOperationKey] using hoperation
      have hinert : (kind .pathItem).child (.key name) = inert := by
        simp [child, NodeKind.childKey, hnone, opened, hparameters]
      exact h (by rw [hinert, foldl_child_inert])

/-- Only the keys of operations lead from a path item to a place of a known kind. -/
theorem exists_operationKey_below_item {item rest : DocPath} {known : NodeKind}
    (hitem : of item = kind .pathItem) (hrest : rest ≠ [])
    (h : of (item ++ rest) = kind known) :
    ∃ name after, rest = .key name :: after ∧ Method.isOperationKey name = true := by
  obtain ⟨name, after, rfl, hoperation | rfl⟩ :=
    exists_key_below_item hitem hrest (by rw [h]; simp)
  · exact ⟨name, after, rfl, hoperation⟩
  · have hparameters : of (item.child (.key "parameters")) = parameterList := by
      rw [of_child, hitem]
      rfl
    rw [← DocPath.child_append] at h
    obtain ⟨above, habove⟩ := exists_kind_above h
    exact absurd (hparameters.symm.trans habove) (by simp)

end Role

/-! ## The roles of the places of the grammars -/

theorem ResponsePlace.role {path : DocPath} (h : ResponsePlace path) :
    Role.of path = .response := by
  cases h with
  | operation status hitem hmethod =>
    obtain ⟨m, hoperation⟩ := Role.exists_of_operation hitem hmethod
    rw [DocPath.keys_cons, Role.of_keys, hoperation]
    rfl
  | component name => rfl
  | topLevel name => rfl

theorem ParameterPlace.role {document : Node} {path : DocPath} (h : ParameterPlace document path) :
    Role.of path = .parameter := by
  cases h with
  | pathItem position hitem =>
    rw [Role.of_child, Role.of_keys, Role.of_pathItem hitem]
    rfl
  | operation position hitem hmethod =>
    obtain ⟨m, hoperation⟩ := Role.exists_of_operation hitem hmethod
    rw [Role.of_child, DocPath.keys_cons, Role.of_keys, hoperation]
    rfl
  | component name => rfl
  | componentHeader name => rfl
  | topLevel name => rfl
  | header name hresponse _ =>
    rw [Role.of_keys, hresponse.role]
    rfl

theorem BodyPlace.role {path : DocPath} (h : BodyPlace path) : Role.of path = .body := by
  cases h with
  | operation hitem hmethod =>
    obtain ⟨m, hoperation⟩ := Role.exists_of_operation hitem hmethod
    rw [DocPath.keys_cons, Role.of_keys, hoperation]
    rfl
  | component name => rfl

/-- Below a parameter or a response its schemas stand. -/
theorem SchemaOf.role {document : Node} {owner path : DocPath} (h : SchemaOf document owner path)
    (howner : Role.of owner = .parameter ∨ Role.of owner = .response) :
    Role.of path = .schema := by
  obtain ⟨_, rfl | ⟨mediaType, rfl⟩⟩ := h
  · rw [Role.of_child, Role.child_schema howner]
  · exact Role.of_mediaTypeSchema (Role.isOwner_of_or howner) mediaType

theorem RootPlace.role {document : Node} {path : DocPath} (h : RootPlace document path) :
    Role.of path = .schema := by
  cases h with
  | componentSchema name => rfl
  | definition name => rfl
  | parameter howner hschema => exact hschema.role (.inl howner.role)
  | response howner hschema => exact hschema.role (.inr howner.role)
  | body howner hcontent =>
    obtain ⟨_, mediaType, rfl⟩ := hcontent
    exact Role.of_mediaTypeSchema (by rw [howner.role]; rfl) mediaType

theorem HeldAt.role {schema path : DocPath} (h : HeldAt schema path)
    (hschema : Role.of schema = .schema) : Role.of path = .schema := by
  cases h with
  | property name =>
    rw [Role.of_keys, hschema]
    rfl
  | value hkeyword =>
    rw [Role.of_child, hschema]
    exact Role.inside_valueKeyword hkeyword
  | branch position hkeyword =>
    rw [Role.of_child, Role.of_child, hschema, Role.child, Role.inside_branchKeyword hkeyword]
    rfl

theorem NestedAt.role {document : Node} {schema path : DocPath}
    (h : NestedAt document schema path) (hschema : Role.of schema = .schema) :
    Role.of path = .schema := by
  induction h with
  | itself => exact hschema
  | held _ hheld _ ih => exact ih (hheld.role hschema)

end ApiLint.Schema
