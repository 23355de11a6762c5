import ApiLint.Proofs.Schema.Subschemas
set_option autoImplicit false

/-!
# How the paths of schemas end

A schema of a document stands under a name that the document chooses, under a keyword for
one schema, or at a position in a list of branches.  So the last two steps of its path are
of one of three forms, however deep it stands.
-/

namespace ApiLint.Schema

/-- The keywords with a map of schemas under names. -/
def namingKeywords : List String := ["properties", "schemas", "definitions"]

/-- The last steps of the path of a schema: a name in a map of schemas, a keyword with a schema, or
a position among branches. -/
inductive SchemaEnd : DocPath → Prop
  | named (above : DocPath) {keyword : String} (name : String)
      (hkeyword : keyword ∈ namingKeywords) : SchemaEnd (above.keys [keyword, name])
  | value {above : DocPath} {keyword : String} (habove : above ≠ [])
      (hkeyword : keyword ∈ "schema" :: valueKeywords) : SchemaEnd (above.child (.key keyword))
  | branch {above : DocPath} {keyword : String} (position : Nat) (habove : above ≠ [])
      (hkeyword : keyword ∈ branchKeywords) :
      SchemaEnd ((above.child (.key keyword)).child (.index position))

theorem SchemaEnd.ne_nil {path : DocPath} (h : SchemaEnd path) : path ≠ [] := by
  cases h <;> first | exact DocPath.child_ne_nil _ _ | exact DocPath.keys_cons_ne_nil _ _ _

/-! ## Owners and roots -/

theorem ResponsePlace.ne_nil {response : DocPath} (h : ResponsePlace response) :
    response ≠ [] := by
  cases h <;> exact DocPath.keys_cons_ne_nil _ _ _

theorem ParameterPlace.ne_nil {document : Node} {parameter : DocPath}
    (h : ParameterPlace document parameter) : parameter ≠ [] := by
  cases h <;> first | exact DocPath.child_ne_nil _ _ | exact DocPath.keys_cons_ne_nil _ _ _

/-- The schema of a media type stands under a keyword. -/
theorem schemaEnd_content (owner : DocPath) (mediaType : String) :
    SchemaEnd (owner.keys ["content", mediaType, "schema"]) := by
  have hvalue : SchemaEnd ((owner.keys ["content", mediaType]).child (.key "schema")) :=
    .value (DocPath.keys_cons_ne_nil _ _ _) List.mem_cons_self
  simpa [DocPath.keys, DocPath.child] using hvalue

theorem schemaEnd_of_schemaOf {document : Node} {owner path : DocPath} (howner : owner ≠ [])
    (h : SchemaOf document owner path) : SchemaEnd path := by
  obtain ⟨_, rfl | ⟨mediaType, rfl⟩⟩ := h
  · exact .value howner List.mem_cons_self
  · exact schemaEnd_content _ _

theorem schemaEnd_of_rootPlace {document : Node} {root : DocPath} (h : RootPlace document root) :
    SchemaEnd root := by
  cases h with
  | componentSchema name => exact .named [.key "components"] name (by decide)
  | definition name => exact .named [] name (by decide)
  | parameter howner hschema => exact schemaEnd_of_schemaOf howner.ne_nil hschema
  | response howner hschema => exact schemaEnd_of_schemaOf howner.ne_nil hschema
  | body _ hcontent =>
    obtain ⟨_, mediaType, rfl⟩ := hcontent
    exact schemaEnd_content _ _

/-! ## Schemas inside schemas -/

theorem schemaEnd_of_heldAt {schema path : DocPath} (hschema : schema ≠ [])
    (h : HeldAt schema path) : SchemaEnd path := by
  cases h with
  | property name => exact .named schema name (by decide)
  | value hkeyword => exact .value hschema (List.mem_cons_of_mem _ hkeyword)
  | branch position hkeyword => exact .branch position hschema hkeyword

/-- A chain of schemas that goes on ends with a schema that another one on the chain holds. -/
theorem NestedAt.eq_or_exists_heldAt {document : Node} {schema path : DocPath}
    (h : NestedAt document schema path) :
    path = schema ∨ ∃ holder, schema <+: holder ∧ HeldAt holder path := by
  induction h with
  | itself => exact .inl rfl
  | @held schema inner path _ hheld _ ih =>
    right
    rcases ih with rfl | ⟨holder, hholder, hlast⟩
    · exact ⟨schema, List.prefix_refl _, hheld⟩
    · exact ⟨holder, hheld.prefix_path.trans hholder, hlast⟩

/-- The path of every schema of a document ends in one of the three ways. -/
theorem schemaEnd_of_mem_all {document : Node} (hwf : document.WellFormed) {schema : Located}
    (h : schema ∈ all document) : SchemaEnd schema.path := by
  obtain ⟨_, root, hroot, hnested⟩ := (mem_all_iff hwf schema).mp h
  have hend := schemaEnd_of_rootPlace hroot
  rcases hnested.eq_or_exists_heldAt with hpath | ⟨holder, hholder, hheld⟩
  · rwa [hpath]
  · refine schemaEnd_of_heldAt ?_ hheld
    rintro rfl
    exact hend.ne_nil (List.prefix_nil.mp hholder)

end ApiLint.Schema
