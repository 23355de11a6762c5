import ApiLint.Proofs.Node.Erasure
import ApiLint.Proofs.Schema.References
import ApiLint.Proofs.Schema.Subschemas
set_option autoImplicit false

/-!
# Payload

Beside its schema a media type object holds examples and encodings, and beside the
keywords that rules look at a schema holds examples, defaults and extensions, with any
values, also such as look like parts of a document.  These keys are the payload.  What
stands at a key of the payload is never a schema of the document, nor on the way to one.
-/

namespace ApiLint.Schema

/-! ## Keys that are read -/

/-- The keywords of a schema that rules on schemas look at. -/
def readKeywords : List String :=
  ["properties", "additionalProperties", "items", "allOf", "oneOf", "anyOf", "not", "required",
    "type", "format", "enum", "maxLength", "$ref"]

/-- Whether a key is looked at where it stands. -/
def Role.reads : Role → String → Bool
  | mediaType, key => key = "schema"
  | schema, keyword => readKeywords.contains keyword
  | _, _ => true

/-- A media type object of a parameter, header, response or request body that is no reference
may stand at the path. -/
def MediaTypePlace (document : Node) (path : DocPath) : Prop :=
  ∃ (owner : DocPath) (mediaType : String), OwnerPlace document owner ∧
    ¬ IsRefAt document owner ∧ path = owner.keys ["content", mediaType]

/-- A key is payload: one of a media type object other than its schema, or a keyword of a schema
of the document that rules do not look at. -/
def IsPayload (document : Node) (path : DocPath) (key : String) : Prop :=
  MediaTypePlace document path ∧ key ≠ "schema" ∨
    (∃ schema ∈ all document, schema.path = path) ∧ key ∉ readKeywords

theorem MediaTypePlace.role {document : Node} {path : DocPath} (h : MediaTypePlace document path) :
    Role.of path = .mediaType := by
  obtain ⟨owner, mediaType, howner, _, rfl⟩ := h
  exact Role.of_mediaType howner.isOwner mediaType

theorem role_of_mem_all {document : Node} (hwf : document.WellFormed) {schema : Located}
    (h : schema ∈ all document) : Role.of schema.path = .schema := by
  obtain ⟨_, root, hroot, hnested⟩ := (mem_all_iff hwf schema).mp h
  exact hnested.role hroot.role

/-- Payload is not read. -/
theorem IsPayload.not_reads {document : Node} (hwf : document.WellFormed) {path : DocPath}
    {key : String} (h : IsPayload document path key) : (Role.of path).reads key = false := by
  rcases h with ⟨hplace, hkey⟩ | ⟨⟨schema, hschema, rfl⟩, hkey⟩
  · rw [hplace.role, Role.reads, decide_eq_false hkey]
  · rw [role_of_mem_all hwf hschema, Role.reads]
    simpa using hkey

/-! ## Marks on what is not read -/

/-- Only keys that are not read are marked. -/
def MarksUnread (marked : Marks) : Prop :=
  ∀ path key, marked path key = true → (Role.of path).reads key = false

namespace MarksUnread

variable {marked : Marks} (h : MarksUnread marked)
include h

theorem unmarked {path : DocPath} {key : String} (hread : (Role.of path).reads key = true) :
    marked path key = false := by
  by_contra hmarked
  have hunread := h path key (by simpa using hmarked)
  rw [hread] at hunread
  exact absurd hunread (by decide)

/-- Marked keys are met at schemas and media type objects alone, where no kind is known. -/
theorem ne_kind {path : DocPath} {key : String} (hmarked : marked path key = true)
    (kind : NodeKind) : Role.of path ≠ .kind kind := by
  intro hkind
  have hunread := h path key hmarked
  rw [hkind] at hunread
  exact Bool.noConfusion (hunread : true = false)

end MarksUnread

end ApiLint.Schema
