import ApiLint.Proofs.OpenApi.PathTemplates
import ApiLint.Proofs.Rule.FindingPaths
import ApiLint.Proofs.Schema.RequiredNames
import ApiLint.Proofs.Text.Lines
set_option autoImplicit false

/-!
# What findings quote

The path of a finding quotes keys of the document, and its message is a fixed text or ends
in a quotation: a placeholder or a segment of a path template, the name of a property, or a
required name.  So a finding is told on one line, unless a key of the document or a name in a
list of required names has a line feed.
-/

namespace ApiLint

/-! ## Placeholders -/

namespace Naming

/-- A placeholder is a text of one line, whatever the template. -/
theorem oneLine_of_mem_templateParameters {template name : String}
    (h : name ∈ templateParameters template) : Text.OneLine name :=
  ((exists_eq_assemble template).1 name h).oneLine

end Naming

/-! ## Documents of one-line names -/

/-- The keys of the node and the names in its list of required names are texts of one line. -/
structure Node.OneLine (node : Node) : Prop where
  keys : ∀ key ∈ Fields.keys node.fields, Text.OneLine key
  required : ∀ name ∈ Schema.requiredOf node, Text.OneLine name

namespace Node.Throughout

variable {document : Node} (h : document.Throughout Node.OneLine)
include h

theorem oneLine_of_mem_getFields? {key : String} {field : String × Node}
    (hfield : field ∈ (document.getFields? key).getD []) : Text.OneLine field.1 := by
  rw [Node.getD_getFields?] at hfield
  cases hget : document.get? key with
  | none =>
    rw [hget] at hfield
    exact absurd hfield List.not_mem_nil
  | some value =>
    rw [hget] at hfield
    have hvalue := h.of_mem_steps (Node.mem_steps_of_get? hget)
    exact hvalue.holds.keys _ (List.mem_map_of_mem hfield)

/-- A path in the document has keys of one line. -/
theorem oneLine_of_resolve {path : DocPath} {node : Node}
    (hpath : path.resolve document = some node) {key : String}
    (hkey : Segment.key key ∈ path) : Text.OneLine key := by
  induction path generalizing document with
  | nil => exact absurd hkey List.not_mem_nil
  | cons segment rest ih =>
    obtain ⟨next, hnext, hrest⟩ := Option.bind_eq_some_iff.mp hpath
    rcases List.mem_cons.mp hkey with rfl | hkey
    · have hget : document.get? key = some next := hnext
      rw [Node.get?_eq_get?_fields] at hget
      exact h.holds.keys key (List.mem_map_of_mem (Fields.mem_of_get?_eq_some hget))
    · exact ih (h.of_mem_steps (Node.mem_steps_of_step? hnext)) hrest hkey

end Node.Throughout

namespace Rule

/-! ## Messages -/

/-- The findings have messages of one line. -/
def OneLineMessages (findings : List Finding) : Prop :=
  ∀ finding ∈ findings, Text.OneLine finding.message

namespace OneLineMessages

variable {findings : List Finding}

theorem nil : OneLineMessages [] := fun _ h => absurd h List.not_mem_nil

theorem ite {c : Prop} [Decidable c] (h : OneLineMessages findings) :
    OneLineMessages (if c then findings else []) := by
  split
  · exact h
  · exact nil

theorem map {α : Type} {xs : List α} {f : α → Finding} (h : ∀ x ∈ xs, Text.OneLine (f x).message) :
    OneLineMessages (xs.map f) := List.forall_mem_map.mpr h

theorem flatMap {α : Type} {xs : List α} {f : α → List Finding}
    (h : ∀ x ∈ xs, OneLineMessages (f x)) : OneLineMessages (xs.flatMap f) :=
  List.forall_mem_flatMap.mpr h

end OneLineMessages

/-- A quotation behind a fixed text. -/
theorem oneLine_append {text quotation : String} (htext : Text.OneLine text)
    (hquotation : Text.OneLine quotation) : Text.OneLine (text ++ quotation) :=
  (Text.oneLine_append_iff _ _).mpr ⟨htext, hquotation⟩

/-! ### Fixed messages -/

theorem oneLine_inlineResponseSchema (document : Node) :
    OneLineMessages (inlineResponseSchema document) :=
  .flatMap fun _ _ => .ite (.map fun r _ => by dsimp only [inlineFinding]; decide)

theorem oneLine_stringBoundary (document : Node) : OneLineMessages (stringBoundary document) :=
  .map fun schema _ => by dsimp only [unboundedFinding]; decide

theorem oneLine_errorResponseSchema (document : Node) :
    OneLineMessages (errorResponseSchema document) :=
  .flatMap fun _ _ => .ite (.map fun r _ => by dsimp only [errorFinding]; decide)

theorem oneLine_operationTags (document : Node) : OneLineMessages (operationTags document) :=
  .map fun visit _ => by dsimp only [untaggedFinding]; decide

theorem oneLine_globalTagsFinding (path : DocPath) :
    Text.OneLine (globalTagsFinding path).message := by
  dsimp only [globalTagsFinding]
  decide

theorem oneLine_openapiTags (document : Node) : OneLineMessages (openapiTags document) := by
  intro finding h
  unfold openapiTags at h
  split at h
  · exact absurd h List.not_mem_nil
  · split at h
    · exact List.mem_singleton.mp h ▸ oneLine_globalTagsFinding _
    · exact List.mem_singleton.mp h ▸ oneLine_globalTagsFinding _

theorem oneLine_undefinedTags (defined : List String) (operation : DocPath) (position : Nat)
    (tags : List Node) : OneLineMessages (undefinedTags defined operation position tags) := by
  induction tags generalizing position with
  | nil => exact .nil
  | cons tag rest ih =>
    unfold undefinedTags
    split
    · split
      · exact ih (position + 1)
      · refine List.forall_mem_cons.mpr ⟨?_, ih (position + 1)⟩
        dsimp only [undefinedTagFinding]
        decide
    · exact ih (position + 1)

theorem oneLine_operationTagDefined (document : Node) :
    OneLineMessages (operationTagDefined document) :=
  .flatMap fun _ _ => .ite (oneLine_undefinedTags _ _ _ _)

theorem oneLine_noScriptTags (document : Node) : OneLineMessages (noScriptTags document) :=
  .map fun visit _ => by dsimp only [scriptFinding]; decide

/-! ### Messages with a quotation -/

theorem oneLine_missingOnItem (path : DocPath) {name : String} (h : Text.OneLine name) :
    Text.OneLine (missingOnItem path name).message :=
  oneLine_append (oneLine_append (by decide) h) (by decide)

theorem oneLine_missingOnOperation (path : DocPath) {name : String} (h : Text.OneLine name) :
    Text.OneLine (missingOnOperation path name).message :=
  oneLine_append (oneLine_append (by decide) h) (by decide)

theorem oneLine_pathParameters (missing duplicate : Option Severity) (document : Node) :
    ∀ entry ∈ pathParameters missing duplicate document, Text.OneLine entry.2.message := by
  intro entry h
  obtain ⟨⟨template, item⟩, _, h⟩ := List.mem_flatMap.mp h
  obtain ⟨_, ⟨_, h⟩ | ⟨_, h⟩⟩ := exists_of_mem_pathParametersAt h
  · obtain ⟨name, ⟨hname, _⟩, heq | ⟨_, _, heq⟩⟩ := exists_of_mem_missingParameters h <;> rw [heq]
    · exact oneLine_missingOnItem _ (Naming.oneLine_of_mem_templateParameters hname)
    · exact oneLine_missingOnOperation _ (Naming.oneLine_of_mem_templateParameters hname)
  · obtain ⟨_, _, _, _, _, heq⟩ := exists_of_mem_duplicateParameters h
    rw [heq]
    dsimp only [duplicateFinding]
    decide

section Quoted

variable {document : Node} (hwf : document.WellFormed) (h : document.Throughout Node.OneLine)
include h

theorem oneLine_pathSegmentCase : OneLineMessages (pathSegmentCase document) := by
  refine .flatMap fun entry hentry => .map fun segment hsegment => ?_
  have htemplate := h.oneLine_of_mem_getFields? (List.mem_of_mem_filter hentry)
  exact oneLine_append (by decide) (htemplate.of_mem_split (List.mem_of_mem_filter hsegment))

include hwf

theorem oneLine_propertyCase : OneLineMessages (propertyCase document) := by
  refine .flatMap fun schema hschema => .map fun name hname => ?_
  have hnode := h.of_resolve (Schema.standsIn_of_mem_all hwf hschema)
  obtain ⟨field, hfield, rfl⟩ := List.mem_map.mp (List.mem_of_mem_filter hname)
  exact oneLine_append (by decide) (hnode.oneLine_of_mem_getFields? hfield)

theorem oneLine_requiredPropertyMissing : OneLineMessages (requiredPropertyMissing document) := by
  refine .flatMap fun schema hschema => ?_
  have hstands := Schema.standsIn_of_mem_all hwf hschema
  have hnames := (h.of_resolve hstands).mono fun _ hnode => hnode.required
  unfold undefinedRequired
  split
  · exact .nil
  · refine .map fun name hname => oneLine_append (by decide) ?_
    exact Schema.of_mem_requiredOf_mergeAllOf (hstands.wellFormed hwf) hnames name
      (List.mem_of_mem_filter hname)

/-- In a document of one-line names, every finding has a message of one line. -/
theorem oneLine_message_gradedFindings (rule : Rule) (block : RuleBlock) :
    ∀ entry ∈ rule.gradedFindings block document, Text.OneLine entry.2.message := by
  intro entry hentry
  by_cases hid : rule.id = .pathParameters
  · rw [gradedFindings_pathParameters hid] at hentry
    exact oneLine_pathParameters _ _ _ entry hentry
  · rw [gradedFindings_of_ne hid] at hentry
    obtain ⟨finding, hfinding, rfl⟩ := List.mem_map.mp hentry
    have hmessages : OneLineMessages (findingsOf rule.id document) := by
      cases rule.id with
      | inlineResponseSchema => exact oneLine_inlineResponseSchema document
      | pathParameters => exact .nil
      | pathSegmentCase => exact oneLine_pathSegmentCase h
      | propertyCase => exact oneLine_propertyCase hwf h
      | requiredPropertyMissing => exact oneLine_requiredPropertyMissing hwf h
      | stringBoundary => exact oneLine_stringBoundary document
      | errorResponseSchema => exact oneLine_errorResponseSchema document
      | operationTags => exact oneLine_operationTags document
      | openapiTags => exact oneLine_openapiTags document
      | operationTagDefined => exact oneLine_operationTagDefined document
      | noScriptTags => exact oneLine_noScriptTags document
    exact hmessages finding hfinding

/-- In a document of one-line names, every finding has a path of one-line keys. -/
theorem oneLine_path_gradedFindings (rule : Rule) (block : RuleBlock) :
    ∀ entry ∈ rule.gradedFindings block document,
      ∀ key, Segment.key key ∈ entry.2.path → Text.OneLine key := by
  intro entry hentry key hkey
  obtain ⟨node, hnode⟩ := standsIn_gradedFindings hwf rule block entry hentry
  exact h.oneLine_of_resolve hnode hkey

end Quoted

end Rule

end ApiLint
