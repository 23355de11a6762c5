import ApiLint.Proofs.OpenApi.KindGrammar
import ApiLint.Proofs.Rule.FindingPaths
import ApiLint.Proofs.Schema.References
set_option autoImplicit false

/-!
# Reported response schemas and roots

The rules on response schemas find these schemas through the kinds of the walk, and the
roots of a document are found through its owners.  Both look below the same responses,
with one difference: the rules do not ask whether a response is a reference, so a schema
that stands beside the reference of a response is reported and is no root.  Every other
reported schema is a root.
-/

namespace ApiLint.Rule

open Schema (ResponsePlace IsRefAt)

variable {document : Node}

/-- What stands under a key of a map of responses stands where a response may stand. -/
theorem responsePlace_of_isResponses {responses : DocPath}
    (h : (NodeKind.of responses).isResponses = true) (status : String) :
    ResponsePlace (responses.child (.key status)) := by
  simp only [NodeKind.isResponses, Bool.or_eq_true, decide_eq_true_eq] at h
  rcases h with hoperation | hcomponent
  · obtain ⟨item, method, hitem, rfl⟩ :=
      (NodeKind.of_eq_operationResponses_iff responses).mp hoperation
    have hplace : ResponsePlace (item.keys [method.key, "responses", status]) :=
      .operation status hitem (Method.isOperationKey_key method)
    simpa [DocPath.keys_cons] using hplace
  · rw [(NodeKind.of_eq_iff_of_leads_components .componentResponses (by simp) _).mp hcomponent]
    exact .component status

/-- The schema of a response stands below the response's media type. -/
theorem path_of_mem_responseSchemas {responses : Located} {r : ResponseSchema}
    (h : r ∈ responseSchemas responses) :
    r.schema.path =
      (responses.path.child (.key r.status)).keys ["content", r.mediaType, "schema"] := by
  obtain ⟨⟨status, response⟩, _, h⟩ := List.mem_flatMap.mp h
  obtain ⟨⟨mediaType, content⟩, _, h⟩ := List.mem_flatMap.mp h
  dsimp only at h
  split at h
  · obtain rfl := List.mem_singleton.mp h
    exact DocPath.keys_cons _ _ _
  · exact absurd h List.not_mem_nil

/-- A finding of the rules on response schemas is made for a schema of visited responses. -/
theorem exists_responseSchema_of_mem_findings {id : RuleId}
    (hid : id = .inlineResponseSchema ∨ id = .errorResponseSchema) {finding : Finding}
    (h : finding ∈ findingsOf id document) :
    ∃ visit ∈ walkDocument document, visit.kind.isResponses = true ∧
      ∃ r ∈ responseSchemas ⟨visit.path, visit.node⟩, finding.path = r.schema.path := by
  rcases hid with rfl | rfl
  · obtain ⟨visit, hvisit, hfinding⟩ := List.mem_flatMap.mp h
    split at hfinding
    · next hkind =>
      obtain ⟨r, hr, rfl⟩ := List.mem_map.mp hfinding
      exact ⟨visit, hvisit, (Bool.and_eq_true_iff.mp hkind).1, r, List.mem_of_mem_filter hr, rfl⟩
    · exact absurd hfinding List.not_mem_nil
  · obtain ⟨visit, hvisit, hfinding⟩ := List.mem_flatMap.mp h
    split at hfinding
    · next hkind =>
      obtain ⟨r, hr, rfl⟩ := List.mem_map.mp hfinding
      exact ⟨visit, hvisit, by rw [hkind]; rfl, r, List.mem_of_mem_filter hr, rfl⟩
    · exact absurd hfinding List.not_mem_nil

section WellFormed

variable (hwf : document.WellFormed)
include hwf

/-- A schema below the media type of a response is a root exactly when the response is no
reference. -/
theorem exists_root_iff {response : DocPath} (hresponse : ResponsePlace response)
    {mediaType : String} {schema : Node}
    (hschema : (response.keys ["content", mediaType, "schema"]).resolve document = some schema) :
    (∃ root ∈ Schema.roots document,
        root.path = response.keys ["content", mediaType, "schema"]) ↔
      ¬ IsRefAt document response := by
  constructor
  · rintro ⟨root, hroot, hpath⟩
    refine Schema.not_isRefAt_of_above_root hwf hroot (.inr (.inl hresponse)) ?_
    rw [hpath]
    exact DocPath.prefix_keys _ _
  · intro href
    have hplace : Schema.RootPlace document (response.keys ["content", mediaType, "schema"]) :=
      .response hresponse ⟨href, .inr ⟨mediaType, rfl⟩⟩
    exact ⟨⟨_, schema⟩, (Schema.mem_roots_iff hwf _).mpr ⟨hschema, hplace⟩, rfl⟩

/-- Both rules on response schemas report below media types of responses, and what they report is
a root exactly when the response is no reference. -/
theorem exists_root_iff_of_mem_check {rule : Rule}
    (hid : rule.id = .inlineResponseSchema ∨ rule.id = .errorResponseSchema) {block : RuleBlock}
    {v : Violation} (hv : v ∈ rule.check block document) :
    ∃ (response : DocPath) (mediaType : String), ResponsePlace response ∧
      v.path = response.keys ["content", mediaType, "schema"] ∧
        ((∃ root ∈ Schema.roots document, root.path = v.path) ↔
          ¬ IsRefAt document response) := by
  have hne : rule.id ≠ .pathParameters := by
    rcases hid with h | h <;> simp [h]
  obtain ⟨⟨severity, finding⟩, hentry, rfl⟩ := List.mem_map.mp hv
  rw [gradedFindings_of_ne hne] at hentry
  obtain ⟨finding, hfinding, heq⟩ := List.mem_map.mp hentry
  obtain ⟨rfl, rfl⟩ := Prod.mk.inj heq
  obtain ⟨visit, hvisit, hkind, r, hr, hpath⟩ :=
    exists_responseSchema_of_mem_findings hid hfinding
  obtain ⟨place, hplace, rfl⟩ := (mem_walkDocument_iff hwf visit).mp hvisit
  have hresponse := responsePlace_of_isResponses hkind r.status
  have hschema := path_of_mem_responseSchemas hr
  have hstands := standsIn_responseSchemas hwf hplace r hr
  rw [Located.StandsIn, hschema] at hstands
  refine ⟨_, r.mediaType, hresponse, hpath.trans hschema, ?_⟩
  have hviolation : (finding.toViolation rule.id rule.severity).path = _ := hpath.trans hschema
  rw [hviolation]
  exact exists_root_iff hwf hresponse hstands

end WellFormed

/-- A document with two inline schemas of responses, one of them beside the reference of its
response. -/
def referringResponseDocument : Node :=
  .object [("paths", .object [("/pets", .object [("get", .object [("responses", .object [
    ("200", .object [("$ref", .string "#/components/responses/Pets"),
      ("content", .object [("application/json", .object [
        ("schema", .object [("type", .string "object")])])])]),
    ("404", .object [("content", .object [("application/json", .object [
      ("schema", .object [("type", .string "object")])])])])])])])])]

/-- Both schemas are reported. -/
theorem check_referringResponseDocument :
    ((standard .inlineResponseSchema).check {} referringResponseDocument).map Violation.path =
      [DocPath.keys [] ["paths", "/pets", "get", "responses", "200", "content",
          "application/json", "schema"],
        DocPath.keys [] ["paths", "/pets", "get", "responses", "404", "content",
          "application/json", "schema"]] := by
  decide

/-- The schema of the response that is no reference is a root. -/
theorem exists_root_notFoundResponse :
    ∃ v ∈ (standard .inlineResponseSchema).check {} referringResponseDocument,
      v.path = DocPath.keys [] ["paths", "/pets", "get", "responses", "404", "content",
        "application/json", "schema"] ∧
        ∃ root ∈ Schema.roots referringResponseDocument, root.path = v.path := by
  have hwf : referringResponseDocument.WellFormed := by
    simp [referringResponseDocument, Node.WellFormed, Node.WellFormedFields]
  obtain ⟨v, hv, hpath⟩ := List.mem_map.mp
    (check_referringResponseDocument ▸ List.mem_cons_of_mem _ List.mem_cons_self)
  refine ⟨v, hv, hpath, ?_⟩
  obtain ⟨response, mediaType, _, hbelow, hiff⟩ :=
    exists_root_iff_of_mem_check hwf (.inl rfl) hv
  rw [hiff]
  rintro ⟨node, hnode, href⟩
  have happend : response ++ ["content", mediaType, "schema"].map Segment.key =
      DocPath.keys [] ["paths", "/pets", "get", "responses", "404"] ++
        ["content", "application/json", "schema"].map Segment.key :=
    hbelow.symm.trans hpath
  obtain rfl := (List.append_inj' happend rfl).1
  obtain rfl := Option.some.inj hnode
  exact absurd href (by decide)

/-- The schema beside the reference is none: not every reported schema is a root. -/
theorem exists_reported_not_root :
    ¬ ∀ v ∈ (standard .inlineResponseSchema).check {} referringResponseDocument,
      ∃ root ∈ Schema.roots referringResponseDocument, root.path = v.path := by
  have hroots : (Schema.roots referringResponseDocument).map Located.path =
      [DocPath.keys [] ["paths", "/pets", "get", "responses", "404", "content",
        "application/json", "schema"]] := by
    decide +kernel
  obtain ⟨v, hv, hreported⟩ := List.mem_map.mp
    (check_referringResponseDocument ▸ List.mem_cons_self)
  intro h
  obtain ⟨root, hroot, hpath⟩ := h v hv
  have hmem := List.mem_map_of_mem (f := Located.path) hroot
  rw [hroots, hpath, hreported] at hmem
  exact absurd hmem (by decide)

end ApiLint.Rule
