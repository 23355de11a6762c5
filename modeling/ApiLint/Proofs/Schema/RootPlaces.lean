import ApiLint.Proofs.OpenApi.NodeKind
import ApiLint.Proofs.Schema.OwnerPlaces
import ApiLint.Proofs.Walk.Reachable
set_option autoImplicit false

/-!
# The places of root schemas

The roots of a document are the nodes at the paths of a grammar, `RootPlace`, that says
where schemas stand without following any collector: named schemas, and the schemas of
parameters, headers, request bodies and responses that are no references.  Every such
node is a root, every root is one, and no root lies on the path of another.
-/

namespace ApiLint.Schema

/-! ## The grammar -/

/-- Where a response may stand: in an operation of a path item, among the reusable responses, or
among those of the older layout. -/
inductive ResponsePlace : DocPath → Prop
  | operation {item : DocPath} {method : String} (status : String)
      (hitem : NodeKind.of item = .pathItem) (hmethod : Method.isOperationKey method = true) :
      ResponsePlace (item.keys [method, "responses", status])
  | component (name : String) : ResponsePlace (DocPath.keys [] ["components", "responses", name])
  | topLevel (name : String) : ResponsePlace (DocPath.keys [] ["responses", name])

/-- Where a parameter or header may stand: in a path item or one of its operations, among the
reusable parameters and headers, among the parameters of the older layout, or as a header of a
response that is no reference. -/
inductive ParameterPlace (document : Node) : DocPath → Prop
  | pathItem {item : DocPath} (position : Nat) (hitem : NodeKind.of item = .pathItem) :
      ParameterPlace document ((item.keys ["parameters"]).child (.index position))
  | operation {item : DocPath} {method : String} (position : Nat)
      (hitem : NodeKind.of item = .pathItem) (hmethod : Method.isOperationKey method = true) :
      ParameterPlace document ((item.keys [method, "parameters"]).child (.index position))
  | component (name : String) :
      ParameterPlace document (DocPath.keys [] ["components", "parameters", name])
  | componentHeader (name : String) :
      ParameterPlace document (DocPath.keys [] ["components", "headers", name])
  | topLevel (name : String) : ParameterPlace document (DocPath.keys [] ["parameters", name])
  | header {response : DocPath} (name : String) (hresponse : ResponsePlace response)
      (href : ¬ IsRefAt document response) :
      ParameterPlace document (response.keys ["headers", name])

/-- Where a request body may stand: in an operation of a path item or among the reusable ones. -/
inductive BodyPlace : DocPath → Prop
  | operation {item : DocPath} {method : String} (hitem : NodeKind.of item = .pathItem)
      (hmethod : Method.isOperationKey method = true) :
      BodyPlace (item.keys [method, "requestBody"])
  | component (name : String) :
      BodyPlace (DocPath.keys [] ["components", "requestBodies", name])

/-- Where a root schema may stand: under a name, or as a schema of an owner. -/
inductive RootPlace (document : Node) : DocPath → Prop
  | componentSchema (name : String) :
      RootPlace document (DocPath.keys [] ["components", "schemas", name])
  | definition (name : String) : RootPlace document (DocPath.keys [] ["definitions", name])
  | parameter {owner path : DocPath} (howner : ParameterPlace document owner)
      (hschema : SchemaOf document owner path) : RootPlace document path
  | response {owner path : DocPath} (howner : ResponsePlace owner)
      (hschema : SchemaOf document owner path) : RootPlace document path
  | body {owner path : DocPath} (howner : BodyPlace owner)
      (hcontent : ContentOf document owner path) : RootPlace document path

/-! ## The roots found at one visit -/

/-- A root found at the visit of an owner: at a path item, at the components, or at one of the
top-level sections of the older layout. -/
def FoundAt (document : Node) (owner path : DocPath) : Prop :=
  if NodeKind.of owner = .pathItem then PathItemOf document owner path
  else if NodeKind.of owner = .components then ComponentOf document owner path
  else if owner = [.key "definitions"] then ∃ name, path = owner.child (.key name)
  else if owner = [.key "parameters"] then
    ∃ name, SchemaOf document (owner.child (.key name)) path
  else if owner = [.key "responses"] then
    ∃ name, ResponseOf document (owner.child (.key name)) path
  else False

/-- The collectors of a visit, said by the path alone. -/
theorem rootsAt_visit (place : Located) :
    rootsAt place.visit =
      if NodeKind.of place.path = .pathItem then pathItem place
      else if NodeKind.of place.path = .components then components place
      else if place.path = [.key "definitions"] then named (fun schema => [schema]) place
      else if place.path = [.key "parameters"] then named parameter place
      else if place.path = [.key "responses"] then named response place
      else [] := by
  obtain ⟨path, node⟩ := place
  match path with
  | [] => rfl
  | [.index position] => rfl
  | [.key name] =>
    have hkind : NodeKind.of [.key name] = NodeKind.root.childKey name := rfl
    rw [rootsAt, Located.visit, hkind, NodeKind.childKey]
    by_cases hpaths : name = "paths"
    · simp [hpaths]
    · by_cases hcomponents : name = "components"
      · simp [hcomponents]
      · by_cases hwebhooks : name = "webhooks"
        · simp [hwebhooks]
        · simp [hpaths, hcomponents, hwebhooks, legacySection, DocPath.lastKey?, DocPath.last?,
            Segment.key?]
  | s :: t :: rest =>
    rw [rootsAt, Located.visit]
    cases NodeKind.of (s :: t :: rest) <;> simp

theorem collects_rootsAt {document : Node} (hwf : document.WellFormed) :
    Collects document (fun place => rootsAt place.visit) (FoundAt document) :=
  ((collects_pathItem hwf).ite (NodeKind.of · = .pathItem)
    ((collects_components hwf).ite (NodeKind.of · = .components)
      ((Collects.itself.named hwf).ite (· = [.key "definitions"])
        (((collects_parameter hwf).named hwf).ite (· = [.key "parameters"])
          (((collects_response hwf).named hwf).ite (· = [.key "responses"])
            .nothing))))).congr fun place _ => rootsAt_visit place

/-! ## The grammar and the visits -/

variable {document : Node}

theorem foundAt_pathItem {item : DocPath} (h : NodeKind.of item = .pathItem) (path : DocPath) :
    FoundAt document item path ↔ PathItemOf document item path := by
  rw [FoundAt, if_pos h]

theorem foundAt_components (path : DocPath) :
    FoundAt document [.key "components"] path ↔ ComponentOf document [.key "components"] path :=
  Iff.rfl

theorem foundAt_topLevelResponses (path : DocPath) :
    FoundAt document [.key "responses"] path ↔
      ∃ name, ResponseOf document [.key "responses", .key name] path :=
  Iff.rfl

/-- The schemas of a response are its own and those of its headers. -/
theorem responseOf_iff (response path : DocPath) :
    ResponseOf document response path ↔
      SchemaOf document response path ∨
        ¬ IsRefAt document response ∧
          ∃ name, SchemaOf document (response.keys ["headers", name]) path := by
  rw [ResponseOf, SchemaOf, ← and_or_left]
  refine and_congr_right fun _ => ?_
  constructor
  · rintro (hschema | hheader | hcontent)
    · exact .inl (.inl hschema)
    · exact .inr hheader
    · exact .inl (.inr hcontent)
  · rintro ((hschema | hcontent) | hheader)
    · exact .inl hschema
    · exact .inr (.inr hcontent)
    · exact .inr (.inl hheader)

theorem rootPlace_of_responseOf {response path : DocPath} (hresponse : ResponsePlace response)
    (h : ResponseOf document response path) : RootPlace document path := by
  rcases (responseOf_iff response path).mp h with hschema | ⟨href, name, hschema⟩
  · exact .response hresponse hschema
  · exact .parameter (.header name hresponse href) hschema

/-- What is found at a path item stands where the grammar says. -/
theorem rootPlace_of_pathItemOf {item path : DocPath} (hitem : NodeKind.of item = .pathItem)
    (h : PathItemOf document item path) : RootPlace document path := by
  rcases h with ⟨position, hschema⟩ | ⟨method, hmethod, hoperation⟩
  · exact .parameter (.pathItem position hitem) (by simpa [DocPath.keys_cons] using hschema)
  · rcases hoperation with ⟨position, hschema⟩ | hcontent | ⟨status, hresponse⟩
    · exact .parameter (.operation position hitem hmethod)
        (by simpa [DocPath.keys_cons] using hschema)
    · exact .body (.operation hitem hmethod) (by simpa [DocPath.keys_cons] using hcontent)
    · exact rootPlace_of_responseOf (.operation status hitem hmethod)
        (by simpa [DocPath.keys_cons] using hresponse)

/-- What is found at the components stands where the grammar says. -/
theorem rootPlace_of_componentOf {path : DocPath}
    (h : ComponentOf document [.key "components"] path) : RootPlace document path := by
  rcases h with ⟨name, rfl⟩ | ⟨name, hschema⟩ | ⟨name, hschema⟩ | ⟨name, hcontent⟩ |
    ⟨name, hresponse⟩
  · exact .componentSchema name
  · exact .parameter (.component name) hschema
  · exact .parameter (.componentHeader name) hschema
  · exact .body (.component name) hcontent
  · exact rootPlace_of_responseOf (.component name) hresponse

/-- What is found at a visit stands where the grammar says. -/
theorem rootPlace_of_foundAt {owner path : DocPath} (h : FoundAt document owner path) :
    RootPlace document path := by
  unfold FoundAt at h
  split at h
  · next hitem => exact rootPlace_of_pathItemOf hitem h
  · split at h
    · next hcomponents =>
      rw [(NodeKind.of_eq_components_iff owner).mp hcomponents] at h
      exact rootPlace_of_componentOf h
    · split at h
      · next howner =>
        obtain ⟨name, rfl⟩ := h
        subst howner
        exact .definition name
      · split at h
        · next howner =>
          obtain ⟨name, hschema⟩ := h
          subst howner
          exact .parameter (.topLevel name) hschema
        · split at h
          · next howner =>
            obtain ⟨name, hresponse⟩ := h
            subst howner
            exact rootPlace_of_responseOf (.topLevel name) hresponse
          · exact h.elim

/-- Below a place of a response, its schemas and those of its headers are found at a visit. -/
theorem exists_foundAt_of_responseOf {response path : DocPath}
    (hresponse : ResponsePlace response) (h : ResponseOf document response path) :
    ∃ owner, FoundAt document owner path := by
  cases hresponse with
  | @operation item method status hitem hmethod =>
    refine ⟨item, (foundAt_pathItem hitem path).mpr (.inr ⟨method, hmethod, ?_⟩)⟩
    exact .inr (.inr ⟨status, by simpa [DocPath.keys_cons] using h⟩)
  | component name =>
    refine ⟨[.key "components"], (foundAt_components path).mpr ?_⟩
    exact .inr (.inr (.inr (.inr ⟨name, h⟩)))
  | topLevel name =>
    exact ⟨[.key "responses"], (foundAt_topLevelResponses path).mpr ⟨name, h⟩⟩

/-- Every place of the grammar is found at a visit. -/
theorem exists_foundAt_of_rootPlace {path : DocPath} (h : RootPlace document path) :
    ∃ owner, FoundAt document owner path := by
  cases h with
  | componentSchema name => exact ⟨[.key "components"], .inl ⟨name, rfl⟩⟩
  | definition name => exact ⟨[.key "definitions"], name, rfl⟩
  | parameter howner hschema =>
    cases howner with
    | @pathItem item position hitem =>
      refine ⟨item, (foundAt_pathItem hitem path).mpr (.inl ⟨position, ?_⟩)⟩
      simpa [DocPath.keys_cons] using hschema
    | @operation item method position hitem hmethod =>
      refine ⟨item, (foundAt_pathItem hitem path).mpr (.inr ⟨method, hmethod, .inl ⟨position, ?_⟩⟩)⟩
      simpa [DocPath.keys_cons] using hschema
    | component name =>
      exact ⟨[.key "components"], (foundAt_components path).mpr (.inr (.inl ⟨name, hschema⟩))⟩
    | componentHeader name =>
      exact ⟨[.key "components"],
        (foundAt_components path).mpr (.inr (.inr (.inl ⟨name, hschema⟩)))⟩
    | topLevel name => exact ⟨[.key "parameters"], name, hschema⟩
    | header name hresponse href =>
      exact exists_foundAt_of_responseOf hresponse
        ((responseOf_iff _ path).mpr (.inr ⟨href, name, hschema⟩))
  | response howner hschema =>
    exact exists_foundAt_of_responseOf howner ((responseOf_iff _ path).mpr (.inl hschema))
  | body howner hcontent =>
    cases howner with
    | @operation item method hitem hmethod =>
      refine ⟨item, (foundAt_pathItem hitem path).mpr (.inr ⟨method, hmethod, .inr (.inl ?_)⟩)⟩
      simpa [DocPath.keys_cons] using hcontent
    | component name =>
      exact ⟨[.key "components"],
        (foundAt_components path).mpr (.inr (.inr (.inr (.inl ⟨name, hcontent⟩))))⟩

/-! ## The roots of a document -/

section Roots

variable (hwf : document.WellFormed)
include hwf

/-- A node is a root exactly when it stands in the document at a place of the grammar. -/
theorem mem_roots_iff (found : Located) :
    found ∈ roots document ↔ found.StandsIn document ∧ RootPlace document found.path := by
  have hcollects := collects_rootsAt hwf
  rw [roots, List.mem_flatMap]
  constructor
  · rintro ⟨v, hv, hfound⟩
    obtain ⟨owner, howner, rfl⟩ := (mem_walkDocument_iff hwf v).mp hv
    have hplace := (hcollects.mem_iff owner howner found).mp hfound
    exact ⟨hplace.1, rootPlace_of_foundAt hplace.2⟩
  · rintro ⟨hstands, hplace⟩
    obtain ⟨path, hfoundAt⟩ := exists_foundAt_of_rootPlace hplace
    obtain ⟨node, howner⟩ :=
      DocPath.exists_resolve_on_way (hcollects.below path found.path hfoundAt) hstands
    refine ⟨_, (mem_walkDocument_iff hwf _).mpr ⟨⟨path, node⟩, howner, rfl⟩, ?_⟩
    exact (hcollects.mem_iff ⟨path, node⟩ howner found).mpr ⟨hstands, hfoundAt⟩

omit hwf in
/-- Behind a step to a kind that meets no path item, none is met. -/
theorem exists_avoids_of_prefix {kind next : NodeKind} {segment : Segment} {owner path : DocPath}
    (hbelow : owner.child segment <+: path) (havoids : ∀ steps, NodeKind.Avoids next steps)
    (hchild : kind.child segment = next) (hnext : next ≠ .pathItem) :
    ∃ rest, path = owner ++ rest ∧ NodeKind.Avoids kind rest := by
  obtain ⟨rest, rfl⟩ := hbelow
  exact ⟨segment :: rest, DocPath.child_append _ _ _, .step hchild hnext (havoids rest)⟩

/-- From an operation no path item is met on the way to its schemas, nor behind them. -/
theorem avoids_of_operationOf (method : Method) {operation path : DocPath}
    (h : OperationOf document operation path) :
    ∃ rest, path = operation ++ rest ∧ NodeKind.Avoids (.operation method) rest := by
  rcases h with ⟨position, hschema⟩ | hcontent | ⟨status, hresponse⟩
  · have hbelow := (collects_parameter hwf).below _ _ hschema
    exact exists_avoids_of_prefix ((DocPath.prefix_child _ _).trans hbelow)
      NodeKind.avoids_other rfl (by decide)
  · have hbelow := (collects_mediaTypes hwf).below _ _ hcontent
    exact exists_avoids_of_prefix hbelow NodeKind.avoids_other rfl (by decide)
  · have hbelow := (collects_response hwf).below _ _ hresponse
    rw [DocPath.keys_cons] at hbelow
    exact exists_avoids_of_prefix ((DocPath.prefix_keys _ _).trans hbelow)
      NodeKind.avoids_operationResponses rfl (by decide)

/-- From a path item no other one is met on the way to its schemas, nor behind them. -/
theorem avoids_of_pathItemOf {item path : DocPath} (h : PathItemOf document item path) :
    ∃ rest, path = item ++ rest ∧ NodeKind.Avoids .pathItem rest := by
  rcases h with ⟨position, hschema⟩ | ⟨key, hkey, hoperation⟩
  · have hbelow := (collects_parameter hwf).below _ _ hschema
    exact exists_avoids_of_prefix ((DocPath.prefix_child _ _).trans hbelow)
      NodeKind.avoids_other rfl (by decide)
  · obtain ⟨method, hmethod⟩ := NodeKind.child_operationKey hkey
    obtain ⟨rest, rfl, havoids⟩ := avoids_of_operationOf hwf method hoperation
    exact ⟨.key key :: rest, DocPath.child_append _ _ _, .step hmethod (by simp) havoids⟩

/-- From the components no path item is met on the way to their schemas, nor behind them. -/
theorem avoids_of_componentOf {owner path : DocPath} (h : ComponentOf document owner path) :
    ∃ rest, path = owner ++ rest ∧ NodeKind.Avoids .components rest := by
  -- every section but the responses is of no known kind
  have hsection : ∀ keyword name : String, NodeKind.components.child (.key keyword) = .other →
      owner.keys [keyword, name] <+: path →
        ∃ rest, path = owner ++ rest ∧ NodeKind.Avoids .components rest := by
    intro keyword name hchild hbelow
    rw [DocPath.keys_cons] at hbelow
    exact exists_avoids_of_prefix ((DocPath.prefix_keys _ _).trans hbelow)
      NodeKind.avoids_other hchild (by decide)
  rcases h with ⟨name, rfl⟩ | ⟨name, hschema⟩ | ⟨name, hschema⟩ | ⟨name, hcontent⟩ |
    ⟨name, hresponse⟩
  · exact hsection "schemas" name rfl (List.prefix_refl _)
  · exact hsection "parameters" name rfl ((collects_parameter hwf).below _ _ hschema)
  · exact hsection "headers" name rfl ((collects_parameter hwf).below _ _ hschema)
  · exact hsection "requestBodies" name rfl ((collects_mediaTypes hwf).below _ _ hcontent)
  · have hbelow := (collects_response hwf).below _ _ hresponse
    rw [DocPath.keys_cons] at hbelow
    exact exists_avoids_of_prefix ((DocPath.prefix_keys _ _).trans hbelow)
      NodeKind.avoids_componentResponses rfl (by decide)

omit hwf in
/-- Roots are found at path items and at keys of the document. -/
theorem kind_of_foundAt {owner path : DocPath} (h : FoundAt document owner path) :
    NodeKind.of owner = .pathItem ∨ owner = [.key "components"] ∨
      NodeKind.of owner = .other ∧ owner.length = 1 := by
  unfold FoundAt at h
  split at h
  · next hitem => exact .inl hitem
  · split at h
    · next hcomponents => exact .inr (.inl ((NodeKind.of_eq_components_iff owner).mp hcomponents))
    · right
      right
      split at h
      · next howner => exact ⟨howner ▸ rfl, howner ▸ rfl⟩
      · split at h
        · next howner => exact ⟨howner ▸ rfl, howner ▸ rfl⟩
        · split at h
          · next howner => exact ⟨howner ▸ rfl, howner ▸ rfl⟩
          · exact h.elim

/-- From the owner of a found root no path item is met on the way to the root, nor behind it. -/
theorem avoids_of_foundAt {owner path : DocPath} (h : FoundAt document owner path) :
    ∃ rest, path = owner ++ rest ∧ NodeKind.Avoids (NodeKind.of owner) rest := by
  rcases kind_of_foundAt h with hitem | rfl | ⟨hother, _⟩
  · rw [foundAt_pathItem hitem] at h
    rw [hitem]
    exact avoids_of_pathItemOf hwf h
  · exact avoids_of_componentOf hwf ((foundAt_components path).mp h)
  · obtain ⟨rest, rfl⟩ := (collects_rootsAt hwf).below owner path h
    rw [hother]
    exact ⟨rest, rfl, NodeKind.avoids_other rest⟩

/-- An owner behind another one is met neither on the way to what is found at the first, nor
behind it. -/
theorem not_comparable_of_foundAt {owner steps p q : DocPath} (hsteps : steps ≠ [])
    (hp : FoundAt document owner p) (hq : FoundAt document (owner ++ steps) q) :
    ¬ (p <+: q ∨ q <+: p) := by
  intro hcomparable
  obtain ⟨rest, rfl, havoids⟩ := avoids_of_foundAt hwf hp
  have hbelow := (collects_rootsAt hwf).below _ _ hq
  have hsteps_rest : steps <+: rest ∨ rest <+: steps := by
    rcases hcomparable with hpq | hqp
    · simpa [List.prefix_append_right_inj] using List.prefix_or_prefix_of_prefix hbelow hpq
    · exact .inl ((List.prefix_append_right_inj owner).mp (hbelow.trans hqp))
  have hnot := havoids steps hsteps hsteps_rest
  rw [← NodeKind.of_append] at hnot
  -- the owner behind is no path item, so it is a key of the document and nothing is before it
  have hlength : (owner ++ steps).length = 1 := by
    rcases kind_of_foundAt hq with hitem | hcomponents | ⟨_, hone⟩
    · exact absurd hitem hnot
    · rw [hcomponents]
      rfl
    · exact hone
  have hpositive : 0 < steps.length := List.length_pos_iff.mpr hsteps
  rw [List.length_append] at hlength
  obtain rfl : owner = [] := List.length_eq_zero_iff.mp (by omega)
  exact absurd (kind_of_foundAt hp) (by decide)

/-- What is found at two visits diverges. -/
theorem diverge_of_foundAt {owner other p q : DocPath} (hne : owner ≠ other)
    (hp : FoundAt document owner p) (hq : FoundAt document other q) : DocPath.Diverge p q := by
  have hbelowP := (collects_rootsAt hwf).below _ _ hp
  have hbelowQ := (collects_rootsAt hwf).below _ _ hq
  have hnot : ¬ (p <+: q ∨ q <+: p) := by
    intro hcomparable
    have howners : owner <+: other ∨ other <+: owner := by
      rcases hcomparable with hpq | hqp
      · exact List.prefix_or_prefix_of_prefix (hbelowP.trans hpq) hbelowQ
      · exact List.prefix_or_prefix_of_prefix hbelowP (hbelowQ.trans hqp)
    rcases howners with ⟨steps, rfl⟩ | ⟨steps, rfl⟩
    · have hsteps : steps ≠ [] := by
        rintro rfl
        exact hne (List.append_nil owner).symm
      exact not_comparable_of_foundAt hwf hsteps hp hq hcomparable
    · have hsteps : steps ≠ [] := by
        rintro rfl
        exact hne (List.append_nil other)
      exact not_comparable_of_foundAt hwf hsteps hq hp hcomparable.symm
  exact ⟨fun h => hnot (.inl h), fun h => hnot (.inr h)⟩

/-- No root lies on the path of another. -/
theorem pairwise_diverge_roots :
    (roots document).Pairwise fun a b => a.path.Diverge b.path := by
  have hcollects := collects_rootsAt hwf
  rw [roots, List.pairwise_flatMap]
  constructor
  · intro v hv
    obtain ⟨owner, howner, rfl⟩ := (mem_walkDocument_iff hwf v).mp hv
    exact hcollects.diverge owner howner
  · apply (List.pairwise_map.mp (nodup_walkDocument hwf)).imp_of_mem
    intro v w hv hw hne a ha b hb
    obtain ⟨owner, howner, rfl⟩ := (mem_walkDocument_iff hwf v).mp hv
    obtain ⟨other, hother, rfl⟩ := (mem_walkDocument_iff hwf w).mp hw
    have hfoundA := ((hcollects.mem_iff owner howner a).mp ha).2
    have hfoundB := ((hcollects.mem_iff other hother b).mp hb).2
    exact diverge_of_foundAt hwf hne hfoundA hfoundB

/-- The roots are the nodes of the document at the places of the grammar, each once. -/
theorem roots_eq_rootPlaces :
    (∀ (path : DocPath) (node : Node), ⟨path, node⟩ ∈ roots document ↔
      path.resolve document = some node ∧ RootPlace document path) ∧
      ((roots document).map Located.path).Nodup := by
  constructor
  · intro path node
    exact mem_roots_iff hwf ⟨path, node⟩
  · rw [List.Nodup, List.pairwise_map]
    exact (pairwise_diverge_roots hwf).imp fun h => h.ne

end Roots

/-- A document with the schema of a response, a schema beside the reference of a parameter, and
the schema that the response refers to. -/
def referringDocument : Node :=
  .object [
    ("paths", .object [("/pets", .object [("get", .object [
      ("parameters", .array [.object [
        ("$ref", .string "#/components/parameters/Limit"), ("schema", .object [])]]),
      ("responses", .object [("200", .object [("content", .object [("application/json",
        .object [("schema", .object [("$ref", .string "#/components/schemas/Pet")])])])])])])])]),
    ("components", .object [("schemas", .object [
      ("Pet", .object [("type", .string "object")])])])]

/-- The schema of the response and the named schema are roots, that of the parameter is none, and
no root is twice. -/
theorem roots_referringDocument :
    (⟨DocPath.keys [] ["paths", "/pets", "get", "responses", "200", "content",
        "application/json", "schema"], .object [("$ref", .string "#/components/schemas/Pet")]⟩ ∈
      roots referringDocument ∧
    ⟨DocPath.keys [] ["components", "schemas", "Pet"], .object [("type", .string "object")]⟩ ∈
      roots referringDocument) ∧
    (∀ root ∈ roots referringDocument, root.path ≠
      [.key "paths", .key "/pets", .key "get", .key "parameters", .index 0, .key "schema"]) ∧
    ((roots referringDocument).map Located.path).Nodup := by
  have hwf : referringDocument.WellFormed := by
    simp [referringDocument, Node.WellFormed, Node.WellFormedFields, Node.WellFormedItems]
  obtain ⟨hiff, hnodup⟩ := roots_eq_rootPlaces hwf
  have hresponse :
      ResponsePlace (DocPath.keys [] ["paths", "/pets", "get", "responses", "200"]) :=
    @ResponsePlace.operation [.key "paths", .key "/pets"] "get" "200" rfl rfl
  have href : ¬ IsRefAt referringDocument
      (DocPath.keys [] ["paths", "/pets", "get", "responses", "200"]) := by
    rintro ⟨response, hresolve, href⟩
    obtain rfl := Option.some.inj hresolve
    exact absurd href (by decide)
  refine ⟨⟨(hiff _ _).mpr ⟨rfl, ?_⟩, (hiff _ _).mpr ⟨rfl, .componentSchema "Pet"⟩⟩, ?_, hnodup⟩
  · exact .response hresponse ⟨href, .inr ⟨"application/json", rfl⟩⟩
  · decide +kernel

end ApiLint.Schema
