import ApiLint.Proofs.Schema.Payload
set_option autoImplicit false

/-!
# Schemas without payload

Collecting schemas and erasing keys that are not read commute, for each collector at the
roles of its owners.  So a document without such keys has the same schemas at the same
places in the same order, each of them without such keys.
-/

namespace ApiLint.Schema

/-! ## Collectors -/

/-- Below an owner of a role, a collector finds without the marked fields what it finds with them,
but for the marked fields inside. -/
def Commutes (marked : Marks) (role : Role) (collect : Located → List Located) : Prop :=
  ∀ owner : Located, owner.node.WellFormed → Role.of owner.path = role →
    collect (owner.erase marked) = (collect owner).map (Located.erase marked)

namespace Commutes

variable {marked : Marks} {role : Role} {collect other : Located → List Located}

theorem congr (h : Commutes marked role collect)
    (heq : ∀ owner : Located, owner.node.WellFormed → other owner = collect owner) :
    Commutes marked role other := by
  intro owner hwf hrole
  rw [heq owner hwf, heq (owner.erase marked) (hwf.erase marked owner.path), h owner hwf hrole]

theorem nothing : Commutes marked role fun _ => [] := fun _ _ _ => rfl

theorem itself : Commutes marked role fun owner => [owner] := fun _ _ _ => rfl

theorem append (h : Commutes marked role collect) (hother : Commutes marked role other) :
    Commutes marked role fun owner => collect owner ++ other owner := by
  intro owner hwf hrole
  dsimp only
  rw [h owner hwf hrole, hother owner hwf hrole, List.map_append]

theorem ite {c : Prop} [Decidable c] (h : c → Commutes marked role collect)
    (hother : ¬ c → Commutes marked role other) :
    Commutes marked role fun owner => if c then collect owner else other owner := by
  by_cases hc : c
  · simpa [hc] using h hc
  · simpa [hc] using hother hc

section Marks

variable (hmarks : MarksUnread marked)
include hmarks

theorem under {key : String} (hread : role.reads key = true)
    (h : Commutes marked (role.child (.key key)) collect) :
    Commutes marked role (Schema.under key collect) := by
  intro owner hwf hrole
  have hunmarked : marked owner.path key = false := hmarks.unmarked (hrole ▸ hread)
  unfold Schema.under Located.erase
  rw [Node.get?_erase marked owner.path owner.node hunmarked]
  cases hvalue : owner.node.get? key with
  | none => rfl
  | some value =>
    exact h ⟨owner.path.child (.key key), value⟩ (hwf.of_get? hvalue)
      (by rw [Role.of_child, hrole])

theorem underEach {keys : List String} {collect : String → Located → List Located}
    (h : ∀ key ∈ keys, role.reads key = true ∧
      Commutes marked (role.child (.key key)) (collect key)) :
    Commutes marked role (Schema.underEach keys collect) := by
  intro owner hwf hrole
  unfold Schema.underEach
  rw [List.map_flatMap]
  refine List.flatMap_congr fun key hkey => ?_
  obtain ⟨hread, hcollect⟩ := h key hkey
  exact under hmarks hread hcollect owner hwf hrole

theorem unlessRef (hread : role.reads "$ref" = true) (h : Commutes marked role collect) :
    Commutes marked role (Schema.unlessRef collect) := by
  intro owner hwf hrole
  have hunmarked : marked owner.path "$ref" = false := hmarks.unmarked (hrole ▸ hread)
  have href : isRef (owner.erase marked).node = isRef owner.node :=
    Node.hasKey_erase marked owner.path owner.node hunmarked
  unfold Schema.unlessRef
  rw [href]
  split
  · rfl
  · exact h owner hwf hrole

theorem byKey {collect : String → Located → List Located}
    (hread : ∀ key, role.reads key = true)
    (h : ∀ key, Commutes marked (role.child (.key key)) (collect key)) :
    Commutes marked role (Schema.byKey collect) := by
  intro owner hwf hrole
  have hfields : (owner.erase marked).node.fields = _ :=
    Node.fields_erase_of_unmarked marked owner.path owner.node fun key =>
      hmarks.unmarked (hrole ▸ hread key)
  unfold Schema.byKey
  rw [hfields, List.flatMap_map, List.map_flatMap]
  refine List.flatMap_congr fun field hfield => ?_
  exact h field.1 ⟨owner.path.child (.key field.1), field.2⟩ (hwf.of_mem_fields hfield)
    (by rw [Role.of_child, hrole])

theorem named (hread : ∀ key, role.reads key = true)
    (h : ∀ key, Commutes marked (role.child (.key key)) collect) :
    Commutes marked role (Schema.named collect) :=
  byKey hmarks hread h

end Marks

theorem located_eraseItems (path : DocPath) (position : Nat) (items : List Node) :
    located path position (Node.eraseItems marked path position items) =
      (located path position items).map (Located.erase marked) := by
  induction items generalizing position with
  | nil => rfl
  | cons item rest ih =>
    rw [Node.eraseItems, located, ih]
    rfl

theorem listed (h : ∀ position, Commutes marked (role.child (.index position)) collect) :
    Commutes marked role (Schema.listed collect) := by
  intro owner hwf hrole
  have hitems : (owner.erase marked).node.items = _ :=
    Node.items_erase marked owner.path owner.node
  have hpath : (owner.erase marked).path = owner.path := rfl
  unfold Schema.listed
  rw [hitems, hpath, located_eraseItems, List.flatMap_map, List.map_flatMap]
  refine List.flatMap_congr fun place hplace => ?_
  rw [located_eq_map] at hplace
  obtain ⟨⟨item, position⟩, hitem, rfl⟩ := List.mem_map.mp hplace
  exact h position _ (hwf.of_mem_items (List.fst_mem_of_mem_zipIdx hitem))
    (by rw [Role.of_child, hrole])

end Commutes

/-! ## The schemas of owners -/

section Owners

variable {marked : Marks} (hmarks : MarksUnread marked)
include hmarks

theorem commutes_content :
    Commutes marked .content (named (under "schema" fun schema => [schema])) :=
  .named hmarks (fun _ => rfl) fun _ => .under hmarks rfl .itself

theorem commutes_mediaTypes {role : Role} (hrole : role.isOwner = true) :
    Commutes marked role mediaTypes := by
  have hread : ∀ key, role.reads key = true := by
    cases role <;> first | exact fun _ => rfl | simp [Role.isOwner] at hrole
  have hcontent : Commutes marked (role.child (.key "content"))
      (named (under "schema" fun schema => [schema])) := by
    rw [Role.child_content hrole]
    exact commutes_content hmarks
  exact (Commutes.unlessRef hmarks (hread _) (.under hmarks (hread _) hcontent)).congr
    fun owner _ => mediaTypes_eq owner

theorem commutes_parameter : Commutes marked .parameter parameter := by
  have hschema : Commutes marked .parameter (under "schema" fun schema => [schema]) :=
    .under hmarks rfl .itself
  have hcontent : Commutes marked .parameter
      (under "content" (named (under "schema" fun schema => [schema]))) :=
    .under hmarks rfl (commutes_content hmarks)
  exact (Commutes.unlessRef hmarks rfl (hschema.append hcontent)).congr fun owner _ =>
    parameter_eq owner

theorem commutes_response : Commutes marked .response response := by
  have hkeys : ∀ key, Commutes marked (Role.response.child (.key key)) (responseAt key) := by
    intro key
    refine .ite (fun _ => .itself) fun _ => .ite ?_ fun _ => .ite ?_ fun _ => .nothing
    · rintro rfl
      exact .named hmarks (fun _ => rfl) fun _ => commutes_parameter hmarks
    · rintro rfl
      exact commutes_content hmarks
  exact (Commutes.unlessRef hmarks rfl (.byKey hmarks (fun _ => rfl) hkeys)).congr response_eq

theorem commutes_operation (method : Method) :
    Commutes marked (.kind (.operation method)) operation := by
  have hkeys : ∀ key,
      Commutes marked ((Role.kind (.operation method)).child (.key key)) (operationAt key) := by
    intro key
    refine .ite ?_ fun _ => .ite ?_ fun _ => .ite ?_ fun _ => .nothing
    · rintro rfl
      exact .listed fun _ => commutes_parameter hmarks
    · rintro rfl
      exact commutes_mediaTypes hmarks rfl
    · rintro rfl
      exact .named hmarks (fun _ => rfl) fun _ => commutes_response hmarks
  exact .byKey hmarks (fun _ => rfl) hkeys

theorem commutes_pathItem : Commutes marked (.kind .pathItem) pathItem := by
  have hkeys : ∀ key,
      Commutes marked ((Role.kind .pathItem).child (.key key)) (pathItemAt key) := by
    intro key
    refine .ite ?_ fun _ => .ite ?_ fun _ => .nothing
    · rintro rfl
      exact .listed fun _ => commutes_parameter hmarks
    · intro hkey
      obtain ⟨method, rfl⟩ := Method.exists_key_eq hkey
      have hchild : (Role.kind .pathItem).child (.key method.key) = .kind (.operation method) := by
        cases method <;> rfl
      rw [hchild]
      exact commutes_operation hmarks method
  exact .byKey hmarks (fun _ => rfl) hkeys

theorem commutes_components : Commutes marked (.kind .components) components := by
  have hkeys : ∀ key,
      Commutes marked ((Role.kind .components).child (.key key)) (componentAt key) := by
    intro key
    refine .ite ?_ fun _ => .ite ?_ fun _ => .ite ?_ fun _ => .ite ?_ fun _ => .ite ?_ fun _ =>
      .nothing
    · rintro rfl
      exact .named hmarks (fun _ => rfl) fun _ => .itself
    · rintro rfl
      exact .named hmarks (fun _ => rfl) fun _ => commutes_parameter hmarks
    · rintro rfl
      exact .named hmarks (fun _ => rfl) fun _ => commutes_parameter hmarks
    · rintro rfl
      exact .named hmarks (fun _ => rfl) fun _ => commutes_mediaTypes hmarks rfl
    · rintro rfl
      exact .named hmarks (fun _ => rfl) fun _ => commutes_response hmarks
  exact .byKey hmarks (fun _ => rfl) hkeys

/-- The top-level sections of the older layout. -/
theorem commutes_legacySections :
    Commutes marked .schemaMap (named fun schema => [schema]) ∧
      Commutes marked .parameterMap (named parameter) ∧
      Commutes marked .responseMap (named response) :=
  ⟨.named hmarks (fun _ => rfl) fun _ => .itself,
    .named hmarks (fun _ => rfl) fun _ => commutes_parameter hmarks,
    .named hmarks (fun _ => rfl) fun _ => commutes_response hmarks⟩

/-- The roots found at a visit. -/
theorem rootsAt_erase {place : Located} (hwf : place.node.WellFormed) :
    rootsAt (place.erase marked).visit = (rootsAt place.visit).map (Located.erase marked) := by
  have hpath : (place.erase marked).path = place.path := rfl
  obtain ⟨hschemas, hparameters, hresponses⟩ := commutes_legacySections hmarks
  rw [rootsAt_visit, rootsAt_visit, hpath]
  split
  · next hitem => exact commutes_pathItem hmarks place hwf (Role.of_pathItem hitem)
  · split
    · next hcomponents =>
      have hrole : Role.of place.path = .kind .components := by
        rw [Role.of_eq_kind (by simp [hcomponents]), hcomponents]
      exact commutes_components hmarks place hwf hrole
    · split
      · next heq => exact hschemas place hwf (by rw [heq]; rfl)
      · split
        · next heq => exact hparameters place hwf (by rw [heq]; rfl)
        · split
          · next heq => exact hresponses place hwf (by rw [heq]; rfl)
          · rfl

end Owners

/-! ## The roots of a document -/

/-- The roots found at the visits of the tree at a place. -/
def rootsBelow (place : Located) : List Located :=
  place.below.flatMap fun inner => rootsAt inner.visit

theorem rootsBelow_eq (place : Located) :
    rootsBelow place =
      rootsAt place.visit ++
        place.node.steps.flatMap fun s => rootsBelow ⟨place.path.child s.1, s.2⟩ := by
  rw [rootsBelow, Located.below_eq_cons, List.flatMap_cons, List.flatMap_assoc, Located.children,
    List.flatMap_map]
  rfl

theorem roots_eq_rootsBelow (document : Node) : roots document = rootsBelow ⟨[], document⟩ := by
  rw [roots, walkDocument, walk_eq_map_visit, List.flatMap_map]
  rfl

section Roots

variable {marked : Marks} (hmarks : MarksUnread marked)
include hmarks

/-- At and below a marked key no kind is known and no roots are found. -/
theorem rootsAt_eq_nil_of_marked {path : DocPath} {key : String}
    (hmarked : marked path key = true) {place : Located}
    (hbelow : path.child (.key key) <+: place.path) : rootsAt place.visit = [] := by
  obtain ⟨rest, hpath⟩ := hbelow
  rw [DocPath.child_append] at hpath
  have hother : NodeKind.of place.path = .other := by
    refine Role.kind_eq_other fun kind hkind => ?_
    rw [← hpath] at hkind
    obtain ⟨above, habove⟩ := Role.exists_kind_above hkind
    exact hmarks.ne_kind hmarked above habove
  have hpositive : 0 < path.length := by
    refine List.length_pos_iff.mpr ?_
    rintro rfl
    exact hmarks.ne_kind hmarked .root rfl
  have hlength : place.path.length ≠ 1 := by
    rw [← hpath, List.length_append, List.length_cons]
    omega
  rw [rootsAt, Located.visit, hother]
  exact if_neg hlength

theorem rootsBelow_erase {place : Located} (hwf : place.node.WellFormed) :
    rootsBelow (place.erase marked) = (rootsBelow place).map (Located.erase marked) := by
  obtain ⟨path, node⟩ := place
  induction node using Node.induction_steps generalizing path with
  | step node ih =>
    have hsteps : (Located.erase marked ⟨path, node⟩).node.steps = _ :=
      Node.steps_erase marked path node
    rw [rootsBelow_eq, rootsBelow_eq, rootsAt_erase hmarks hwf, hsteps, List.map_append,
      List.map_flatMap, List.flatMap_map]
    congr 1
    have hchildren : ∀ s ∈ node.steps,
        rootsBelow (Located.erase marked ⟨path.child s.1, s.2⟩) =
          (rootsBelow ⟨path.child s.1, s.2⟩).map (Located.erase marked) :=
      fun s hs => ih s hs _ (hwf.of_mem_steps hs)
    rw [← List.flatMap_congr hchildren]
    refine flatMap_filter_of_nil fun s hs hunmarked => ?_
    -- what is erased contributed no roots
    refine (hchildren s hs).trans ?_
    rw [List.map_eq_nil_iff, rootsBelow, List.flatMap_eq_nil_iff]
    intro inner hinner
    obtain ⟨segment, child⟩ := s
    cases segment with
    | index position => simp [Node.isMarkedStep] at hunmarked
    | key key =>
      exact rootsAt_eq_nil_of_marked hmarks (by simpa [Node.isMarkedStep] using hunmarked)
        (prefix_of_mem_preorder (hwf.of_mem_steps hs) hinner)

/-- Without marked fields a document has the same roots, but for the marked fields inside. -/
theorem roots_erase {document : Node} (hwf : document.WellFormed) :
    roots (document.erase marked []) = (roots document).map (Located.erase marked) := by
  have hplace : (Located.mk [] document).node.WellFormed := hwf
  rw [roots_eq_rootsBelow, roots_eq_rootsBelow]
  exact rootsBelow_erase hmarks hplace

/-! ## The schemas of a document -/

theorem commutes_heldUnder (keyword : String) :
    Commutes marked (Role.schema.child (.key keyword)) (heldUnder keyword) := by
  refine .ite ?_ fun _ => .ite (fun _ => .listed fun _ => .itself) fun _ => .itself
  rintro rfl
  exact .named hmarks (fun _ => rfl) fun _ => .itself

theorem commutes_children : Commutes marked .schema children := by
  have hread : ∀ keyword ∈ holdingKeywords, Role.schema.reads keyword = true := by decide
  have heach : Commutes marked .schema (underEach holdingKeywords heldUnder) :=
    .underEach hmarks fun keyword hkeyword =>
      ⟨hread keyword hkeyword, commutes_heldUnder hmarks keyword⟩
  exact heach.congr fun schema _ => children_eq schema

theorem subschemas_erase {document : Node} (hwf : document.WellFormed) {schema : Located}
    (h : schema.StandsIn document) (hrole : Role.of schema.path = .schema) :
    subschemas (schema.erase marked) = (subschemas schema).map (Located.erase marked) := by
  induction schema using induction_children with
  | step schema ih =>
    have hobject : (schema.erase marked).node.isObject = schema.node.isObject :=
      Node.isObject_erase marked schema.path schema.node
    rw [subschemas_eq, subschemas_eq, hobject]
    split
    · rw [commutes_children hmarks schema (h.wellFormed hwf) hrole, List.map_cons,
        List.map_flatMap, List.flatMap_map]
      congr 1
      refine List.flatMap_congr fun child hchild => ?_
      obtain ⟨hstands, hheld⟩ := ((collects_children hwf).mem_iff schema h child).mp hchild
      exact ih child hchild hstands (hheld.role hrole)
    · rfl

/-- Without marked fields a document has the same schemas, but for the marked fields inside. -/
theorem all_erase {document : Node} (hwf : document.WellFormed) :
    all (document.erase marked []) = (all document).map (Located.erase marked) := by
  rw [all, all, roots_erase hmarks hwf, List.flatMap_map, List.map_flatMap]
  refine List.flatMap_congr fun root hroot => ?_
  obtain ⟨hstands, hplace⟩ := (mem_roots_iff hwf root).mp hroot
  exact subschemas_erase hmarks hwf hstands hplace.role

end Roots

end ApiLint.Schema
