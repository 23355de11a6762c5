import ApiLint.Proofs.Schema.Composition
import ApiLint.Proofs.Schema.Subschemas
set_option autoImplicit false

/-!
# Places in documents with one outline

In documents with one outline a walk visits the same paths, and the schemas of the
documents stand at the same paths, with one outline at each.  Only the order in which the
places are met may differ.
-/

namespace ApiLint

/-- What is seen of a place: its path and the outline of its node. -/
def Located.view (place : Located) : DocPath × (DocPath → Option Node) :=
  (place.path, place.node.outline)

namespace Schema

variable {a b : Node}

/-! ## Paths to references and objects -/

section Paths

variable (h : a.outline = b.outline)
include h

/-- A path leads to nodes that agree on what depends on outlines alone. -/
theorem exists_resolve_iff {p : Node → Bool}
    (hp : ∀ x y : Node, x.outline = y.outline → p x = p y) (path : DocPath) :
    (∃ node, path.resolve a = some node ∧ p node = true) ↔
      ∃ node, path.resolve b = some node ∧ p node = true := by
  obtain ⟨ha, hb⟩ | ⟨x, y, ha, hb, hxy⟩ :=
    (Node.map_outline_eq_iff _ _).mp (Node.map_outline_resolve h path)
  · rw [ha, hb]
  · simp [ha, hb, hp x y hxy]

theorem isRefAt_eq_of_outline : IsRefAt a = IsRefAt b :=
  funext fun path => propext (exists_resolve_iff h (fun _ _ => isRef_eq_of_outline) path)

theorem isObjectAt_eq_of_outline : IsObjectAt a = IsObjectAt b :=
  funext fun path => propext (exists_resolve_iff h (fun _ _ => Node.isObject_eq_of_outline) path)

end Paths

/-- The grammar of root places depends on what is a reference alone. -/
theorem RootPlace.of_isRefAt_eq (h : IsRefAt a = IsRefAt b) {path : DocPath}
    (hplace : RootPlace a path) : RootPlace b path := by
  have hschemaOf : SchemaOf a = SchemaOf b := by
    funext owner path
    rw [SchemaOf, SchemaOf, h]
  have hparameterPlace : ∀ owner, ParameterPlace a owner → ParameterPlace b owner := by
    intro owner howner
    cases howner with
    | pathItem position hitem => exact .pathItem position hitem
    | operation position hitem hmethod => exact .operation position hitem hmethod
    | component name => exact .component name
    | componentHeader name => exact .componentHeader name
    | topLevel name => exact .topLevel name
    | header name hresponse href => exact .header name hresponse (h ▸ href)
  cases hplace with
  | componentSchema name => exact .componentSchema name
  | definition name => exact .definition name
  | parameter howner hschema => exact .parameter (hparameterPlace _ howner) (hschemaOf ▸ hschema)
  | response howner hschema => exact .response howner (hschemaOf ▸ hschema)
  | body howner hcontent =>
    refine .body howner ?_
    rwa [ContentOf, ← h]

theorem NestedAt.of_isObjectAt_eq (h : IsObjectAt a = IsObjectAt b) {schema path : DocPath}
    (hnested : NestedAt a schema path) : NestedAt b schema path := by
  induction hnested with
  | itself hobject => exact .itself (h ▸ hobject)
  | held hobject hheld _ ih => exact .held (h ▸ hobject) hheld ih

/-- A schema may stand at a path. -/
def SchemaPlace (document : Node) (path : DocPath) : Prop :=
  ∃ root, RootPlace document root ∧ NestedAt document root path

theorem schemaPlace_eq_of_outline (h : a.outline = b.outline) : SchemaPlace a = SchemaPlace b := by
  have href := isRefAt_eq_of_outline h
  have hobject := isObjectAt_eq_of_outline h
  funext path
  refine propext ⟨?_, ?_⟩
  · rintro ⟨root, hroot, hnested⟩
    exact ⟨root, hroot.of_isRefAt_eq href, hnested.of_isObjectAt_eq hobject⟩
  · rintro ⟨root, hroot, hnested⟩
    exact ⟨root, hroot.of_isRefAt_eq href.symm, hnested.of_isObjectAt_eq hobject.symm⟩

end Schema

/-! ## Places up to their order -/

/-- Exactly the nodes of a document at certain paths are listed, each once. -/
structure Enumerates (document : Node) (paths : DocPath → Prop) (places : List Located) :
    Prop where
  mem_iff : ∀ place, place ∈ places ↔ place.StandsIn document ∧ paths place.path
  nodup : (places.map Located.path).Nodup

namespace Enumerates

variable {document : Node} {paths : DocPath → Prop} {places : List Located}

theorem nodup_view (h : Enumerates document paths places) : (places.map Located.view).Nodup := by
  refine List.Nodup.of_map Prod.fst ?_
  rw [List.map_map]
  exact h.nodup

theorem mem_view_iff (h : Enumerates document paths places) (path : DocPath)
    (outlined : DocPath → Option Node) :
    (path, outlined) ∈ places.map Located.view ↔
      (path.resolve document).map Node.outline = some outlined ∧ paths path := by
  rw [List.mem_map, Option.map_eq_some_iff]
  constructor
  · rintro ⟨place, hplace, heq⟩
    obtain ⟨rfl, rfl⟩ := Prod.mk.inj heq
    obtain ⟨hstands, hpath⟩ := (h.mem_iff place).mp hplace
    exact ⟨⟨place.node, hstands, rfl⟩, hpath⟩
  · rintro ⟨⟨node, hnode, rfl⟩, hpath⟩
    exact ⟨⟨path, node⟩, (h.mem_iff _).mpr ⟨hnode, hpath⟩, rfl⟩

end Enumerates

section Orders

variable {a b : Node} (ha : a.WellFormed) (hb : b.WellFormed) (h : a.outline = b.outline)
include ha hb h

/-- What is reported place by place in one document is reported in the other, up to its order. -/
theorem perm_flatMap_places {paths : DocPath → Prop} {places others : List Located}
    (hplaces : Enumerates a paths places) (hothers : Enumerates b paths others) {γ : Type}
    {report other : Located → List γ}
    (hreport : ∀ (path : DocPath) {x y : Node}, x.outline = y.outline →
      x.WellFormed → y.WellFormed → (report ⟨path, x⟩).Perm (other ⟨path, y⟩)) :
    (places.flatMap report).Perm (others.flatMap other) := by
  have hview : (places.map Located.view).Perm (others.map Located.view) := by
    refine (List.perm_ext_iff_of_nodup hplaces.nodup_view hothers.nodup_view).mpr ?_
    rintro ⟨path, outlined⟩
    rw [hplaces.mem_view_iff, hothers.mem_view_iff, Node.map_outline_resolve h]
  refine perm_flatMap_of_view hview ?_
  rintro ⟨path, x⟩ hx ⟨_, y⟩ hy heq
  obtain ⟨rfl, houtline⟩ := Prod.mk.inj heq
  exact hreport path houtline (((hplaces.mem_iff _).mp hx).1.wellFormed ha)
    (((hothers.mem_iff _).mp hy).1.wellFormed hb)

theorem perm_flatMap_walk {γ : Type} {report other : Visit → List γ}
    (hreport : ∀ (path : DocPath) {x y : Node}, x.outline = y.outline →
      x.WellFormed → y.WellFormed →
        (report (Located.visit ⟨path, x⟩)).Perm (other (Located.visit ⟨path, y⟩))) :
    ((walkDocument a).flatMap report).Perm ((walkDocument b).flatMap other) := by
  have hwalk : ∀ {document : Node}, document.WellFormed →
      Enumerates document (fun _ => True) (preorder [] document) := fun hwf =>
    ⟨fun place => by simp [mem_preorder_iff hwf, Located.StandsIn], nodup_preorder hwf []⟩
  rw [walkDocument, walkDocument, walk_eq_map_visit, walk_eq_map_visit, List.flatMap_map,
    List.flatMap_map]
  exact perm_flatMap_places ha hb h (hwalk ha) (hwalk hb) hreport

theorem perm_flatMap_all {γ : Type} {report : Located → List γ}
    (hreport : ∀ (path : DocPath) {x y : Node}, x.outline = y.outline →
      x.WellFormed → y.WellFormed → (report ⟨path, x⟩).Perm (report ⟨path, y⟩)) :
    ((Schema.all a).flatMap report).Perm ((Schema.all b).flatMap report) := by
  have hall : ∀ {document : Node}, document.WellFormed →
      Enumerates document (Schema.SchemaPlace document) (Schema.all document) :=
    fun hwf => ⟨Schema.mem_all_iff hwf, Schema.nodup_all hwf⟩
  have hallB := hall hb
  rw [← Schema.schemaPlace_eq_of_outline h] at hallB
  exact perm_flatMap_places ha hb h (hall ha) hallB hreport

end Orders

end ApiLint
