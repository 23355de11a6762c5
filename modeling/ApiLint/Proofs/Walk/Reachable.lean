import ApiLint.Proofs.Path.Prefix
import ApiLint.Proofs.Walk.Preorder
set_option autoImplicit false

/-!
# What a walk reaches

In a document whose objects have distinct keys, a walk visits a node at a path exactly
when the path leads to that node, and no path twice.  So the walk and the resolving of
paths agree on what a document contains.
-/

namespace ApiLint

/-! ## The pre-order -/

/-- What is below a place are the nodes that further steps lead to. -/
theorem mem_preorder_iff {node : Node} (h : node.WellFormed) (path : DocPath) (place : Located) :
    place ∈ preorder path node ↔
      ∃ rest, place.path = path ++ rest ∧ rest.resolve node = some place.node := by
  induction node using Node.induction_steps generalizing path with
  | step node ih =>
    have hcons : preorder path node = _ := Located.below_eq_cons ⟨path, node⟩
    rw [hcons, List.mem_cons, List.mem_flatMap]
    constructor
    · rintro (rfl | ⟨child, hchild, hmem⟩)
      · exact ⟨[], by simp, rfl⟩
      · obtain ⟨s, hs, rfl⟩ := List.mem_map.mp hchild
        obtain ⟨rest, hpath, hrest⟩ := (ih s hs (h.of_mem_steps hs) _).mp hmem
        refine ⟨s.1 :: rest, by rw [hpath, DocPath.child_append], ?_⟩
        rw [DocPath.resolve, h.mem_steps_iff.mp hs]
        exact hrest
    · rintro ⟨rest, hpath, hrest⟩
      cases rest with
      | nil =>
        left
        obtain ⟨placePath, placeNode⟩ := place
        simp only [List.append_nil] at hpath
        rw [hpath, Option.some.inj hrest]
      | cons segment rest =>
        right
        obtain ⟨child, hchild, hrest⟩ := Option.bind_eq_some_iff.mp hrest
        have hs : (segment, child) ∈ node.steps := h.mem_steps_iff.mpr hchild
        refine ⟨⟨path.child segment, child⟩, List.mem_map.mpr ⟨_, hs, rfl⟩, ?_⟩
        refine (ih _ hs (h.of_mem_steps hs) _).mpr ⟨rest, ?_, hrest⟩
        rw [hpath, DocPath.child_append]

/-- Everything below a place has a path that begins with that of the place. -/
theorem prefix_of_mem_preorder {node : Node} (h : node.WellFormed) {path : DocPath}
    {place : Located} (hmem : place ∈ preorder path node) : path <+: place.path := by
  obtain ⟨rest, hpath, _⟩ := (mem_preorder_iff h path place).mp hmem
  exact ⟨rest, hpath.symm⟩

/-- No path occurs twice below a place. -/
theorem nodup_preorder {node : Node} (h : node.WellFormed) (path : DocPath) :
    ((preorder path node).map Located.path).Nodup := by
  rw [List.Nodup, List.pairwise_map]
  induction node using Node.induction_steps generalizing path with
  | step node ih =>
    have hcons : preorder path node = _ := Located.below_eq_cons ⟨path, node⟩
    rw [hcons, List.pairwise_cons, List.pairwise_flatMap, Located.children, List.pairwise_map]
    -- the paths below one child are longer than that of the node, and those below two diverge
    have hbelow : ∀ s ∈ node.steps, ∀ place ∈ Located.below ⟨path.child s.1, s.2⟩,
        path.child s.1 <+: place.path :=
      fun s hs place hplace => prefix_of_mem_preorder (h.of_mem_steps hs) hplace
    refine ⟨?_, ?_, ?_⟩
    · intro place hplace
      obtain ⟨child, hchild, hplace⟩ := List.mem_flatMap.mp hplace
      obtain ⟨s, hs, rfl⟩ := List.mem_map.mp hchild
      have hlength := (hbelow s hs place hplace).length_le
      intro heq
      simp only [← heq, DocPath.child, List.length_append, List.length_singleton] at hlength
      omega
    · intro child hchild
      obtain ⟨s, hs, rfl⟩ := List.mem_map.mp hchild
      exact ih s hs (h.of_mem_steps hs) _
    · apply (List.pairwise_map.mp h.nodup_steps).imp_of_mem
      intro s t hs ht hst a ha b hb
      exact (DocPath.diverge_of_prefix_child hst (hbelow s hs a ha) (hbelow t ht b hb)).ne

/-! ## The walk of a document -/

/-- A walk makes the visits of the places that stand in the document. -/
theorem mem_walkDocument_iff {root : Node} (h : root.WellFormed) (v : Visit) :
    v ∈ walkDocument root ↔ ∃ place : Located, place.StandsIn root ∧ v = place.visit := by
  rw [walkDocument, walk_eq_map_visit, List.mem_map]
  constructor
  · rintro ⟨place, hplace, rfl⟩
    obtain ⟨rest, hpath, hrest⟩ := (mem_preorder_iff h [] place).mp hplace
    rw [List.nil_append] at hpath
    rw [← hpath] at hrest
    exact ⟨place, hrest, rfl⟩
  · rintro ⟨place, hplace, rfl⟩
    exact ⟨place, (mem_preorder_iff h [] place).mpr ⟨place.path, rfl, hplace⟩, rfl⟩

theorem nodup_walkDocument {root : Node} (h : root.WellFormed) :
    ((walkDocument root).map Visit.path).Nodup := by
  have hpaths : (walkDocument root).map Visit.path = (preorder [] root).map Located.path := by
    rw [walkDocument, walk_eq_map_visit, List.map_map]
    rfl
  rw [hpaths]
  exact nodup_preorder h []

/-- A path leads to a node exactly when the walk visits that node there, and the walk visits no
path twice. -/
theorem resolve_iff_visited_once {root : Node} (h : root.WellFormed) :
    (∀ (path : DocPath) (node : Node), path.resolve root = some node ↔
      ∃ v ∈ walkDocument root, v.path = path ∧ v.node = node) ∧
      ((walkDocument root).map Visit.path).Nodup := by
  refine ⟨?_, nodup_walkDocument h⟩
  intro path node
  constructor
  · intro hresolve
    have hvisited := (mem_walkDocument_iff h _).mpr ⟨⟨path, node⟩, hresolve, rfl⟩
    exact ⟨_, hvisited, rfl, rfl⟩
  · rintro ⟨v, hv, rfl, rfl⟩
    obtain ⟨place, hplace, rfl⟩ := (mem_walkDocument_iff h v).mp hv
    exact hplace

/-- A document with one tag. -/
def taggedDocument : Node :=
  .object [("openapi", .string "3.0.0"), ("tags", .array [.object [("name", .string "pets")]])]

/-- The name of the tag is visited, the position behind the tag is not, and no path is twice. -/
theorem visits_taggedDocument :
    (∃ v ∈ walkDocument taggedDocument,
        v.path = [.key "tags", .index 0, .key "name"] ∧ v.node = .string "pets") ∧
      (¬ ∃ v ∈ walkDocument taggedDocument, v.path = [.key "tags", .index 1]) ∧
      ((walkDocument taggedDocument).map Visit.path).Nodup := by
  have hwf : taggedDocument.WellFormed := by
    simp [taggedDocument, Node.WellFormed, Node.WellFormedFields, Node.WellFormedItems]
  obtain ⟨hiff, hnodup⟩ := resolve_iff_visited_once hwf
  refine ⟨(hiff _ _).mp rfl, ?_, hnodup⟩
  rintro ⟨v, hv, hpath⟩
  have hresolve := (hiff _ v.node).mpr ⟨v, hv, hpath, rfl⟩
  have hnone : DocPath.resolve [.key "tags", .index 1] taggedDocument = none := rfl
  simp [hnone] at hresolve

end ApiLint
