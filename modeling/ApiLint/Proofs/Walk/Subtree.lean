import ApiLint.Proofs.Walk.Reachable
set_option autoImplicit false

/-!
# Walking a part of a document

A walk can begin at any node of a document, at the path of the node.  It then makes the visits
that the walk of the whole document makes at this path and behind it: they follow each other
there without a visit in between, in the same order and with the same paths, and the kind that
is found from the start path is the one that was handed down from the root.
-/

namespace ApiLint

/-! ## The pre-order -/

/-- The other steps out of a node are different from one that is singled out. -/
theorem Node.WellFormed.step_ne_of_mem {node : Node} (h : node.WellFormed)
    {earlier later : List (Segment × Node)} {s t : Segment × Node}
    (hsteps : node.steps = earlier ++ s :: later) (ht : t ∈ earlier ++ later) : t.1 ≠ s.1 := by
  have hnodup := h.nodup_steps
  rw [hsteps, List.map_append, List.map_cons, List.nodup_middle, List.nodup_cons,
    ← List.map_append] at hnodup
  intro heq
  have hmem : t.1 ∈ (earlier ++ later).map Prod.fst := List.mem_map_of_mem ht
  exact hnodup.1 (heq ▸ hmem)

/-- The tree below a child is a part of the tree below the node, and nothing outside this part
stands at the path of the child or behind it. -/
theorem exists_preorder_eq_append_of_mem_steps {node : Node} (h : node.WellFormed)
    {s : Segment × Node} (hs : s ∈ node.steps) (path : DocPath) :
    ∃ before after, preorder path node = before ++ preorder (path.child s.1) s.2 ++ after ∧
      ∀ place ∈ before ++ after, ¬ path.child s.1 <+: place.path := by
  obtain ⟨earlier, later, hsteps⟩ := List.append_of_mem hs
  let trees (steps : List (Segment × Node)) : List Located :=
    steps.flatMap fun t => preorder (path.child t.1) t.2
  have hnode : preorder path node = ⟨path, node⟩ :: trees node.steps := by
    have hbelow : preorder path node = _ := Located.below_eq_cons ⟨path, node⟩
    rw [hbelow, Located.children, List.flatMap_map]
    rfl
  refine ⟨⟨path, node⟩ :: trees earlier, trees later, ?_, ?_⟩
  · rw [hnode, hsteps]
    simp [trees]
  · intro place hplace hprefix
    rw [List.cons_append, List.mem_cons, ← List.flatMap_append] at hplace
    rcases hplace with rfl | hplace
    · have hlength := hprefix.length_le
      simp only [DocPath.child, List.length_append, List.length_singleton] at hlength
      omega
    · obtain ⟨t, ht, hplace⟩ := List.mem_flatMap.mp hplace
      have hmem : t ∈ node.steps := by
        rw [hsteps]
        exact List.perm_middle.mem_iff.mpr (List.mem_cons_of_mem s ht)
      have hbelow := prefix_of_mem_preorder (h.of_mem_steps hmem) hplace
      exact (DocPath.diverge_of_prefix_child (h.step_ne_of_mem hsteps ht) hbelow hprefix).ne rfl

/-- The same for the tree below a node that a path leads to, by induction along the path. -/
theorem exists_preorder_eq_append {root node : Node} (h : root.WellFormed) {path : DocPath}
    (hresolve : path.resolve root = some node) (start : DocPath) :
    ∃ before after, preorder start root = before ++ preorder (start ++ path) node ++ after ∧
      ∀ place ∈ before ++ after, ¬ start ++ path <+: place.path := by
  induction path generalizing root start with
  | nil =>
    obtain rfl : root = node := Option.some.inj hresolve
    exact ⟨[], [], by simp, by simp⟩
  | cons segment rest ih =>
    obtain ⟨next, hstep, hrest⟩ := Option.bind_eq_some_iff.mp hresolve
    have hs : (segment, next) ∈ root.steps := h.mem_steps_iff.mpr hstep
    obtain ⟨outerBefore, outerAfter, hroot, houter⟩ :=
      exists_preorder_eq_append_of_mem_steps h hs start
    obtain ⟨before, after, hnext, hinner⟩ := ih (h.of_mem_steps hs) hrest (start.child segment)
    rw [DocPath.child_append] at hnext hinner
    refine ⟨outerBefore ++ before, after ++ outerAfter, ?_, ?_⟩
    · rw [hroot, hnext]
      simp only [List.append_assoc]
    · intro place hplace hprefix
      have hchild : start.child segment <+: place.path := by
        rw [← DocPath.child_append] at hprefix
        exact (List.prefix_append _ rest).trans hprefix
      simp only [List.mem_append] at hplace houter hinner
      rcases hplace with (hplace | hplace) | (hplace | hplace)
      · exact houter place (.inl hplace) hchild
      · exact hinner place (.inl hplace) hprefix
      · exact hinner place (.inr hplace) hprefix
      · exact houter place (.inr hplace) hchild

/-! ## The walk -/

/-- The walk of a document is made of the walk from a node of it and of visits before and behind
that, none of which is at the path of the node or further on. -/
theorem exists_walkDocument_eq_append {root node : Node} (h : root.WellFormed) {path : DocPath}
    (hresolve : path.resolve root = some node) :
    ∃ before after, walkDocument root = before ++ walk node path ++ after ∧
      ∀ v ∈ before ++ after, ¬ path <+: v.path := by
  obtain ⟨before, after, hpreorder, houtside⟩ := exists_preorder_eq_append h hresolve []
  rw [List.nil_append] at hpreorder houtside
  refine ⟨before.map Located.visit, after.map Located.visit, ?_, ?_⟩
  · rw [walkDocument, walk_eq_map_visit, walk_eq_map_visit, hpreorder, List.map_append,
      List.map_append]
  · intro v hv
    rw [← List.map_append] at hv
    obtain ⟨place, hplace, rfl⟩ := List.mem_map.mp hv
    exact houtside place hplace

/-- A walk stays at its start path and behind it. -/
theorem prefix_of_mem_walk {node : Node} (h : node.WellFormed) {path : DocPath} {v : Visit}
    (hv : v ∈ walk node path) : path <+: v.path := by
  rw [walk_eq_map_visit] at hv
  obtain ⟨place, hplace, rfl⟩ := List.mem_map.mp hv
  exact prefix_of_mem_preorder h hplace

/-- A walk from a node of a document makes exactly the visits of the walk of the document whose
paths begin with that of the node, with the same paths and kinds and in the same order, and there
they are one block. -/
theorem walk_eq_filter_walkDocument {root node : Node} (h : root.WellFormed) {path : DocPath}
    (hresolve : path.resolve root = some node) :
    walk node path = (walkDocument root).filter (fun v => path <+: v.path) ∧
      ∃ before after, walkDocument root = before ++ walk node path ++ after ∧
        ∀ v ∈ before ++ after, ¬ path <+: v.path := by
  obtain ⟨before, after, hwalk, houtside⟩ := exists_walkDocument_eq_append h hresolve
  refine ⟨?_, before, after, hwalk, houtside⟩
  have hnone (visits : List Visit) (hsubset : visits ⊆ before ++ after) :
      visits.filter (fun v => path <+: v.path) = [] :=
    List.filter_eq_nil_iff.mpr fun v hv => by simpa using houtside v (hsubset hv)
  have hblock : (walk node path).filter (fun v => path <+: v.path) = walk node path :=
    List.filter_eq_self.mpr fun v hv => by simpa using prefix_of_mem_walk (h.of_resolve hresolve) hv
  rw [hwalk, List.filter_append, List.filter_append, hblock,
    hnone before (List.subset_append_left _ _), hnone after (List.subset_append_right _ _),
    List.nil_append, List.append_nil]

/-- A document whose operation has a key in front of its responses and a path behind it. -/
def operationDocument : Node :=
  .object [("paths", .object [
    ("/pets", .object [("get", .object [("tags", .array [.string "pets"]),
      ("responses", .object [("200", .null)])])]),
    ("/pets/get", .object [])])]

/-- The walk from the operation makes five visits of the nine, in the midst of the walk of the
document, and knows the operation and its responses for what they are. -/
theorem walk_operationDocument :
    ∃ operation, DocPath.resolve [.key "paths", .key "/pets", .key "get"] operationDocument =
        some operation ∧
      walk operation [.key "paths", .key "/pets", .key "get"] =
        (walkDocument operationDocument).filter
          (fun v => [.key "paths", .key "/pets", .key "get"] <+: v.path) ∧
      (walk operation [.key "paths", .key "/pets", .key "get"]).map Visit.kind =
        [.operation .get, .other, .other, .operationResponses, .other] ∧
      (walkDocument operationDocument).length = 9 := by
  have hwf : operationDocument.WellFormed := by
    simp [operationDocument, Node.WellFormed, Node.WellFormedFields, Node.WellFormedItems]
  refine ⟨_, rfl, (walk_eq_filter_walkDocument hwf rfl).1, ?_, ?_⟩
  · decide +kernel
  · decide +kernel

end ApiLint
