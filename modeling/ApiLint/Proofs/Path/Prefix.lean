import ApiLint.Proofs.Node.Steps
set_option autoImplicit false

/-!
# Paths and their prefixes

A place stands in a document when its path leads to its node there.  Every prefix of
the path then leads to a node too.  Two paths diverge when neither is a prefix of the
other, as paths through different children of one node do.
-/

namespace ApiLint

namespace DocPath

/-! ## Extensions -/

@[simp] theorem keys_nil (path : DocPath) : path.keys [] = path := by
  simp [keys]

/-- Key steps are appended one at a time. -/
theorem keys_cons (path : DocPath) (name : String) (names : List String) :
    path.keys (name :: names) = (path.child (.key name)).keys names := by
  simp [keys, child]

theorem prefix_child (path : DocPath) (segment : Segment) : path <+: path.child segment :=
  List.prefix_append path [segment]

theorem prefix_keys (path : DocPath) (names : List String) : path <+: path.keys names :=
  List.prefix_append path _

theorem child_ne_nil (path : DocPath) (segment : Segment) : path.child segment ≠ [] := by
  simp [child]

theorem keys_cons_ne_nil (path : DocPath) (name : String) (names : List String) :
    path.keys (name :: names) ≠ [] := by
  simp [keys]

/-- A path is a prefix of its steps and what follows. -/
theorem child_append (path rest : DocPath) (segment : Segment) :
    path.child segment ++ rest = path ++ segment :: rest := by
  simp [child]

/-- Every prefix of a path that leads somewhere leads somewhere. -/
theorem exists_resolve_on_way {p q : DocPath} {root node : Node} (hpq : p <+: q)
    (h : q.resolve root = some node) : ∃ next, p.resolve root = some next := by
  obtain ⟨rest, rfl⟩ := hpq
  rw [resolve_append] at h
  obtain ⟨next, hnext, _⟩ := Option.bind_eq_some_iff.mp h
  exact ⟨next, hnext⟩

/-! ## Divergence -/

/-- Neither path is a prefix of the other. -/
def Diverge (p q : DocPath) : Prop := ¬ p <+: q ∧ ¬ q <+: p

theorem Diverge.ne {p q : DocPath} (h : Diverge p q) : p ≠ q := by
  rintro rfl
  exact h.1 (List.prefix_refl p)

/-- What begins with paths that diverge diverges. -/
theorem Diverge.extend {p q r s : DocPath} (h : Diverge p q) (hpr : p <+: r) (hqs : q <+: s) :
    Diverge r s := by
  refine ⟨fun hrs => ?_, fun hsr => ?_⟩
  · exact (List.prefix_or_prefix_of_prefix (hpr.trans hrs) hqs).elim h.1 h.2
  · exact (List.prefix_or_prefix_of_prefix hpr (hqs.trans hsr)).elim h.1 h.2

/-- Paths through different children of a node diverge. -/
theorem diverge_of_prefix_child {path p q : DocPath} {s t : Segment} (hst : s ≠ t)
    (hp : path.child s <+: p) (hq : path.child t <+: q) : Diverge p q := by
  obtain ⟨p, rfl⟩ := hp
  obtain ⟨q, rfl⟩ := hq
  rw [child_append, child_append]
  refine ⟨fun h => hst ?_, fun h => hst ?_⟩
  · rw [List.prefix_append_right_inj] at h
    exact (List.cons_prefix_cons.mp h).1
  · rw [List.prefix_append_right_inj] at h
    exact (List.cons_prefix_cons.mp h).1.symm

end DocPath

/-! ## Places in a document -/

namespace Located

/-- The path of the place leads to its node in the document. -/
def StandsIn (document : Node) (place : Located) : Prop :=
  place.path.resolve document = some place.node

variable {document : Node} {place : Located}

theorem StandsIn.resolve_child (h : place.StandsIn document) (segment : Segment) :
    (place.path.child segment).resolve document = DocPath.step? place.node segment := by
  rw [DocPath.resolve_child, h]
  rfl

theorem StandsIn.wellFormed (h : place.StandsIn document) (hwf : document.WellFormed) :
    place.node.WellFormed :=
  hwf.of_resolve h

/-- Only one node stands at a path. -/
theorem StandsIn.eq_of_path {other : Located} (h : place.StandsIn document)
    (hother : other.StandsIn document) (hpath : place.path = other.path) : place = other := by
  obtain ⟨path, node⟩ := place
  obtain ⟨otherPath, otherNode⟩ := other
  obtain rfl : path = otherPath := hpath
  have hnode : node = otherNode := Option.some.inj (h.symm.trans hother)
  rw [hnode]

/-- A step from a place in a document leads to a place in it. -/
theorem StandsIn.child (h : place.StandsIn document) {segment : Segment} {child : Node}
    (hstep : DocPath.step? place.node segment = some child) :
    StandsIn document ⟨place.path.child segment, child⟩ := by
  rw [StandsIn, h.resolve_child, hstep]

/-- A key of the node at a place leads to a place. -/
theorem StandsIn.key (h : place.StandsIn document) {name : String} {value : Node}
    (hget : place.node.get? name = some value) :
    StandsIn document ⟨place.path.child (.key name), value⟩ :=
  h.child hget

/-- A field of the object under a key stands at that key and its own. -/
theorem StandsIn.field (h : place.StandsIn document) (hwf : document.WellFormed)
    {keyword name : String} {value : Node}
    (hmem : (name, value) ∈ (place.node.getFields? keyword).getD []) :
    StandsIn document ⟨place.path.keys [keyword, name], value⟩ := by
  cases hget : place.node.get? keyword with
  | none => simp [Node.getFields?, hget] at hmem
  | some inner =>
    have hinner := h.key hget
    have hfields : (name, value) ∈ inner.fields := by
      simpa [Node.getFields?, hget, Node.fields] using hmem
    have hvalue := (hinner.wellFormed hwf).mem_fields_iff.mp hfields
    simpa [DocPath.keys_cons] using hinner.key hvalue

/-- The fields of the object under a key are the nodes behind that key and their own. -/
theorem StandsIn.mem_getFields_iff (h : place.StandsIn document) (hwf : document.WellFormed)
    {keyword name : String} {value : Node} :
    (name, value) ∈ (place.node.getFields? keyword).getD [] ↔
      StandsIn document ⟨place.path.keys [keyword, name], value⟩ := by
  constructor
  · exact h.field hwf
  · intro hvalue
    rw [StandsIn, DocPath.keys_cons, DocPath.keys_cons, DocPath.keys_nil, DocPath.resolve_child,
      h.resolve_child] at hvalue
    obtain ⟨inner, hinner, hfield⟩ := Option.bind_eq_some_iff.mp hvalue
    have hmem : (name, value) ∈ inner.fields :=
      ((h.key hinner).wellFormed hwf).mem_fields_iff.mpr hfield
    rw [DocPath.step?] at hinner
    simpa [Node.getFields?, hinner, Node.fields] using hmem

/-- An element of the array under a key stands at that key and its position. -/
theorem StandsIn.element (h : place.StandsIn document) {keyword : String} {position : Nat}
    {item : Node} (hitem : (place.node.getItems keyword)[position]? = some item) :
    StandsIn document ⟨(place.path.child (.key keyword)).child (.index position), item⟩ := by
  cases hget : place.node.get? keyword with
  | none => simp [Node.getItems, hget] at hitem
  | some inner =>
    refine (h.key hget).child ?_
    have hposition : inner.items[position]? = some item := by
      simpa [Node.getItems, hget] using hitem
    cases inner with
    | array items => exact hposition
    | _ => simp [Node.items, Node.items?] at hposition

end Located

end ApiLint
