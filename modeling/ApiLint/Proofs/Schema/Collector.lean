import ApiLint.Proofs.Path.Prefix
import ApiLint.Schema.Roots
set_option autoImplicit false

/-!
# Collectors of schemas

A collector lists schemas below an owner.  `Collects` says which: the nodes of the
document at certain places relative to the owner, all of them, and no two along one
path.  The collectors are put together from a few combinators, and each combinator
keeps that property; so the places of a collector are read off its structure.
-/

namespace ApiLint.Schema

/-- A collector lists, for an owner in the document, exactly the nodes of the document at certain
places, all of them below the owner and no two along one path. -/
structure Collects (document : Node) (collect : Located → List Located)
    (places : DocPath → DocPath → Prop) : Prop where
  mem_iff : ∀ owner : Located, owner.StandsIn document → ∀ found : Located,
    found ∈ collect owner ↔ found.StandsIn document ∧ places owner.path found.path
  below : ∀ owner path : DocPath, places owner path → owner <+: path
  diverge : ∀ owner : Located, owner.StandsIn document →
    (collect owner).Pairwise fun a b => a.path.Diverge b.path

/-! ## Combinators -/

/-- Collects from every child of a node, by the step that leads to it. -/
def bySegment (collect : Segment → Located → List Located) (owner : Located) : List Located :=
  owner.node.steps.flatMap fun s => collect s.1 ⟨owner.path.child s.1, s.2⟩

/-- Collects from every field of a node, by the key of the field. -/
def byKey (collect : String → Located → List Located) (owner : Located) : List Located :=
  owner.node.fields.flatMap fun field =>
    collect field.1 ⟨owner.path.child (.key field.1), field.2⟩

/-- What a collector by keys does at a step. -/
def ofKey (collect : String → Located → List Located) : Segment → Located → List Located
  | .key key => collect key
  | .index _ => fun _ => []

/-- What a collector of array elements does at a step. -/
def ofIndex (collect : Located → List Located) : Segment → Located → List Located
  | .key _ => fun _ => []
  | .index _ => collect

/-- Collects from the value of one key. -/
def under (key : String) (collect : Located → List Located) (owner : Located) : List Located :=
  match owner.node.get? key with
  | some value => collect ⟨owner.path.child (.key key), value⟩
  | none => []

/-- Collects from the values of several keys, in the order of the keys. -/
def underEach (keys : List String) (collect : String → Located → List Located)
    (owner : Located) : List Located :=
  keys.flatMap fun key => under key (collect key) owner

/-- Collects from what is no reference. -/
def unlessRef (collect : Located → List Located) (owner : Located) : List Located :=
  if isRef owner.node then [] else collect owner

/-- The path leads to a reference in the document. -/
def IsRefAt (document : Node) (path : DocPath) : Prop :=
  ∃ node, path.resolve document = some node ∧ isRef node = true

theorem isRefAt_iff {document : Node} {place : Located} (h : place.StandsIn document) :
    IsRefAt document place.path ↔ isRef place.node = true := by
  constructor
  · rintro ⟨node, hnode, href⟩
    obtain rfl : place.node = node := Option.some.inj (h.symm.trans hnode)
    exact href
  · intro href
    exact ⟨place.node, h, href⟩

theorem located_eq_map (path : DocPath) (position : Nat) (items : List Node) :
    located path position items =
      (items.zipIdx position).map fun item => ⟨path.child (.index item.2), item.1⟩ := by
  induction items generalizing position with
  | nil => rfl
  | cons item rest ih => simp [located, ih]

theorem byKey_eq_bySegment (collect : String → Located → List Located) (owner : Located) :
    byKey collect owner = bySegment (ofKey collect) owner := by
  obtain ⟨path, node⟩ := owner
  cases node with
  | object fields =>
    simp [byKey, bySegment, ofKey, Node.steps, Node.fields, Node.fields?, List.flatMap_map]
  | array items =>
    simp [byKey, bySegment, ofKey, Node.steps, Node.fields, Node.fields?, List.flatMap_map]
  | _ => rfl

theorem listed_eq_bySegment (collect : Located → List Located) (owner : Located) :
    listed collect owner = bySegment (ofIndex collect) owner := by
  obtain ⟨path, node⟩ := owner
  cases node with
  | object fields =>
    simp [listed, bySegment, ofIndex, Node.steps, Node.items, Node.items?, located,
      List.flatMap_map]
  | array items =>
    simp [listed, bySegment, ofIndex, Node.steps, Node.items, Node.items?, located_eq_map,
      List.flatMap_map]
  | _ => rfl

namespace Collects

variable {document : Node} {collect other : Located → List Located}
variable {places otherPlaces : DocPath → DocPath → Prop}

/-- Collectors that agree on the document collect alike. -/
theorem congr (h : Collects document collect places)
    (heq : ∀ owner : Located, owner.StandsIn document → other owner = collect owner) :
    Collects document other places where
  mem_iff owner howner found := by
    rw [heq owner howner]
    exact h.mem_iff owner howner found
  below := h.below
  diverge owner howner := by
    rw [heq owner howner]
    exact h.diverge owner howner

/-- The places of a collector may be said in another way. -/
theorem places_congr (h : Collects document collect places)
    (hiff : ∀ owner path, otherPlaces owner path ↔ places owner path) :
    Collects document collect otherPlaces where
  mem_iff owner howner found := by
    rw [hiff]
    exact h.mem_iff owner howner found
  below owner path hplace := h.below owner path ((hiff owner path).mp hplace)
  diverge := h.diverge

theorem nothing : Collects document (fun _ => []) (fun _ _ => False) where
  mem_iff owner _ found := by simp
  below _ _ hplace := hplace.elim
  diverge _ _ := List.Pairwise.nil

/-- The owner itself. -/
theorem itself : Collects document (fun owner => [owner]) (fun owner path => path = owner) where
  mem_iff owner howner found := by
    rw [List.mem_singleton]
    constructor
    · rintro rfl
      exact ⟨howner, rfl⟩
    · rintro ⟨hfound, hpath⟩
      obtain ⟨path, node⟩ := found
      obtain rfl : path = owner.path := hpath
      have hnode : node = owner.node := Option.some.inj (hfound.symm.trans howner)
      rw [hnode]
  below owner path hplace := hplace ▸ List.prefix_refl owner
  diverge owner _ := List.pairwise_singleton _ owner

/-- The path of the owner decides between two collectors. -/
theorem ite (c : DocPath → Prop) [DecidablePred c] (h : Collects document collect places)
    (hother : Collects document other otherPlaces) :
    Collects document (fun owner => if c owner.path then collect owner else other owner)
      (fun owner path => if c owner then places owner path else otherPlaces owner path) where
  mem_iff owner howner found := by
    split
    · exact h.mem_iff owner howner found
    · exact hother.mem_iff owner howner found
  below owner path hplace := by
    split at hplace
    · exact h.below owner path hplace
    · exact hother.below owner path hplace
  diverge owner howner := by
    split
    · exact h.diverge owner howner
    · exact hother.diverge owner howner

/-- Two collectors one after the other, when what they find diverges. -/
theorem append (h : Collects document collect places)
    (hother : Collects document other otherPlaces)
    (hdiverge : ∀ owner p q, places owner p → otherPlaces owner q → DocPath.Diverge p q) :
    Collects document (fun owner => collect owner ++ other owner)
      (fun owner path => places owner path ∨ otherPlaces owner path) where
  mem_iff owner howner found := by
    rw [List.mem_append, h.mem_iff owner howner, hother.mem_iff owner howner]
    exact and_or_left.symm
  below owner path hplace := by
    rcases hplace with hplace | hplace
    · exact h.below owner path hplace
    · exact hother.below owner path hplace
  diverge owner howner := by
    rw [List.pairwise_append]
    refine ⟨h.diverge owner howner, hother.diverge owner howner, ?_⟩
    intro a ha b hb
    have hplace := ((h.mem_iff owner howner a).mp ha).2
    have hotherPlace := ((hother.mem_iff owner howner b).mp hb).2
    exact hdiverge owner.path a.path b.path hplace hotherPlace

theorem unlessRef (h : Collects document collect places) :
    Collects document (Schema.unlessRef collect)
      (fun owner path => ¬ IsRefAt document owner ∧ places owner path) where
  mem_iff owner howner found := by
    rw [Schema.unlessRef, isRefAt_iff howner]
    split
    · next href => simp [href]
    · next href => simp [href, h.mem_iff owner howner found]
  below owner path hplace := h.below owner path hplace.2
  diverge owner howner := by
    rw [Schema.unlessRef]
    split
    · exact List.Pairwise.nil
    · exact h.diverge owner howner

/-- What a collector finds below a child that a step leads to. -/
theorem mem_iff_of_step (h : Collects document collect places) {owner : Located}
    (howner : owner.StandsIn document) (segment : Segment) (found : Located) :
    (∃ child, DocPath.step? owner.node segment = some child ∧
        found ∈ collect ⟨owner.path.child segment, child⟩) ↔
      found.StandsIn document ∧ places (owner.path.child segment) found.path := by
  constructor
  · rintro ⟨child, hchild, hfound⟩
    exact (h.mem_iff _ (howner.child hchild) found).mp hfound
  · rintro ⟨hstands, hplace⟩
    have hbelow := h.below _ _ hplace
    obtain ⟨child, hchild⟩ := DocPath.exists_resolve_on_way hbelow hstands
    have hstep : DocPath.step? owner.node segment = some child := by
      rw [← howner.resolve_child, hchild]
    exact ⟨child, hstep, (h.mem_iff _ (howner.child hstep) found).mpr ⟨hstands, hplace⟩⟩

theorem under (key : String) (h : Collects document collect places) :
    Collects document (Schema.under key collect)
      (fun owner path => places (owner.child (.key key)) path) where
  mem_iff owner howner found := by
    rw [← h.mem_iff_of_step howner (.key key) found, Schema.under]
    show _ ↔ ∃ child, owner.node.get? key = some child ∧ _
    cases owner.node.get? key with
    | some value => simp
    | none => simp
  below owner path hplace :=
    (DocPath.prefix_child owner (.key key)).trans (h.below _ path hplace)
  diverge owner howner := by
    rw [Schema.under]
    split
    · next value hvalue => exact h.diverge _ (howner.key hvalue)
    · exact List.Pairwise.nil

/-- What is found below different keys diverges. -/
theorem underEach {keys : List String} {collect : String → Located → List Located}
    {places : String → DocPath → DocPath → Prop} (hkeys : keys.Nodup)
    (h : ∀ key ∈ keys, Collects document (collect key) (places key)) :
    Collects document (Schema.underEach keys collect)
      (fun owner path => ∃ key ∈ keys, places key (owner.child (.key key)) path) := by
  induction keys with
  | nil => exact nothing.places_congr fun owner path => by simp
  | cons key rest ih =>
    obtain ⟨hkey, hrest⟩ := List.nodup_cons.mp hkeys
    obtain ⟨hfirst, hothers⟩ := List.forall_mem_cons.mp h
    refine ((hfirst.under key).append (ih hrest hothers) ?_).places_congr
      fun owner path => by simp
    rintro owner p q hp ⟨other, hother, hq⟩
    have hne : Segment.key key ≠ .key other := by
      rintro heq
      exact hkey (Segment.key.inj heq ▸ hother)
    exact DocPath.diverge_of_prefix_child hne (hfirst.below _ p hp)
      ((hothers other hother).below _ q hq)

section Families

variable (hwf : document.WellFormed)
include hwf

/-- The steps out of a node are distinct, so what is found below two of them diverges. -/
theorem bySegment {collect : Segment → Located → List Located}
    {places : Segment → DocPath → DocPath → Prop}
    (h : ∀ segment, Collects document (collect segment) (places segment)) :
    Collects document (Schema.bySegment collect)
      (fun owner path => ∃ segment, places segment (owner.child segment) path) where
  mem_iff owner howner found := by
    have hnode := howner.wellFormed hwf
    rw [Schema.bySegment, List.mem_flatMap]
    constructor
    · rintro ⟨⟨segment, child⟩, hs, hfound⟩
      have hstep := hnode.mem_steps_iff.mp hs
      have hplace := ((h segment).mem_iff_of_step howner segment found).mp ⟨child, hstep, hfound⟩
      exact ⟨hplace.1, segment, hplace.2⟩
    · rintro ⟨hstands, segment, hplace⟩
      obtain ⟨child, hstep, hfound⟩ :=
        ((h segment).mem_iff_of_step howner segment found).mpr ⟨hstands, hplace⟩
      exact ⟨(segment, child), hnode.mem_steps_iff.mpr hstep, hfound⟩
  below owner path := by
    rintro ⟨segment, hplace⟩
    exact (DocPath.prefix_child owner segment).trans ((h segment).below _ path hplace)
  diverge owner howner := by
    have hnode := howner.wellFormed hwf
    have hstands : ∀ s ∈ owner.node.steps,
        Located.StandsIn document ⟨owner.path.child s.1, s.2⟩ :=
      fun s hs => howner.child (hnode.mem_steps_iff.mp hs)
    rw [Schema.bySegment, List.pairwise_flatMap]
    constructor
    · intro s hs
      exact (h s.1).diverge _ (hstands s hs)
    · apply (List.pairwise_map.mp hnode.nodup_steps).imp_of_mem
      intro s t hs ht hst a ha b hb
      have hplaceA := (((h s.1).mem_iff _ (hstands s hs) a).mp ha).2
      have hplaceB := (((h t.1).mem_iff _ (hstands t ht) b).mp hb).2
      exact DocPath.diverge_of_prefix_child hst ((h s.1).below _ _ hplaceA)
        ((h t.1).below _ _ hplaceB)

theorem byKey {collect : String → Located → List Located}
    {places : String → DocPath → DocPath → Prop}
    (h : ∀ key, Collects document (collect key) (places key)) :
    Collects document (Schema.byKey collect)
      (fun owner path => ∃ key, places key (owner.child (.key key)) path) := by
  have hsegment : ∀ segment, Collects document (ofKey collect segment)
      (fun owner path => ∃ key, segment = .key key ∧ places key owner path) := by
    intro segment
    cases segment with
    | index position => exact nothing.places_congr fun _ _ => by simp
    | key key => exact (h key).places_congr fun _ _ => by simp
  have hall := (bySegment hwf hsegment).congr fun owner _ => byKey_eq_bySegment collect owner
  apply hall.places_congr
  intro owner path
  constructor
  · rintro ⟨key, hplace⟩
    exact ⟨.key key, key, rfl, hplace⟩
  · rintro ⟨_, key, rfl, hplace⟩
    exact ⟨key, hplace⟩

theorem named (h : Collects document collect places) :
    Collects document (Schema.named collect)
      (fun owner path => ∃ name, places (owner.child (.key name)) path) :=
  byKey hwf fun _ => h

theorem listed (h : Collects document collect places) :
    Collects document (Schema.listed collect)
      (fun owner path => ∃ position, places (owner.child (.index position)) path) := by
  have hsegment : ∀ segment, Collects document (ofIndex collect segment)
      (fun owner path => ∃ position, segment = .index position ∧ places owner path) := by
    intro segment
    cases segment with
    | index position => exact h.places_congr fun _ _ => by simp
    | key key => exact nothing.places_congr fun _ _ => by simp
  have hall := (bySegment hwf hsegment).congr fun owner _ => listed_eq_bySegment collect owner
  apply hall.places_congr
  intro owner path
  constructor
  · rintro ⟨position, hplace⟩
    exact ⟨.index position, position, rfl, hplace⟩
  · rintro ⟨_, position, rfl, hplace⟩
    exact ⟨position, hplace⟩

end Families

end Collects

end ApiLint.Schema
