import ApiLint.Proofs.Node.Steps
import ApiLint.Walk
set_option autoImplicit false

/-!
# A walk is the pre-order of the tree

`preorder` lists a node and everything below it by recursion, with paths and without
kinds.  `Walks` is the loop of the walk with no bound on its turns: it relates a
stack to the visits that are made until the stack is empty.  The loop ends from
every stack within as many turns as there are nodes on and below the stack, and
when it started from nodes at the kinds of their paths, what it made is the
pre-order of these nodes one after the other, again at the kinds of their paths.
-/

namespace ApiLint

/-! ## The recursion -/

mutual

/-- A node and everything below it in pre-order. -/
def preorder (path : DocPath) : Node → List Located
  | .array items => ⟨path, .array items⟩ :: preorderItems path 0 items
  | .object fields => ⟨path, .object fields⟩ :: preorderFields path fields
  | .null => [⟨path, .null⟩]
  | .bool b => [⟨path, .bool b⟩]
  | .int n => [⟨path, .int n⟩]
  | .float x => [⟨path, .float x⟩]
  | .string s => [⟨path, .string s⟩]

/-- The trees of array elements from a position on. -/
def preorderItems (path : DocPath) (position : Nat) : List Node → List Located
  | [] => []
  | item :: rest =>
    preorder (path.child (.index position)) item ++ preorderItems path (position + 1) rest

/-- The trees of the values of fields. -/
def preorderFields (path : DocPath) : List (String × Node) → List Located
  | [] => []
  | (key, value) :: rest =>
    preorder (path.child (.key key)) value ++ preorderFields path rest

end

/-- The tree below a place. -/
def Located.below (place : Located) : List Located := preorder place.path place.node

/-- The places of the children of the node at a place. -/
def Located.children (place : Located) : List Located :=
  place.node.steps.map fun s => ⟨place.path.child s.1, s.2⟩

theorem preorderItems_eq_flatMap (path : DocPath) (position : Nat) (items : List Node) :
    preorderItems path position items =
      (items.zipIdx position).flatMap fun item =>
        preorder (path.child (.index item.2)) item.1 := by
  induction items generalizing position with
  | nil => simp [preorderItems]
  | cons item rest ih => simp [preorderItems, ih]

theorem preorderFields_eq_flatMap (path : DocPath) (fields : Fields) :
    preorderFields path fields =
      fields.flatMap fun field => preorder (path.child (.key field.1)) field.2 := by
  induction fields with
  | nil => simp [preorderFields]
  | cons field rest ih => simp [preorderFields, ih]

/-- The tree below a place is the place and the trees below its children. -/
theorem Located.below_eq_cons (place : Located) :
    place.below = place :: place.children.flatMap Located.below := by
  obtain ⟨path, node⟩ := place
  cases node with
  | array items =>
    simp [below, children, preorder, preorderItems_eq_flatMap, Node.steps, List.flatMap_map]
  | object fields =>
    simp [below, children, preorder, preorderFields_eq_flatMap, Node.steps, List.flatMap_map]
  | _ => simp [below, children, preorder, Node.steps]

/-! ## One turn of the loop -/

/-- What was put on a stack in reverse comes off in order. -/
theorem pushAll_reverse {α : Type} (stack entries : List α) :
    pushAll stack entries.reverse = entries ++ stack := by
  rw [pushAll, List.foldl_reverse, List.foldr_cons_eq_append]
  simp

theorem Visit.ofItems_eq_map (path : DocPath) (position : Nat) (items : List Node) :
    ofItems path position items =
      (items.zipIdx position).map fun item =>
        ⟨item.1, path.child (.index item.2), .other⟩ := by
  induction items generalizing position with
  | nil => rfl
  | cons item rest ih => simp [ofItems, ih]

/-- The children of a visit stand one step further, and a step takes the kind to the kind of the
child; for an index that is no known kind. -/
theorem Visit.children_eq_map (v : Visit) :
    v.children = v.node.steps.map fun s => ⟨s.2, v.path.child s.1, v.kind.child s.1⟩ := by
  obtain ⟨node, path, kind⟩ := v
  cases node with
  | array items => simp [children, ofItems_eq_map, Node.steps]
  | object fields => simp [children, ofFields, Node.steps]
  | _ => rfl

/-- The kind found from the parent's is the kind of the path. -/
theorem Located.children_visit (place : Located) :
    place.visit.children = place.children.map Located.visit := by
  rw [Visit.children_eq_map, children, List.map_map]
  refine List.map_congr_left fun s _ => ?_
  simp [Located.visit, NodeKind.of_child]

/-! ## The loop -/

/-- The loop of a walk: what it visits from a stack until the stack is empty. -/
inductive Walks : List Visit → List Visit → Prop
  | done : Walks [] []
  | turn {v : Visit} {stack visits : List Visit}
      (rest : Walks (pushAll stack v.children.reverse) visits) : Walks (v :: stack) (v :: visits)

/-- The number of nodes on and below a stack. -/
def stackCount (stack : List Visit) : Nat := (stack.map fun v => v.node.count).sum

/-- A turn takes one node off the stack and leaves those below it. -/
theorem stackCount_turn (v : Visit) (stack : List Visit) :
    stackCount (v :: stack) = stackCount (pushAll stack v.children.reverse) + 1 := by
  have hchildren : v.children.map (fun c => c.node.count) =
      v.node.steps.map fun s => s.2.count := by
    rw [Visit.children_eq_map, List.map_map]
    rfl
  simp only [stackCount, pushAll_reverse, List.map_cons, List.map_append, List.sum_cons,
    List.sum_append, hchildren, v.node.count_eq_steps]
  omega

/-- The loop ends: a bound of one turn for each node on and below the stack is enough. -/
theorem walks_walkStack (fuel : Nat) (stack : List Visit) (h : stackCount stack ≤ fuel) :
    Walks stack (walkStack fuel stack) := by
  induction fuel generalizing stack with
  | zero =>
    cases stack with
    | nil => exact .done
    | cons v rest =>
      rw [stackCount_turn] at h
      omega
  | succ fuel ih =>
    cases stack with
    | nil => exact .done
    | cons v rest =>
      rw [stackCount_turn] at h
      exact .turn (ih _ (by omega))

/-- The loop from places at the kinds of their paths visits the trees below them, one after the
other, at the kinds of their paths. -/
theorem Walks.eq_flatMap_below {stack visits : List Visit} (h : Walks stack visits)
    (places : List Located) (hstack : stack = places.map Located.visit) :
    visits = (places.flatMap Located.below).map Located.visit := by
  induction h generalizing places with
  | done =>
    obtain rfl : places = [] := List.map_eq_nil_iff.mp hstack.symm
    rfl
  | @turn v stack visits _ ih =>
    cases places with
    | nil => simp at hstack
    | cons place rest =>
      obtain ⟨rfl, rfl⟩ := List.cons.inj hstack
      have hpush : pushAll (rest.map Located.visit) place.visit.children.reverse =
          (place.children ++ rest).map Located.visit := by
        rw [pushAll_reverse, Located.children_visit, List.map_append]
      rw [ih _ hpush, List.flatMap_cons, Located.below_eq_cons, List.flatMap_append]
      simp

/-- The loop from one place visits the tree below it. -/
theorem Walks.eq_map_visit {node : Node} {path : DocPath} {visits : List Visit}
    (h : Walks [⟨node, path, NodeKind.of path⟩] visits) :
    visits = (preorder path node).map Located.visit := by
  have heq := h.eq_flatMap_below [⟨path, node⟩] rfl
  simpa [Located.below] using heq

/-- The loop of a walk ends. -/
theorem walks_walk (node : Node) (path : DocPath) :
    Walks [⟨node, path, NodeKind.of path⟩] (walk node path) :=
  walks_walkStack _ _ (by simp [stackCount])

/-- A walk visits the tree below its start, every node at the kind of its path. -/
theorem walk_eq_map_visit (node : Node) (path : DocPath) :
    walk node path = (preorder path node).map Located.visit :=
  (walks_walk node path).eq_map_visit

/-- From every node and every start path the loop ends, and in one way only; its visits are the
pre-order of the recursion, and the kind at every visit is the kind of its path. -/
theorem walk_visits_preorder (node : Node) (path : DocPath) :
    (∀ visits, Walks [⟨node, path, NodeKind.of path⟩] visits ↔ visits = walk node path) ∧
      ((walk node path).map fun v => ⟨v.path, v.node⟩) = preorder path node ∧
      ∀ v ∈ walk node path, v.kind = NodeKind.of v.path := by
  refine ⟨?_, ?_, ?_⟩
  · intro visits
    constructor
    · intro h
      rw [walk_eq_map_visit]
      exact h.eq_map_visit
    · rintro rfl
      exact walks_walk node path
  · rw [walk_eq_map_visit, List.map_map]
    exact List.map_id _
  · intro v hv
    rw [walk_eq_map_visit] at hv
    obtain ⟨place, _, rfl⟩ := List.mem_map.mp hv
    rfl

end ApiLint
