import ApiLint.Proofs.Lists
import ApiLint.Proofs.Path.Prefix
set_option autoImplicit false

/-!
# Trees without marked fields

Marks tell, for the object at a path, which of its keys are marked.  Erasing removes the
fields with marked keys and everything inside them, and changes nothing else: what is left
stands at the same paths in the same order.  Trees that are the same after erasing differ
in marked fields alone.
-/

namespace ApiLint

/-- Which keys of the object at a path are marked. -/
abbrev Marks := DocPath → String → Bool

namespace Node

mutual

/-- The tree that stands at a path, without the fields whose keys are marked. -/
def erase (marked : Marks) (path : DocPath) : Node → Node
  | array items => array (eraseItems marked path 0 items)
  | object fields => object (eraseFields marked path fields)
  | null => null
  | bool value => bool value
  | int value => int value
  | float value => float value
  | string value => string value

/-- The elements of an array from a position on, without marked fields inside them. -/
def eraseItems (marked : Marks) (path : DocPath) (position : Nat) : List Node → List Node
  | [] => []
  | item :: rest =>
    erase marked (path.child (.index position)) item :: eraseItems marked path (position + 1) rest

/-- The fields of the object at a path that are not marked, without marked fields inside them. -/
def eraseFields (marked : Marks) (path : DocPath) : List (String × Node) → List (String × Node)
  | [] => []
  | (key, value) :: rest =>
    if marked path key then eraseFields marked path rest
    else (key, erase marked (path.child (.key key)) value) :: eraseFields marked path rest

end

variable (marked : Marks) (path : DocPath)

/-! ## Elements and fields -/

/-- Erased elements are related to the elements, when each of them is. -/
theorem forall₂_eraseItems {related : Node → Node → Prop} {items : List Node} (position : Nat)
    (h : ∀ position, ∀ item ∈ items,
      related (item.erase marked (path.child (.index position))) item) :
    List.Forall₂ related (eraseItems marked path position items) items := by
  induction items generalizing position with
  | nil => exact .nil
  | cons item rest ih =>
    obtain ⟨hitem, hrest⟩ := forall_and.mp fun position => List.forall_mem_cons.mp (h position)
    exact .cons (hitem position) (ih (position + 1) hrest)

/-- What is seen of erased elements is seen of the elements, when it is of each of them. -/
theorem map_eraseItems {γ : Type} {f : Node → γ} {items : List Node} (position : Nat)
    (h : ∀ position, ∀ item ∈ items,
      f (item.erase marked (path.child (.index position))) = f item) :
    (eraseItems marked path position items).map f = items.map f := by
  rw [← List.forall₂_eq_eq_eq, List.forall₂_map_left_iff, List.forall₂_map_right_iff]
  exact forall₂_eraseItems marked path position h

theorem eraseItems_eq_map (position : Nat) (items : List Node) :
    eraseItems marked path position items =
      (items.zipIdx position).map fun item =>
        item.1.erase marked (path.child (.index item.2)) := by
  induction items generalizing position with
  | nil => rfl
  | cons item rest ih => simp [eraseItems, ih]

theorem eraseFields_eq_map (fields : Fields) :
    eraseFields marked path fields =
      (fields.filter fun field => !marked path field.1).map fun field =>
        (field.1, field.2.erase marked (path.child (.key field.1))) := by
  induction fields with
  | nil => rfl
  | cons field rest ih =>
    obtain ⟨key, value⟩ := field
    cases hmarked : marked path key <;> simp [eraseFields, hmarked, ih]

theorem get?_eraseFields (fields : Fields) (key : String) :
    Fields.get? (eraseFields marked path fields) key =
      if marked path key then none
      else (Fields.get? fields key).map (erase marked (path.child (.key key))) := by
  induction fields with
  | nil => simp [eraseFields, Fields.get?]
  | cons field rest ih =>
    obtain ⟨name, value⟩ := field
    by_cases hname : name = key
    · subst hname
      cases hmarked : marked path name <;> simp [eraseFields, hmarked, Fields.get?, ih]
    · cases hmarked : marked path name <;> simp [eraseFields, hmarked, Fields.get?, ih, hname]

/-! ## Looking inside an erased node -/

section Looking

variable (node : Node)

theorem isObject_erase : (node.erase marked path).isObject = node.isObject := by
  cases node <;> rfl

theorem string?_erase : (node.erase marked path).string? = node.string? := by
  cases node <;> rfl

theorem items?_erase :
    (node.erase marked path).items? = node.items?.map (eraseItems marked path 0) := by
  cases node <;> rfl

theorem items_erase :
    (node.erase marked path).items = eraseItems marked path 0 node.items := by
  cases node <;> rfl

theorem fields_erase : (node.erase marked path).fields = eraseFields marked path node.fields := by
  cases node <;> rfl

/-- Under a key that is not marked stands what stood there, erased. -/
theorem get?_erase {key : String} (h : marked path key = false) :
    (node.erase marked path).get? key =
      (node.get? key).map (erase marked (path.child (.key key))) := by
  rw [get?_eq_get?_fields, get?_eq_get?_fields, fields_erase, get?_eraseFields, h]
  rfl

theorem getString?_erase {key : String} (h : marked path key = false) :
    (node.erase marked path).getString? key = node.getString? key := by
  rw [getString?, getString?, get?_erase marked path node h]
  cases node.get? key with
  | none => rfl
  | some value => exact string?_erase marked _ value

theorem hasKey_erase {key : String} (h : marked path key = false) :
    (node.erase marked path).hasKey key = node.hasKey key := by
  rw [hasKey, hasKey, get?_erase marked path node h, Option.isSome_map]

theorem strings_erase :
    (node.erase marked path).items.filterMap string? = node.items.filterMap string? := by
  have hstrings : (eraseItems marked path 0 node.items).map string? = node.items.map string? :=
    map_eraseItems marked path 0 fun _ item _ => string?_erase marked _ item
  have himages := congrArg (List.filterMap id) hstrings
  rwa [List.filterMap_map, List.filterMap_map, ← items_erase] at himages

/-- Without marks on its keys, a node keeps all its fields. -/
theorem fields_erase_of_unmarked (h : ∀ key, marked path key = false) :
    (node.erase marked path).fields =
      node.fields.map fun field => (field.1, field.2.erase marked (path.child (.key field.1))) := by
  simp [fields_erase, eraseFields_eq_map, h]

end Looking

/-! ## Steps -/

/-- The step leads to a field that is marked. -/
def isMarkedStep : Segment → Bool
  | .key key => marked path key
  | .index _ => false

/-- The steps that are left lead to the children, erased. -/
theorem steps_erase (node : Node) :
    (node.erase marked path).steps =
      (node.steps.filter fun s => !isMarkedStep marked path s.1).map fun s =>
        (s.1, s.2.erase marked (path.child s.1)) := by
  cases node with
  | array items =>
    have hall : ∀ s ∈ (array items).steps, (!isMarkedStep marked path s.1) = true := by
      intro s hs
      obtain ⟨item, _, rfl⟩ := List.mem_map.mp hs
      rfl
    rw [List.filter_eq_self.mpr hall, erase, steps, steps, eraseItems_eq_map, List.map_map]
    refine List.ext_getElem? fun position => ?_
    simp [Function.comp_def]
  | object fields =>
    simp [erase, steps, eraseFields_eq_map, List.filter_map, Function.comp_def, isMarkedStep]
  | _ => rfl

theorem WellFormed.erase {node : Node} (h : node.WellFormed) :
    (node.erase marked path).WellFormed := by
  induction node using Node.induction_steps generalizing path with
  | step node ih =>
    cases node with
    | array items =>
      refine (wellFormed_array_iff _).mpr fun item hitem => ?_
      rw [eraseItems_eq_map] at hitem
      obtain ⟨⟨child, position⟩, hchild, rfl⟩ := List.mem_map.mp hitem
      have hs : (Segment.index position, child) ∈ (array items).steps :=
        List.mem_map.mpr ⟨_, hchild, rfl⟩
      exact ih _ hs _ (h.of_mem_steps hs)
    | object fields =>
      rw [Node.erase, eraseFields_eq_map, wellFormed_object_iff]
      constructor
      · have hkeys : (Fields.keys (fields.filter fun field => !marked path field.1)).Nodup :=
          h.nodup_keys.sublist (List.filter_sublist.map Prod.fst)
        simpa [Fields.keys, Function.comp_def] using hkeys
      · intro field hfield
        obtain ⟨child, hchild, rfl⟩ := List.mem_map.mp hfield
        have hs : (Segment.key child.1, child.2) ∈ (object fields).steps :=
          List.mem_map.mpr ⟨child, List.mem_of_mem_filter hchild, rfl⟩
        exact ih _ hs _ (h.of_mem_steps hs)
    | _ => exact h

end Node

/-- The place with its node erased. -/
def Located.erase (marked : Marks) (place : Located) : Located :=
  ⟨place.path, place.node.erase marked place.path⟩

end ApiLint
