import ApiLint.Proofs.Node.Steps
set_option autoImplicit false

/-!
# Removing from a tree

Elements of an array can be left out, and the values of an object be changed under chosen
keys; together they remove elements from arrays at known places.  The keys of the object and
the values under all other keys stay as they are.
-/

namespace ApiLint

/-- A key leads to the changed value where values are changed. -/
theorem Fields.get?_map (fields : Fields) (f : String → Node → Node) (key : String) :
    get? (fields.map fun field => (field.1, f field.1 field.2)) key =
      (get? fields key).map (f key) := by
  induction fields with
  | nil => rfl
  | cons field rest ih =>
    rw [List.map_cons, get?, get?, ih]
    split
    · next hkey => rw [hkey, Option.map_some]
    · rfl

namespace Node

/-- The array with those of its elements that are kept.  What is no array stays as it is. -/
def keepItems (keep : Node → Bool) : Node → Node
  | array items => array (items.filter keep)
  | node => node

theorem items_keepItems (keep : Node → Bool) (node : Node) :
    (node.keepItems keep).items = node.items.filter keep := by
  cases node <;> rfl

/-- The object with the values under chosen keys changed. -/
def mapValues (node : Node) (p : String → Bool) (f : Node → Node) : Node :=
  match node with
  | object fields =>
    object (fields.map fun field => (field.1, if p field.1 then f field.2 else field.2))
  | node => node

section Values

variable (node : Node) (p : String → Bool) (f : Node → Node)

theorem isObject_mapValues : (node.mapValues p f).isObject = node.isObject := by
  cases node <;> rfl

theorem get?_mapValues (key : String) :
    (node.mapValues p f).get? key =
      (node.get? key).map fun value => if p key then f value else value := by
  cases node with
  | object fields =>
    exact Fields.get?_map fields (fun name value => if p name then f value else value) key
  | _ => rfl

/-- The fields under the chosen keys are changed, and no others come to them. -/
theorem filter_fields_mapValues :
    (node.mapValues p f).fields.filter (fun field => p field.1) =
      (node.fields.filter fun field => p field.1).map fun field => (field.1, f field.2) := by
  cases node with
  | object fields =>
    show (fields.map fun field => (field.1, if p field.1 then f field.2 else field.2)).filter
        (fun field => p field.1) =
      (fields.filter fun field => p field.1).map fun field => (field.1, f field.2)
    rw [List.filter_map]
    apply List.map_congr_left
    intro field hfield
    have hchosen : p field.1 = true := (List.mem_filter.mp hfield).2
    rw [if_pos hchosen]
  | _ => rfl

/-- Elements left out of the array under a chosen key. -/
theorem getItems_mapValues_keepItems {key : String} (hkey : p key = true) (keep : Node → Bool) :
    (node.mapValues p (keepItems keep)).getItems key = (node.getItems key).filter keep := by
  rw [getItems, getItems, get?_mapValues]
  cases node.get? key with
  | none => rfl
  | some value => simp [hkey, items_keepItems]

end Values

end Node

end ApiLint
