import ApiLint.Number.Binary64
set_option autoImplicit false

/-!
# Document trees

The tree that a document is read into, whatever its format was.  Integers and
floats are kept apart, and an object is the list of its fields in document order:
that order decides the order of visits and of violations.  The readers build
objects through `setField`, so their keys are distinct; `Node.WellFormed` states
that invariant.
-/

namespace ApiLint

/-- A node of a document tree. -/
inductive Node where
  | null
  | bool (value : Bool)
  | int (value : Int)
  | float (value : Binary64)
  | string (value : String)
  | array (items : List Node)
  | object (fields : List (String × Node))
  deriving Repr, Inhabited

/-- The fields of an object, in document order. -/
abbrev Fields := List (String × Node)

namespace Fields

/-- The value of the first field with a key. -/
def get? : Fields → String → Option Node
  | [], _ => none
  | (k, v) :: rest, key => if k = key then some v else get? rest key

/-- Gives a key a value: a key that is there keeps its place, a new key goes last. -/
def setField : Fields → String → Node → Fields
  | [], key, value => [(key, value)]
  | (k, v) :: rest, key, value =>
    if k = key then (k, value) :: rest else (k, v) :: setField rest key value

/-- The keys in document order. -/
def keys (fields : Fields) : List String := fields.map Prod.fst

/-- A key is present. -/
def hasKey (fields : Fields) (key : String) : Bool := (get? fields key).isSome

end Fields

namespace Node

/-! ## Looking inside a node -/

/-- The fields of an object; nothing for any other node. -/
def fields? : Node → Option Fields
  | object fields => some fields
  | _ => none

/-- The elements of an array; nothing for any other node. -/
def items? : Node → Option (List Node)
  | array items => some items
  | _ => none

/-- The text of a string; nothing for any other node. -/
def string? : Node → Option String
  | string s => some s
  | _ => none

/-- The truth value of a boolean; nothing for any other node. -/
def bool? : Node → Option Bool
  | bool b => some b
  | _ => none

/-- The value under a key of an object; nothing for any other node. -/
def get? (node : Node) (key : String) : Option Node :=
  match node with
  | object fields => Fields.get? fields key
  | _ => none

/-- The fields of an object, and none of any other node. -/
def fields (node : Node) : Fields := node.fields?.getD []

/-- The elements of an array, and none of any other node. -/
def items (node : Node) : List Node := node.items?.getD []

/-- The string under a key of an object. -/
def getString? (node : Node) (key : String) : Option String := (node.get? key).bind string?

/-- The elements of the array under a key of an object, and none otherwise. -/
def getItems (node : Node) (key : String) : List Node := ((node.get? key).map items).getD []

/-- The fields of the object under a key of an object. -/
def getFields? (node : Node) (key : String) : Option Fields := (node.get? key).bind fields?

/-- A key is present in an object. -/
def hasKey (node : Node) (key : String) : Bool := (node.get? key).isSome

/-- The node is an object. -/
def isObject (node : Node) : Bool := node.fields?.isSome

/-- The name of the node's shape. -/
def shape : Node → String
  | null => "null"
  | bool _ => "bool"
  | int _ => "number"
  | float _ => "number"
  | string _ => "string"
  | array _ => "array"
  | object _ => "object"

/-! ## Size and well-formedness -/

mutual

/-- The number of nodes of a tree. -/
def count : Node → Nat
  | array items => 1 + countItems items
  | object fields => 1 + countFields fields
  | _ => 1

/-- The number of nodes of a list of trees. -/
def countItems : List Node → Nat
  | [] => 0
  | item :: rest => count item + countItems rest

/-- The number of nodes of the values of fields. -/
def countFields : List (String × Node) → Nat
  | [] => 0
  | (_, value) :: rest => count value + countFields rest

end

mutual

/-- Every object of the tree has distinct keys. -/
def WellFormed : Node → Prop
  | array items => WellFormedItems items
  | object fields => (fields.map Prod.fst).Nodup ∧ WellFormedFields fields
  | _ => True

/-- Every tree of the list is well formed. -/
def WellFormedItems : List Node → Prop
  | [] => True
  | item :: rest => WellFormed item ∧ WellFormedItems rest

/-- Every value of the fields is well formed. -/
def WellFormedFields : List (String × Node) → Prop
  | [] => True
  | (_, value) :: rest => WellFormed value ∧ WellFormedFields rest

end

/-! ## Structural equality -/

mutual

/-- Structural equality: an integer never equals a float, floats compare as numbers, and
the order of the keys of an object does not matter. -/
def same : Node → Node → Bool
  | null, null => true
  | bool a, bool b => a == b
  | int a, int b => a == b
  | float a, float b => a.sameValue b
  | string a, string b => a == b
  | array xs, array ys => sameItems xs ys
  | object fs, object gs => fs.length == gs.length && sameFields fs gs
  | _, _ => false

/-- Two lists are structurally equal, element by element. -/
def sameItems : List Node → List Node → Bool
  | [], [] => true
  | x :: xs, y :: ys => same x y && sameItems xs ys
  | _, _ => false

/-- Every field has a structurally equal partner under its key. -/
def sameFields : List (String × Node) → List (String × Node) → Bool
  | [], _ => true
  | (k, v) :: rest, gs =>
    (match Fields.get? gs k with
      | some w => same v w
      | none => false) && sameFields rest gs

end

end Node

/-! ## Lemmas on fields -/

namespace Fields

theorem get?_setField (fields : Fields) (key other : String) (value : Node) :
    get? (setField fields key value) other =
      if key = other then some value else get? fields other := by
  induction fields with
  | nil => rfl
  | cons field rest ih =>
    obtain ⟨k, v⟩ := field
    by_cases hk : k = key
    · subst hk
      by_cases ho : k = other <;> simp [setField, get?, ho]
    · by_cases ho : k = other
      · subst ho
        have : ¬ key = k := fun h => hk h.symm
        simp [setField, get?, hk, this]
      · simp [setField, get?, hk, ho, ih]

theorem keys_setField (fields : Fields) (key : String) (value : Node) :
    keys (setField fields key value) =
      if key ∈ keys fields then keys fields else keys fields ++ [key] := by
  induction fields with
  | nil => rfl
  | cons field rest ih =>
    obtain ⟨k, v⟩ := field
    by_cases hk : k = key
    · simp [setField, keys, hk]
    · have hk' : ¬ key = k := fun h => hk h.symm
      simp only [keys] at ih
      by_cases hm : key ∈ rest.map Prod.fst
      · simp [setField, keys, hk, ih, hm]
      · simp [setField, keys, hk, hk', ih, hm]

theorem nodup_keys_setField {fields : Fields} (key : String) (value : Node)
    (h : (keys fields).Nodup) : (keys (setField fields key value)).Nodup := by
  rw [keys_setField]
  split
  · exact h
  · next hm =>
    refine List.nodup_append.2 ⟨h, by simp, ?_⟩
    intro a ha b hb hab
    simp only [List.mem_singleton] at hb
    exact hm (hb ▸ hab ▸ ha)

theorem get?_eq_none_iff (fields : Fields) (key : String) :
    get? fields key = none ↔ key ∉ keys fields := by
  induction fields with
  | nil => simp [get?, keys]
  | cons field rest ih =>
    obtain ⟨k, v⟩ := field
    by_cases hk : k = key
    · simp [get?, keys, hk]
    · have hk' : ¬ key = k := fun h => hk h.symm
      simpa [get?, keys, hk, hk'] using ih

end Fields

theorem Node.count_pos (node : Node) : 0 < node.count := by
  cases node <;> simp only [Node.count] <;> omega

end ApiLint
