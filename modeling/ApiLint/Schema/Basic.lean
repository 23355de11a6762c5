import ApiLint.Node
set_option autoImplicit false

/-!
# Predicates on schemas

All of them are total: a node that is not shaped like the construct asked about
simply does not satisfy the predicate.
-/

namespace ApiLint.Schema

/-- A reference: an object with the key `$ref`. -/
def isRef (node : Node) : Bool := node.hasKey "$ref"

/-- The `type` of a schema is exactly this one. -/
def hasType (schema : Node) (expected : String) : Bool :=
  schema.getString? "type" = some expected

/-- The types that hold no further schemas. -/
def primitiveTypes : List String := ["string", "number", "integer", "boolean"]

/-- The `type` of a schema is a primitive one. -/
def isPrimitive (schema : Node) : Bool :=
  match schema.getString? "type" with
  | some name => primitiveTypes.contains name
  | none => false

/-- An array schema whose `items` is a reference or of a primitive type. -/
def isArrayOfNamed (schema : Node) : Bool :=
  hasType schema "array" &&
    (match schema.get? "items" with
      | some items => isRef items || isPrimitive items
      | none => false)

/-- A code generator finds a name for the schema: it is a reference, primitive, or an array of
one of these. -/
def isNamed (schema : Node) : Bool :=
  isRef schema || isPrimitive schema || isArrayOfNamed schema

/-- The extension key that excludes an operation from generated clients. -/
def sdkExcludeKey : String := "x-sdk-exclude"

/-- The node is marked as excluded from generated clients. -/
def isSdkExcluded (node : Node) : Bool :=
  (node.get? sdkExcludeKey).bind Node.bool? = some true

/-! ## Compositions -/

/-- The branches of a schema under a combining keyword, if it is there with an array. -/
def branches? (schema : Node) (keyword : String) : Option (List Node) :=
  (schema.get? keyword).bind Node.items?

/-- The schema defines a property itself. -/
def definesProperty (name : String) (schema : Node) : Bool :=
  match schema.getFields? "properties" with
  | some properties => properties.any (·.1 = name)
  | none => false

mutual

/-- A constraint holds for a schema or for its composition: the schema satisfies it itself, or
every branch of a non-empty `oneOf` does, or every branch of a non-empty `anyOf`, or some
branch of `allOf`. -/
def satisfies (constraint : Node → Bool) : Node → Bool
  | .object fields =>
    constraint (.object fields) ||
      satisfiesUnder constraint "oneOf" fields ||
      satisfiesUnder constraint "anyOf" fields ||
      satisfiesUnder constraint "allOf" fields
  | _ => false

/-- What the value of the first field with the combining keyword contributes. -/
def satisfiesUnder (constraint : Node → Bool) (keyword : String) :
    List (String × Node) → Bool
  | [] => false
  | (key, value) :: rest =>
    if key = keyword then satisfiesBranches constraint (keyword = "allOf") value
    else satisfiesUnder constraint keyword rest

/-- What the value of a combining keyword contributes: one branch suffices, or all of at least
one branch are needed. -/
def satisfiesBranches (constraint : Node → Bool) (oneSuffices : Bool) : Node → Bool
  | .array branches =>
    if oneSuffices then satisfiesSome constraint branches
    else !branches.isEmpty && satisfiesEvery constraint branches
  | _ => false

/-- Every branch satisfies the constraint. -/
def satisfiesEvery (constraint : Node → Bool) : List Node → Bool
  | [] => true
  | branch :: rest => satisfies constraint branch && satisfiesEvery constraint rest

/-- Some branch satisfies the constraint. -/
def satisfiesSome (constraint : Node → Bool) : List Node → Bool
  | [] => false
  | branch :: rest => satisfies constraint branch || satisfiesSome constraint rest

end

/-- A schema or its composition defines a property. -/
def composesProperty (schema : Node) (name : String) : Bool :=
  satisfies (definesProperty name) schema

/-! ## Lemmas -/

theorem satisfiesEvery_eq_all (constraint : Node → Bool) (branches : List Node) :
    satisfiesEvery constraint branches = branches.all (satisfies constraint) := by
  induction branches with
  | nil => rfl
  | cons branch rest ih => simp [satisfiesEvery, ih]

theorem satisfiesSome_eq_any (constraint : Node → Bool) (branches : List Node) :
    satisfiesSome constraint branches = branches.any (satisfies constraint) := by
  induction branches with
  | nil => rfl
  | cons branch rest ih => simp [satisfiesSome, ih]

theorem satisfiesBranches_eq (constraint : Node → Bool) (oneSuffices : Bool) (value : Node) :
    satisfiesBranches constraint oneSuffices value =
      (match value.items? with
        | some branches =>
          if oneSuffices then branches.any (satisfies constraint)
          else !branches.isEmpty && branches.all (satisfies constraint)
        | none => false) := by
  cases value with
  | array branches =>
    simp only [satisfiesBranches, Node.items?, satisfiesEvery_eq_all, satisfiesSome_eq_any]
  | _ => simp only [satisfiesBranches, Node.items?]

/-- The contribution of a combining keyword, said with the branches under it. -/
theorem satisfiesUnder_eq (constraint : Node → Bool) (keyword : String) (fields : Fields) :
    satisfiesUnder constraint keyword fields =
      (match branches? (.object fields) keyword with
        | some branches =>
          if keyword = "allOf" then branches.any (satisfies constraint)
          else !branches.isEmpty && branches.all (satisfies constraint)
        | none => false) := by
  induction fields with
  | nil => simp [satisfiesUnder, branches?, Node.get?, Fields.get?]
  | cons field rest ih =>
    obtain ⟨key, value⟩ := field
    by_cases hk : key = keyword
    · simp [satisfiesUnder, hk, branches?, Node.get?, Fields.get?, satisfiesBranches_eq]
    · simp only [satisfiesUnder, hk, if_false, ih]
      simp [branches?, Node.get?, Fields.get?, hk]

end ApiLint.Schema
