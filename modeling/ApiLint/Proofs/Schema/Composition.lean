import ApiLint.Proofs.Node.Outline
set_option autoImplicit false

/-!
# Compositions and outlines

The predicates on schemas depend on the outline of a schema alone, also where a
constraint is looked for through the branches of a composition.
-/

namespace ApiLint.Schema

/-! ## Predicates -/

section Predicates

variable {a b : Node} (h : a.outline = b.outline)
include h

theorem isRef_eq_of_outline : isRef a = isRef b := Node.hasKey_eq_of_outline h _

theorem hasType_eq_of_outline (expected : String) : hasType a expected = hasType b expected := by
  rw [hasType, hasType, Node.getString?_eq_of_outline h]

theorem isPrimitive_eq_of_outline : isPrimitive a = isPrimitive b := by
  rw [isPrimitive, isPrimitive, Node.getString?_eq_of_outline h]

theorem isArrayOfNamed_eq_of_outline : isArrayOfNamed a = isArrayOfNamed b := by
  rw [isArrayOfNamed, isArrayOfNamed, hasType_eq_of_outline h]
  obtain ⟨ha, hb⟩ | ⟨v, w, ha, hb, hvw⟩ := Node.get?_of_outline h "items"
  · rw [ha, hb]
  · simp only [ha, hb, isRef_eq_of_outline hvw, isPrimitive_eq_of_outline hvw]

theorem isNamed_eq_of_outline : isNamed a = isNamed b := by
  rw [isNamed, isNamed, isRef_eq_of_outline h, isPrimitive_eq_of_outline h,
    isArrayOfNamed_eq_of_outline h]

theorem isSdkExcluded_eq_of_outline : isSdkExcluded a = isSdkExcluded b := by
  rw [isSdkExcluded, isSdkExcluded]
  obtain ⟨ha, hb⟩ | ⟨v, w, ha, hb, hvw⟩ := Node.get?_of_outline h sdkExcludeKey
  · rw [ha, hb]
  · rw [ha, hb, Option.bind_some, Option.bind_some, Node.bool?_eq_of_outline hvw]

/-- A keyword combines no branches in both schemas, or branches with one outline each. -/
theorem branches?_of_outline (keyword : String) :
    branches? a keyword = none ∧ branches? b keyword = none ∨
      ∃ bs cs, branches? a keyword = some bs ∧ branches? b keyword = some cs ∧
        bs.map Node.outline = cs.map Node.outline := by
  rw [branches?, branches?]
  obtain ⟨ha, hb⟩ | ⟨v, w, ha, hb, hvw⟩ := Node.get?_of_outline h keyword
  · rw [ha, hb]
    exact .inl ⟨rfl, rfl⟩
  · rw [ha, hb, Option.bind_some, Option.bind_some]
    have hlabel := Node.label_eq_of_outline hvw
    have hitems := Node.map_outline_items hvw
    cases v <;> cases w <;> simp_all [Node.label, Node.items?, Node.items]

end Predicates

/-- A schema defines the properties that are keys below its keyword. -/
theorem definesProperty_eq (name : String) (schema : Node) :
    definesProperty name schema =
      ((schema.get? "properties").map fun properties => properties.hasKey name).getD false := by
  have hany : ∀ properties : Fields, (properties.any fun field => decide (field.1 = name)) =
      (Fields.get? properties name).isSome := by
    intro properties
    rw [Bool.eq_iff_iff, ← not_iff_not, Option.isSome_iff_ne_none, not_not,
      Fields.get?_eq_none_iff]
    simp [Fields.keys]
  rw [definesProperty, Node.getFields?]
  cases schema.get? "properties" with
  | none => rfl
  | some value => cases value <;> first | exact hany _ | rfl

theorem definesProperty_eq_of_outline (name : String) {a b : Node} (h : a.outline = b.outline) :
    definesProperty name a = definesProperty name b := by
  rw [definesProperty_eq, definesProperty_eq]
  obtain ⟨ha, hb⟩ | ⟨v, w, ha, hb, hvw⟩ := Node.get?_of_outline h "properties"
  · rw [ha, hb]
  · rw [ha, hb, Option.map_some, Option.map_some, Node.hasKey_eq_of_outline hvw]

/-! ## Branches -/

theorem count_lt_of_mem_branches {schema branch : Node} {keyword : String} {branches : List Node}
    (hbranches : branches? schema keyword = some branches) (hmem : branch ∈ branches) :
    branch.count < schema.count := by
  obtain ⟨value, hvalue, hitems⟩ := Option.bind_eq_some_iff.mp hbranches
  have hschema := Node.count_lt_of_mem_steps (Node.mem_steps_of_get? hvalue)
  cases value with
  | array items =>
    obtain rfl : items = branches := Option.some.inj hitems
    have hle : branch.count ≤ (items.map Node.count).sum :=
      List.le_sum_of_mem (List.mem_map_of_mem hmem)
    rw [Node.count, Node.countItems_eq_sum] at hschema
    omega
  | _ => simp [Node.items?] at hitems

theorem wellFormed_of_mem_branches {schema branch : Node} {keyword : String}
    {branches : List Node} (h : schema.WellFormed)
    (hbranches : branches? schema keyword = some branches) (hmem : branch ∈ branches) :
    branch.WellFormed := by
  obtain ⟨value, hvalue, hitems⟩ := Option.bind_eq_some_iff.mp hbranches
  exact (h.of_get? hvalue).of_mem_items (by simpa [Node.items, hitems] using hmem)

/-- What holds of a schema as soon as it holds of its branches holds of every schema. -/
theorem induction_branches {P : Node → Prop}
    (step : ∀ schema, (∀ keyword branches, branches? schema keyword = some branches →
      ∀ branch ∈ branches, P branch) → P schema) (schema : Node) : P schema := by
  induction hn : schema.count using Nat.strongRecOn generalizing schema with
  | ind n ih =>
    refine step schema fun keyword branches hbranches branch hmem => ?_
    exact ih branch.count (hn ▸ count_lt_of_mem_branches hbranches hmem) branch rfl

/-! ## Constraints -/

/-- What the branches under a combining keyword contribute to a constraint. -/
def contributes (constraint : Node → Bool) (keyword : String) (schema : Node) : Bool :=
  match branches? schema keyword with
  | some branches =>
    if keyword = "allOf" then branches.any (satisfies constraint)
    else !branches.isEmpty && branches.all (satisfies constraint)
  | none => false

/-- An object satisfies a constraint itself, or one of the combining keywords contributes it. -/
theorem satisfies_eq (constraint : Node → Bool) (schema : Node) :
    satisfies constraint schema =
      (schema.isObject && (constraint schema || contributes constraint "oneOf" schema ||
        contributes constraint "anyOf" schema || contributes constraint "allOf" schema)) := by
  cases schema with
  | object fields =>
    simp only [satisfies, satisfiesUnder_eq]
    rfl
  | _ => simp [satisfies, Node.isObject, Node.fields?]

/-- Whether a constraint that depends on the outline alone is satisfied depends on it alone. -/
theorem satisfies_eq_of_outline {constraint : Node → Bool}
    (hconstraint : ∀ a b : Node, a.outline = b.outline → constraint a = constraint b)
    {a b : Node} (h : a.outline = b.outline) :
    satisfies constraint a = satisfies constraint b := by
  induction a using induction_branches generalizing b with
  | step a ih =>
    have hcontributes : ∀ keyword,
        contributes constraint keyword a = contributes constraint keyword b := by
      intro keyword
      unfold contributes
      obtain ⟨ha, hb⟩ | ⟨bs, cs, ha, hb, hbranches⟩ := branches?_of_outline h keyword
      · rw [ha, hb]
      · have hsatisfies : bs.map (satisfies constraint) = cs.map (satisfies constraint) :=
          map_eq_of_view hbranches fun x hx y _ hxy => ih keyword bs ha x hx hxy
        have hany : bs.any (satisfies constraint) = cs.any (satisfies constraint) := by
          simpa [List.any_map] using congrArg (List.any · id) hsatisfies
        have hall : bs.all (satisfies constraint) = cs.all (satisfies constraint) := by
          simpa [List.all_map] using congrArg (List.all · id) hsatisfies
        have hempty : bs.isEmpty = cs.isEmpty := by
          simpa using congrArg List.isEmpty hsatisfies
        simp only [ha, hb, hany, hall, hempty]
    rw [satisfies_eq, satisfies_eq, Node.isObject_eq_of_outline h, hconstraint a b h,
      hcontributes, hcontributes, hcontributes]

end ApiLint.Schema
