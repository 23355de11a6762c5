import ApiLint.Proofs.Schema.Merging
import ApiLint.Proofs.Schema.Payload
set_option autoImplicit false

/-!
# Compositions without payload

Of a schema its composition reads which names are required, which properties are defined,
and the branches.  Keywords that are not read are taken over into merged views, but nothing
of this depends on them there either.
-/

namespace ApiLint.Schema

/-! ## Constraints -/

/-- A combining keyword contributes what its value does. -/
theorem contributes_eq (constraint : Node → Bool) (keyword : String) (schema : Node) :
    contributes constraint keyword schema =
      ((schema.get? keyword).map
        (satisfiesBranches constraint (keyword = "allOf"))).getD false := by
  unfold contributes branches?
  cases schema.get? keyword with
  | none => rfl
  | some value =>
    cases value with
    | array items =>
      simp [Node.items?, satisfiesBranches, satisfiesSome_eq_any, satisfiesEvery_eq_all]
    | _ => rfl

theorem branchKeyword_mem_readKeywords {keyword : String} (h : keyword ∈ branchKeywords) :
    keyword ∈ readKeywords := by
  have hall : ∀ keyword ∈ branchKeywords, keyword ∈ readKeywords := by decide
  exact hall keyword h

/-- Every branch of a combining keyword stands at the role of a schema. -/
theorem role_of_branch {path : DocPath} (hrole : Role.of path = .schema) {keyword : String}
    (hkeyword : keyword ∈ branchKeywords) (position : Nat) :
    Role.of ((path.child (.key keyword)).child (.index position)) = .schema :=
  HeldAt.role (.branch position hkeyword) hrole

/-- What the branches contribute to a constraint does not depend on marked fields, when that of
no branch does. -/
theorem satisfiesBranches_erase {marked : Marks} {constraint : Node → Bool} {path : DocPath}
    {value : Node}
    (h : ∀ position, ∀ item ∈ value.items,
      satisfies constraint (item.erase marked (path.child (.index position))) =
        satisfies constraint item) (oneSuffices : Bool) :
    satisfiesBranches constraint oneSuffices (value.erase marked path) =
      satisfiesBranches constraint oneSuffices value := by
  cases value with
  | array items =>
    have hsatisfies : (Node.eraseItems marked path 0 items).map (satisfies constraint) =
        items.map (satisfies constraint) := Node.map_eraseItems marked path 0 h
    have hany := congrArg (List.any · id) hsatisfies
    have hall := congrArg (List.all · id) hsatisfies
    have hempty := congrArg List.isEmpty hsatisfies
    simp only [List.any_map, List.all_map, List.isEmpty_map, Function.id_comp] at hany hall hempty
    simp only [Node.erase, satisfiesBranches, satisfiesSome_eq_any, satisfiesEvery_eq_all, hany,
      hall, hempty]
  | _ => rfl

section Constraints

variable {marked : Marks} (hmarks : MarksUnread marked)
include hmarks

/-- Below a schema, a keyword that is read has the value that it had, erased. -/
theorem get?_erase_schema {path : DocPath} (hrole : Role.of path = .schema) (node : Node)
    {keyword : String} (hread : keyword ∈ readKeywords) :
    (node.erase marked path).get? keyword =
      (node.get? keyword).map (Node.erase marked (path.child (.key keyword))) := by
  refine Node.get?_erase marked path node (hmarks.unmarked ?_)
  rw [hrole]
  exact List.contains_iff_mem.mpr hread

/-- Whether a constraint is satisfied does not depend on marked fields, when the constraint itself
does not. -/
theorem satisfies_erase {constraint : Node → Bool}
    (hconstraint : ∀ (path : DocPath) (node : Node), Role.of path = .schema →
      constraint (node.erase marked path) = constraint node)
    {path : DocPath} (hrole : Role.of path = .schema) (node : Node) :
    satisfies constraint (node.erase marked path) = satisfies constraint node := by
  induction node using induction_branches generalizing path with
  | step node ih =>
    have hcontributes : ∀ keyword ∈ branchKeywords,
        contributes constraint keyword (node.erase marked path) =
          contributes constraint keyword node := by
      intro keyword hkeyword
      rw [contributes_eq, contributes_eq, get?_erase_schema hmarks hrole node
        (branchKeyword_mem_readKeywords hkeyword), Option.map_map]
      cases hvalue : node.get? keyword with
      | none => rfl
      | some value =>
        refine satisfiesBranches_erase (fun position item hitem => ?_) _
        cases value with
        | array items =>
          have hbranches : branches? node keyword = some items := by
            rw [branches?, hvalue]
            rfl
          exact ih keyword items hbranches item hitem (role_of_branch hrole hkeyword position)
        | _ => simp [Node.items, Node.items?] at hitem
    rw [satisfies_eq, satisfies_eq, Node.isObject_erase, hconstraint path node hrole,
      hcontributes "oneOf" (by decide), hcontributes "anyOf" (by decide),
      hcontributes "allOf" (by decide)]

theorem definesProperty_erase (name : String) {path : DocPath} (node : Node)
    (hrole : Role.of path = .schema) :
    definesProperty name (node.erase marked path) = definesProperty name node := by
  rw [definesProperty_eq, definesProperty_eq, get?_erase_schema hmarks hrole node (by decide)]
  cases node.get? "properties" with
  | none => rfl
  | some value =>
    refine Node.hasKey_erase marked _ value (hmarks.unmarked ?_)
    rw [Role.of_child, hrole]
    rfl

end Constraints

/-! ## What a composition reads -/

/-- The strings of the list of required names. -/
def requiredOf (schema : Node) : List String :=
  (schema.getItems "required").filterMap Node.string?

/-- Two schemas agree on all that is read of a composition: the required names, the properties and
what their branches define. -/
structure Agree (a b : Node) : Prop where
  isObject : a.isObject = b.isObject
  required : requiredOf a = requiredOf b
  hasProperties : ((a.get? "properties").map Node.isObject).getD false =
    ((b.get? "properties").map Node.isObject).getD false
  properties : ∀ name, definesProperty name a = definesProperty name b
  branches : ∀ name, ∀ keyword ∈ branchKeywords,
    (a.get? keyword).map (satisfiesBranches (definesProperty name) (keyword = "allOf")) =
      (b.get? keyword).map (satisfiesBranches (definesProperty name) (keyword = "allOf"))

theorem Agree.composesProperty {a b : Node} (h : Agree a b) (name : String) :
    composesProperty a name = composesProperty b name := by
  have hcontributes : ∀ keyword ∈ branchKeywords,
      contributes (definesProperty name) keyword a =
        contributes (definesProperty name) keyword b := by
    intro keyword hkeyword
    rw [contributes_eq, contributes_eq, h.branches name keyword hkeyword]
  rw [Schema.composesProperty, Schema.composesProperty, satisfies_eq, satisfies_eq, h.isObject,
    h.properties name, hcontributes "oneOf" (by decide), hcontributes "anyOf" (by decide),
    hcontributes "allOf" (by decide)]

section Schemas

variable {marked : Marks} (hmarks : MarksUnread marked)
include hmarks

theorem map_satisfiesBranches_erase (name : String) {path : DocPath}
    (hrole : Role.of path = .schema) (node : Node) {keyword : String}
    (hkeyword : keyword ∈ branchKeywords) (oneSuffices : Bool) :
    ((node.erase marked path).get? keyword).map
        (satisfiesBranches (definesProperty name) oneSuffices) =
      (node.get? keyword).map (satisfiesBranches (definesProperty name) oneSuffices) := by
  rw [get?_erase_schema hmarks hrole node (branchKeyword_mem_readKeywords hkeyword),
    Option.map_map]
  refine congrArg (Option.map · _) (funext fun value => ?_)
  refine satisfiesBranches_erase (fun position item _ => ?_) oneSuffices
  exact satisfies_erase hmarks (fun _ node hrole => definesProperty_erase hmarks name node hrole)
    (role_of_branch hrole hkeyword position) item

/-- A schema without marked fields agrees with the schema. -/
theorem agree_erase {path : DocPath} (hrole : Role.of path = .schema) (node : Node) :
    Agree (node.erase marked path) node where
  isObject := Node.isObject_erase marked path node
  required := by
    rw [requiredOf, requiredOf, Node.getItems, Node.getItems,
      get?_erase_schema hmarks hrole node (by decide)]
    cases node.get? "required" with
    | none => rfl
    | some value => exact Node.strings_erase marked _ value
  hasProperties := by
    rw [get?_erase_schema hmarks hrole node (by decide)]
    cases node.get? "properties" with
    | none => rfl
    | some value => exact Node.isObject_erase marked _ value
  properties name := definesProperty_erase hmarks name node hrole
  branches name _ hkeyword := map_satisfiesBranches_erase hmarks name hrole node hkeyword _

end Schemas

/-! ## Merged schemas -/

namespace Merged

/-- No keyword that is not taken over as it is stands among the merged ones. -/
def Clean (m : Merged) : Prop := ∀ key ∈ reserved, Fields.get? m.keywords key = none

theorem Clean.absorb {m : Merged} (h : m.Clean) {schema : Node} (hschema : schema.WellFormed) :
    (m.absorb schema.fields).Clean := by
  intro key hkey
  rw [get?_keywords_absorb hschema, if_pos hkey]
  exact h key hkey

/-- Two merges agree on all that is read of a composition. -/
structure Agree (m n : Merged) : Prop where
  clean : m.Clean ∧ n.Clean
  required : m.required = n.required
  hasProperties : m.hasProperties = n.hasProperties
  properties : ∀ name,
    (Fields.get? m.properties name).isSome = (Fields.get? n.properties name).isSome
  branches : ∀ name, ∀ keyword ∈ branchKeywords,
    (Fields.get? m.keywords keyword).map
        (satisfiesBranches (definesProperty name) (keyword = "allOf")) =
      (Fields.get? n.keywords keyword).map
        (satisfiesBranches (definesProperty name) (keyword = "allOf"))

theorem definesProperty_eq_isSome (name : String) (schema : Node) :
    definesProperty name schema =
      (Fields.get? ((schema.getFields? "properties").getD []) name).isSome := by
  rw [definesProperty_eq, Node.getD_getFields?]
  cases schema.get? "properties" with
  | none => rfl
  | some value =>
    show value.hasKey name = (Fields.get? value.fields name).isSome
    rw [← Node.get?_eq_get?_fields, Node.hasKey]

theorem Agree.absorb {m n : Merged} (h : m.Agree n) {a b : Node} (ha : a.WellFormed)
    (hb : b.WellFormed) (hab : Schema.Agree a b) :
    (m.absorb a.fields).Agree (n.absorb b.fields) where
  clean := ⟨h.clean.1.absorb ha, h.clean.2.absorb hb⟩
  required := by
    have hnames : (a.getItems "required").filterMap Node.string? =
        (b.getItems "required").filterMap Node.string? := hab.required
    rw [required_absorb ha, required_absorb hb, h.required, hnames]
  hasProperties := by
    rw [hasProperties_absorb ha, hasProperties_absorb hb, h.hasProperties, hab.hasProperties]
  properties name := by
    have hname := hab.properties name
    rw [definesProperty_eq_isSome, definesProperty_eq_isSome] at hname
    have hkeysA := ((Node.wellFormed_object_iff _).mp (ha.object_getFields? "properties")).1
    have hkeysB := ((Node.wellFormed_object_iff _).mp (hb.object_getFields? "properties")).1
    rw [properties_absorb ha, properties_absorb hb, get?_setAll _ hkeysA, get?_setAll _ hkeysB,
      Option.isSome_or, Option.isSome_or, hname, h.properties name]
  branches name keyword hkeyword := by
    rw [get?_keywords_absorb ha, get?_keywords_absorb hb]
    split
    · exact h.branches name keyword hkeyword
    · rw [Option.map_or, Option.map_or, hab.branches name keyword hkeyword,
        h.branches name keyword hkeyword]

/-- Schemas that agree one by one are absorbed alike. -/
theorem Agree.absorbAll {m n : Merged} (h : m.Agree n) {schemas others : List Node}
    (hagree : List.Forall₂ (fun a b => a.WellFormed ∧ b.WellFormed ∧ Schema.Agree a b)
      schemas others) : (m.absorbAll schemas).Agree (n.absorbAll others) := by
  induction hagree generalizing m n with
  | nil => exact h
  | cons hfirst _ ih =>
    obtain ⟨ha, hb, hab⟩ := hfirst
    exact ih (h.absorb ha hb hab)

theorem get?_withProperties (m : Merged) (key : String) :
    Fields.get? m.withProperties key =
      if m.hasProperties = true ∧ key = "properties" then some (.object m.properties)
      else Fields.get? m.keywords key := by
  unfold withProperties
  cases m.hasProperties with
  | false => simp
  | true => simp [Fields.get?_setField, eq_comm]

theorem get?_toNode (m : Merged) (key : String) :
    m.toNode.get? key =
      if m.required ≠ [] ∧ key = "required" then some (.array (m.required.map Node.string))
      else Fields.get? m.withProperties key := by
  rw [toNode_eq, Node.get?]
  cases m.required with
  | nil => simp
  | cons name rest => simp [Fields.get?_setField, eq_comm]

theorem requiredOf_toNode {m : Merged} (h : m.Clean) : requiredOf m.toNode = m.required := by
  rw [requiredOf, Node.getItems, get?_toNode, get?_withProperties, h "required" (by decide)]
  by_cases hempty : m.required = []
  · simp [hempty]
  · simp [hempty, Node.items, Node.items?, List.filterMap_map, Function.comp_def, Node.string?]

theorem get?_properties_toNode {m : Merged} (h : m.Clean) :
    m.toNode.get? "properties" =
      if m.hasProperties = true then some (.object m.properties) else none := by
  rw [get?_toNode, get?_withProperties, h "properties" (by decide)]
  simp

theorem get?_branches_toNode (m : Merged) {keyword : String} (h : keyword ∈ branchKeywords) :
    m.toNode.get? keyword = Fields.get? m.keywords keyword := by
  have hother : ∀ keyword ∈ branchKeywords, keyword ≠ "required" ∧ keyword ≠ "properties" := by
    decide
  obtain ⟨hrequired, hproperties⟩ := hother keyword h
  rw [get?_toNode, get?_withProperties]
  simp [hrequired, hproperties]

theorem Agree.toNode {m n : Merged} (h : m.Agree n) : Schema.Agree m.toNode n.toNode where
  isObject := rfl
  required := by rw [requiredOf_toNode h.clean.1, requiredOf_toNode h.clean.2, h.required]
  hasProperties := by
    rw [get?_properties_toNode h.clean.1, get?_properties_toNode h.clean.2, h.hasProperties]
    cases n.hasProperties <;> rfl
  properties name := by
    rw [definesProperty_eq, definesProperty_eq, get?_properties_toNode h.clean.1,
      get?_properties_toNode h.clean.2, h.hasProperties]
    cases n.hasProperties with
    | false => rfl
    | true => exact h.properties name
  branches name keyword hkeyword := by
    rw [get?_branches_toNode m hkeyword, get?_branches_toNode n hkeyword]
    exact h.branches name keyword hkeyword

end Merged

/-! ## Merged views -/

section Views

variable {marked : Marks} (hmarks : MarksUnread marked)
include hmarks

/-- The merged view of a schema without marked fields agrees with that of the schema. -/
theorem agree_mergeAllOf_erase {path : DocPath} (hrole : Role.of path = .schema) {node : Node}
    (hwf : node.WellFormed) : Agree (mergeAllOf (node.erase marked path)) (mergeAllOf node) := by
  induction node using induction_branches generalizing path with
  | step node ih =>
    have hallOf : branches? (node.erase marked path) "allOf" =
        (branches? node "allOf").map
          (Node.eraseItems marked (path.child (.key "allOf")) 0) := by
      rw [branches?, branches?, get?_erase_schema hmarks hrole node (by decide)]
      cases node.get? "allOf" with
      | none => rfl
      | some value => exact Node.items?_erase marked _ value
    rw [mergeAllOf_eq, mergeAllOf_eq node, hallOf]
    cases hbranches : branches? node "allOf" with
    | none => exact agree_erase hmarks hrole node
    | some branches =>
      have hwfBranches : ∀ branch ∈ branches, branch.WellFormed :=
        fun branch hmem => wellFormed_of_mem_branches hwf hbranches hmem
      have hviews : List.Forall₂ (fun a b => a.WellFormed ∧ b.WellFormed ∧ Agree a b)
          ((Node.eraseItems marked (path.child (.key "allOf")) 0 branches).map mergeAllOf)
          (branches.map mergeAllOf) := by
        rw [List.forall₂_map_left_iff, List.forall₂_map_right_iff]
        refine Node.forall₂_eraseItems marked _ 0 fun position branch hmem => ?_
        have hbranch := hwfBranches branch hmem
        exact ⟨wellFormed_mergeAllOf (hbranch.erase marked _), wellFormed_mergeAllOf hbranch,
          ih "allOf" branches hbranches branch hmem
            (role_of_branch hrole (by decide) position) hbranch⟩
      have hempty : Merged.Agree {} {} :=
        ⟨⟨fun _ _ => rfl, fun _ _ => rfl⟩, rfl, rfl, fun _ => rfl, fun _ _ _ => rfl⟩
      have hmerged := hempty.absorbAll hviews
      exact (hmerged.absorb (hwf.erase marked path) hwf (agree_erase hmarks hrole node)).toNode

end Views

end ApiLint.Schema
