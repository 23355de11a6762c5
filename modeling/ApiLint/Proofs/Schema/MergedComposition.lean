import ApiLint.Proofs.Schema.Leaves
set_option autoImplicit false

/-!
# What merged views define

A composition defines a property when one of its leaves does, in its own properties or by
all branches of a choice.  The merged view unites the properties of the leaves, but it has
one `oneOf` and one `anyOf`, those of the last leaf with one.  So it defines nothing that no
leaf defines; and a definition that is made by the branches of a choice is lost when a later
leaf has the same keyword, and only then.
-/

namespace ApiLint.Schema

/-- The keywords that leave a choice between branches. -/
def choiceKeywords : List String := ["oneOf", "anyOf"]

theorem choiceKeyword_notMem_reserved {keyword : String} (h : keyword ∈ choiceKeywords) :
    keyword ∉ Merged.reserved := by
  have hall : ∀ keyword ∈ choiceKeywords, keyword ∉ Merged.reserved := by decide
  exact hall keyword h

/-! ## Leaves that satisfy a constraint -/

/-- A schema satisfies a constraint, its branches under `allOf` left aside. -/
def SatisfiesAlone (constraint : Node → Bool) (schema : Node) : Prop :=
  constraint schema = true ∨
    ∃ keyword ∈ choiceKeywords, contributes constraint keyword schema = true

/-- A constraint is satisfied by an object alone, or by its branches under `allOf`. -/
theorem satisfies_iff_alone_or_branches (constraint : Node → Bool) (schema : Node) :
    satisfies constraint schema = true ↔
      schema.isObject = true ∧
        (SatisfiesAlone constraint schema ∨ contributes constraint "allOf" schema = true) := by
  rw [satisfies_eq]
  simp [SatisfiesAlone, choiceKeywords, or_assoc]

/-- A constraint is satisfied exactly when a leaf of the composition satisfies it alone. -/
theorem satisfies_iff_exists_leaf (constraint : Node → Bool) (schema : Node) :
    satisfies constraint schema = true ↔
      ∃ leaf ∈ leaves schema, SatisfiesAlone constraint (.object leaf) := by
  induction schema using induction_branches with
  | step schema ih =>
    cases schema with
    | object fields =>
      have hbranches : contributes constraint "allOf" (.object fields) = true ↔
          ∃ leaf ∈ (branchesOf (.object fields) "allOf").flatMap leaves,
            SatisfiesAlone constraint (.object leaf) := by
        rw [contributes_eq_branchesOf, if_pos rfl, List.any_eq_true]
        constructor
        · rintro ⟨branch, hmem, hsatisfies⟩
          obtain ⟨branches, hbranches, hin⟩ := mem_branchesOf_iff.mp hmem
          obtain ⟨leaf, hleaf, halone⟩ := (ih _ _ hbranches branch hin).mp hsatisfies
          exact ⟨leaf, List.mem_flatMap.mpr ⟨branch, hmem, hleaf⟩, halone⟩
        · rintro ⟨leaf, hleaf, halone⟩
          obtain ⟨branch, hmem, hleaf⟩ := List.mem_flatMap.mp hleaf
          obtain ⟨branches, hbranches, hin⟩ := mem_branchesOf_iff.mp hmem
          exact ⟨branch, hmem, (ih _ _ hbranches branch hin).mpr ⟨leaf, hleaf, halone⟩⟩
      have hobject : (Node.object fields).isObject = true := rfl
      rw [satisfies_iff_alone_or_branches, and_iff_right hobject, hbranches, leaves_object]
      simp only [List.mem_append, List.mem_singleton, or_and_right, exists_or, exists_eq_left]
      rw [or_comm]
    | _ => simp [satisfies, leaves]

/-- Where there are no branches under `allOf`, a constraint can only be satisfied alone. -/
theorem satisfiesAlone_of_no_branches {constraint : Node → Bool} {schema : Node}
    (hnone : branches? schema "allOf" = none) (h : satisfies constraint schema = true) :
    SatisfiesAlone constraint schema := by
  have hbranches : ¬ contributes constraint "allOf" schema = true := by simp [contributes, hnone]
  exact (((satisfies_iff_alone_or_branches _ _).mp h).2).resolve_right hbranches

/-- A schema that defines a property alone composes it. -/
theorem composesProperty_of_satisfiesAlone {name : String} {schema : Node}
    (h : SatisfiesAlone (definesProperty name) schema) : composesProperty schema name = true := by
  cases schema with
  | object fields =>
    refine (satisfies_iff_exists_leaf _ _).mpr ⟨fields, ?_, h⟩
    rw [leaves_object]
    exact List.mem_append_right _ List.mem_cons_self
  | _ => simp [SatisfiesAlone, contributes, definesProperty, branches?, Node.getFields?,
      Node.get?] at h

/-! ## The merged view and the last leaf -/

theorem get?_of_not_object {node : Node} (h : node.isObject = false) (key : String) :
    node.get? key = none := by
  cases node with
  | object fields => cases h
  | _ => rfl

/-- Without branches the only leaf of an object is itself. -/
theorem lastOf_leaves_of_no_branches {α : Type} {schema : Node} (look : Node → Option α)
    (hlook : ∀ node : Node, node.isObject = false → look node = none)
    (h : branches? schema "allOf" = none) :
    lastOf (fun leaf => look (.object leaf)) (leaves schema) = look schema := by
  cases schema with
  | object fields =>
    rw [leaves_object, branchesOf, h]
    simp [lastOf]
  | _ => exact (hlook _ rfl).symm

section WellFormed

variable {schema : Node} (hwf : schema.WellFormed)
include hwf

/-- With or without branches, the merged view has a keyword of the last leaf with it. -/
theorem get?_mergeAllOf_eq_lastOf {key : String} (hkey : key ∉ Merged.reserved) :
    (mergeAllOf schema).get? key =
      lastOf (fun leaf => (Node.object leaf).get? key) (leaves schema) := by
  cases h : branches? schema "allOf" with
  | some branches =>
    rw [get?_mergeAllOf_of_unreserved h hkey]
    exact get?_keywords_mergedLeaves hwf hkey
  | none =>
    rw [lastOf_leaves_of_no_branches (Node.get? · key) ?_ h, mergeAllOf_eq, h]
    exact fun node hnode => get?_of_not_object hnode key

theorem property?_mergeAllOf_eq_lastOf (name : String) :
    property? name (mergeAllOf schema) =
      lastOf (fun leaf => property? name (.object leaf)) (leaves schema) := by
  cases h : branches? schema "allOf" with
  | some branches => rw [property?_mergeAllOf h, get?_properties_mergedLeaves hwf]
  | none =>
    rw [lastOf_leaves_of_no_branches (property? name) ?_ h, mergeAllOf_eq, h]
    intro node hnode
    rw [property?, Node.getFields?, get?_of_not_object hnode]
    rfl

end WellFormed

theorem definesProperty_eq_isSome_property? (name : String) (schema : Node) :
    definesProperty name schema = (property? name schema).isSome := by
  rw [Merged.definesProperty_eq_isSome, property?]
  cases schema.getFields? "properties" <;> rfl

/-! ## Definitions that are lost -/

/-- A keyword contributes nothing where it is missing. -/
theorem isSome_get?_of_contributes {constraint : Node → Bool} {keyword : String} {schema : Node}
    (h : contributes constraint keyword schema = true) : (schema.get? keyword).isSome = true := by
  rw [contributes_eq] at h
  cases hvalue : schema.get? keyword with
  | none => simp [hvalue] at h
  | some value => rfl

/-- All branches under a keyword of a leaf define a property, and a later leaf has the keyword
too. -/
def Displaced (name keyword : String) (schema : Node) : Prop :=
  ∃ before leaf after, leaves schema = before ++ leaf :: after ∧
    contributes (definesProperty name) keyword (.object leaf) = true ∧
      ∃ later ∈ after, (Node.object later).hasKey keyword = true

theorem isSome_lastOf {α : Type} (look : Fields → Option α) (leaves : List Fields) :
    (lastOf look leaves).isSome = true ↔ ∃ leaf ∈ leaves, (look leaf).isSome = true := by
  simp [lastOf, List.findSome?_isSome_iff]

theorem lastOf_append_cons {α : Type} {look : Fields → Option α} {before after : List Fields}
    {leaf : Fields} (hleaf : (look leaf).isSome = true)
    (hafter : ∀ later ∈ after, look later = none) :
    lastOf look (before ++ leaf :: after) = look leaf := by
  have hnone : after.reverse.findSome? look = none :=
    List.findSome?_eq_none_iff.mpr fun later hlater => hafter later (List.mem_reverse.mp hlater)
  obtain ⟨value, hvalue⟩ := Option.isSome_iff_exists.mp hleaf
  simp [lastOf, List.findSome?_append, hnone, hvalue]

section WellFormed

variable {schema : Node} (hwf : schema.WellFormed)
include hwf

/-- The merged view has a property of its own exactly when a leaf has. -/
theorem definesProperty_mergeAllOf_iff (name : String) :
    definesProperty name (mergeAllOf schema) = true ↔
      ∃ leaf ∈ leaves schema, definesProperty name (.object leaf) = true := by
  simp only [definesProperty_eq_isSome_property?, property?_mergeAllOf_eq_lastOf hwf,
    isSome_lastOf]

/-- What a choice of the merged view contributes is contributed by a choice of a leaf. -/
theorem exists_leaf_of_contributes_mergeAllOf {constraint : Node → Bool} {keyword : String}
    (hkeyword : keyword ∈ choiceKeywords)
    (h : contributes constraint keyword (mergeAllOf schema) = true) :
    ∃ leaf ∈ leaves schema, contributes constraint keyword (.object leaf) = true := by
  have hget := get?_mergeAllOf_eq_lastOf hwf (choiceKeyword_notMem_reserved hkeyword)
  obtain ⟨value, hvalue⟩ := Option.isSome_iff_exists.mp (isSome_get?_of_contributes h)
  obtain ⟨leaf, hleaf, hlook⟩ := List.exists_of_findSome?_eq_some (hget.symm.trans hvalue)
  rw [contributes_eq, hvalue] at h
  exact ⟨leaf, List.mem_reverse.mp hleaf, by rwa [contributes_eq, hlook]⟩

/-- What the merged view defines alone is defined by a leaf alone. -/
theorem exists_leaf_of_satisfiesAlone_mergeAllOf {name : String}
    (h : SatisfiesAlone (definesProperty name) (mergeAllOf schema)) :
    ∃ leaf ∈ leaves schema, SatisfiesAlone (definesProperty name) (.object leaf) := by
  rcases h with hself | ⟨keyword, hkeyword, hcontributes⟩
  · obtain ⟨leaf, hleaf, hdefines⟩ := (definesProperty_mergeAllOf_iff hwf name).mp hself
    exact ⟨leaf, hleaf, .inl hdefines⟩
  · obtain ⟨leaf, hleaf, hchoice⟩ :=
      exists_leaf_of_contributes_mergeAllOf hwf hkeyword hcontributes
    exact ⟨leaf, hleaf, .inr ⟨keyword, hkeyword, hchoice⟩⟩

/-- The composition defines what the merged view defines. -/
theorem composesProperty_of_composesProperty_mergeAllOf {name : String}
    (h : composesProperty (mergeAllOf schema) name = true) :
    composesProperty schema name = true := by
  cases hbranches : branches? schema "allOf" with
  | none => rwa [mergeAllOf_eq, hbranches] at h
  | some branches =>
    have halone := satisfiesAlone_of_no_branches (branches?_mergeAllOf hbranches) h
    exact (satisfies_iff_exists_leaf _ _).mpr (exists_leaf_of_satisfiesAlone_mergeAllOf hwf halone)

/-- What a choice of a leaf contributes is contributed by the merged view, or a later leaf has a
choice under the same keyword. -/
theorem contributes_mergeAllOf_or_displaced {name keyword : String} {leaf : Fields}
    (hkeyword : keyword ∈ choiceKeywords) (hleaf : leaf ∈ leaves schema)
    (h : contributes (definesProperty name) keyword (.object leaf) = true) :
    contributes (definesProperty name) keyword (mergeAllOf schema) = true ∨
      Displaced name keyword schema := by
  obtain ⟨before, after, hsplit⟩ := List.append_of_mem hleaf
  by_cases hlater : ∃ later ∈ after, (Node.object later).hasKey keyword = true
  · exact .inr ⟨before, leaf, after, hsplit, h, hlater⟩
  · -- no later leaf has the keyword, so the merged view has the choice of this one
    push Not at hlater
    have hafter : ∀ later ∈ after, (Node.object later).get? keyword = none := fun later hmem =>
      Option.not_isSome_iff_eq_none.mp (hlater later hmem)
    have hget := get?_mergeAllOf_eq_lastOf hwf (choiceKeyword_notMem_reserved hkeyword)
    rw [hsplit, lastOf_append_cons (isSome_get?_of_contributes h) hafter] at hget
    rw [contributes_eq] at h
    exact .inl (by rw [contributes_eq, hget, h])

/-- Where the merged view does not define a property, no leaf has it among its own properties; and
the composition defines it exactly when a choice of a leaf does that a later leaf displaces. -/
theorem composesProperty_iff_displaced {name : String}
    (h : composesProperty (mergeAllOf schema) name = false) :
    (∀ leaf ∈ leaves schema, definesProperty name (.object leaf) = false) ∧
      (composesProperty schema name = true ↔
        ∃ keyword ∈ choiceKeywords, Displaced name keyword schema) := by
  have halone : ¬ SatisfiesAlone (definesProperty name) (mergeAllOf schema) := fun halone =>
    Bool.eq_false_iff.mp h (composesProperty_of_satisfiesAlone halone)
  have hself : ∀ leaf ∈ leaves schema, ¬ definesProperty name (.object leaf) = true :=
    fun leaf hleaf hdefines =>
      halone (.inl ((definesProperty_mergeAllOf_iff hwf name).mpr ⟨leaf, hleaf, hdefines⟩))
  refine ⟨fun leaf hleaf => Bool.eq_false_iff.mpr (hself leaf hleaf), ?_⟩
  rw [composesProperty, satisfies_iff_exists_leaf]
  constructor
  · rintro ⟨leaf, hleaf, hdefines | ⟨keyword, hkeyword, hcontributes⟩⟩
    · exact absurd hdefines (hself leaf hleaf)
    · rcases contributes_mergeAllOf_or_displaced hwf hkeyword hleaf hcontributes with
        hmerged | hdisplaced
      · exact absurd (.inr ⟨keyword, hkeyword, hmerged⟩) halone
      · exact ⟨keyword, hkeyword, hdisplaced⟩
  · rintro ⟨keyword, hkeyword, before, leaf, after, hsplit, hcontributes, _⟩
    refine ⟨leaf, ?_, .inr ⟨keyword, hkeyword, hcontributes⟩⟩
    rw [hsplit]
    exact List.mem_append_right _ List.mem_cons_self

end WellFormed

end ApiLint.Schema
