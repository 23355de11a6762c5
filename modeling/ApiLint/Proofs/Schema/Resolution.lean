import ApiLint.Proofs.Schema.Composition
set_option autoImplicit false

/-!
# Resolutions of compositions

A composition leaves open which branch of `oneOf` is meant and which branches of `anyOf`.
A resolution decides this at every level and activates the schemas that it comes by.  A
constraint is satisfied exactly when it cannot be avoided: every resolution, whatever it
decides, activates a schema that the constraint holds for.
-/

namespace ApiLint.Schema

/-! ## What a resolution is -/

/-- The branches under a combining keyword, and none where it is missing or has no array. -/
def branchesOf (schema : Node) (keyword : String) : List Node :=
  (branches? schema keyword).getD []

/-- One of the branches is chosen, if there are any. -/
def OneChosen (branches chosen : List Node) : Prop :=
  if branches = [] then chosen = [] else ∃ branch ∈ branches, chosen = [branch]

/-- Some of the branches are chosen, at least one if there are any. -/
def SomeChosen (branches chosen : List Node) : Prop :=
  if branches = [] then chosen = [] else chosen ≠ [] ∧ chosen.Sublist branches

/-- The branches that are taken together at a schema: those chosen from `oneOf` and `anyOf`, and
all of `allOf`. -/
def Taken (schema : Node) (taken : List Node) : Prop :=
  ∃ one several : List Node, OneChosen (branchesOf schema "oneOf") one ∧
    SomeChosen (branchesOf schema "anyOf") several ∧
      taken = one ++ several ++ branchesOf schema "allOf"

/-- A resolution of a node, with the schemas that it activates: an object activates itself, and
what a resolution of each branch that is taken activates. -/
inductive Resolution : Node → List Node → Prop
  | value {node : Node} (h : node.isObject = false) : Resolution node []
  | object {schema : Node} {taken : List Node} {activated : List (List Node)}
      (h : schema.isObject = true) (htaken : Taken schema taken)
      (hactivated : List.Forall₂ Resolution taken activated) :
      Resolution schema (schema :: activated.flatten)

/-! ## One level -/

theorem OneChosen.subset {branches chosen : List Node} (h : OneChosen branches chosen) :
    chosen ⊆ branches := by
  unfold OneChosen at h
  split at h
  · subst h
    exact List.nil_subset _
  · obtain ⟨branch, hbranch, rfl⟩ := h
    simpa using hbranch

theorem SomeChosen.subset {branches chosen : List Node} (h : SomeChosen branches chosen) :
    chosen ⊆ branches := by
  unfold SomeChosen at h
  split at h
  · subst h
    exact List.nil_subset _
  · exact h.2.subset

theorem mem_branchesOf_iff {schema branch : Node} {keyword : String} :
    branch ∈ branchesOf schema keyword ↔
      ∃ branches, branches? schema keyword = some branches ∧ branch ∈ branches := by
  unfold branchesOf
  cases branches? schema keyword <;> simp

/-- What is taken is a branch of one of the combining keywords. -/
theorem Taken.exists_branches {schema branch : Node} {taken : List Node} (h : Taken schema taken)
    (hbranch : branch ∈ taken) :
    ∃ keyword branches, branches? schema keyword = some branches ∧ branch ∈ branches := by
  obtain ⟨one, several, hone, hseveral, rfl⟩ := h
  rcases List.mem_append.mp hbranch with hchosen | hevery
  · rcases List.mem_append.mp hchosen with hchosen | hchosen
    · exact ⟨"oneOf", mem_branchesOf_iff.mp (hone.subset hchosen)⟩
    · exact ⟨"anyOf", mem_branchesOf_iff.mp (hseveral.subset hchosen)⟩
  · exact ⟨"allOf", mem_branchesOf_iff.mp hevery⟩

/-- A property cannot be avoided by a choice among branches exactly when there are branches and
all of them have it, if every single branch can be chosen and nothing only where there is none. -/
theorem all_iff_chosen {Chosen : List Node → List Node → Prop} (p : Node → Bool)
    {branches : List Node} (hsubset : ∀ chosen, Chosen branches chosen → chosen ⊆ branches)
    (hnil : Chosen branches [] ↔ branches = [])
    (hsingle : ∀ branch ∈ branches, Chosen branches [branch]) :
    (!branches.isEmpty && branches.all p) = true ↔
      ∀ chosen, Chosen branches chosen → ∃ branch ∈ chosen, p branch = true := by
  rw [Bool.and_eq_true, Bool.not_eq_true', List.isEmpty_eq_false_iff, List.all_eq_true]
  constructor
  · rintro ⟨hne, hall⟩ chosen hchosen
    have hchosenNe : chosen ≠ [] := by
      rintro rfl
      exact hne (hnil.mp hchosen)
    obtain ⟨branch, hbranch⟩ := List.exists_mem_of_ne_nil chosen hchosenNe
    exact ⟨branch, hbranch, hall branch (hsubset chosen hchosen hbranch)⟩
  · intro h
    refine ⟨fun hempty => ?_, fun branch hbranch => ?_⟩
    · obtain ⟨branch, hbranch, _⟩ := h [] (hnil.mpr hempty)
      exact List.not_mem_nil hbranch
    · obtain ⟨other, hother, hp⟩ := h [branch] (hsingle branch hbranch)
      exact List.mem_singleton.mp hother ▸ hp

theorem all_iff_oneChosen (p : Node → Bool) (branches : List Node) :
    (!branches.isEmpty && branches.all p) = true ↔
      ∀ chosen, OneChosen branches chosen → ∃ branch ∈ chosen, p branch = true := by
  refine all_iff_chosen p (fun _ => OneChosen.subset) ?_ fun branch hbranch => ?_
  · by_cases hempty : branches = [] <;> simp [OneChosen, hempty]
  · rw [OneChosen, if_neg (List.ne_nil_of_mem hbranch)]
    exact ⟨branch, hbranch, rfl⟩

theorem all_iff_someChosen (p : Node → Bool) (branches : List Node) :
    (!branches.isEmpty && branches.all p) = true ↔
      ∀ chosen, SomeChosen branches chosen → ∃ branch ∈ chosen, p branch = true := by
  refine all_iff_chosen p (fun _ => SomeChosen.subset) ?_ fun branch hbranch => ?_
  · by_cases hempty : branches = [] <;> simp [SomeChosen, hempty]
  · rw [SomeChosen, if_neg (List.ne_nil_of_mem hbranch)]
    exact ⟨List.cons_ne_nil _ _, List.singleton_sublist.mpr hbranch⟩

/-- A combining keyword contributes a constraint by its branches. -/
theorem contributes_eq_branchesOf (constraint : Node → Bool) (keyword : String) (schema : Node) :
    contributes constraint keyword schema =
      if keyword = "allOf" then (branchesOf schema keyword).any (satisfies constraint)
      else !(branchesOf schema keyword).isEmpty &&
        (branchesOf schema keyword).all (satisfies constraint) := by
  unfold contributes branchesOf
  cases branches? schema keyword <;> simp

/-- An object satisfies a constraint when it does itself, or when some branch does whichever are
taken. -/
theorem satisfies_iff_taken (constraint : Node → Bool) {schema : Node}
    (h : schema.isObject = true) :
    satisfies constraint schema = true ↔
      ∀ taken, Taken schema taken →
        constraint schema = true ∨ ∃ branch ∈ taken, satisfies constraint branch = true := by
  have hone := all_iff_oneChosen (satisfies constraint) (branchesOf schema "oneOf")
  have hsome := all_iff_someChosen (satisfies constraint) (branchesOf schema "anyOf")
  rw [satisfies_eq, h, Bool.true_and, contributes_eq_branchesOf, contributes_eq_branchesOf,
    contributes_eq_branchesOf]
  simp only [String.reduceEq, if_false, if_true, Bool.or_eq_true, hone, hsome, List.any_eq_true]
  constructor
  · rintro hsatisfied taken ⟨one, several, ho, hs, rfl⟩
    rcases hsatisfied with ((hself | hone) | hsome) | ⟨branch, hbranch, hsatisfies⟩
    · exact .inl hself
    · obtain ⟨branch, hbranch, hsatisfies⟩ := hone one ho
      exact .inr ⟨branch, by simp [hbranch], hsatisfies⟩
    · obtain ⟨branch, hbranch, hsatisfies⟩ := hsome several hs
      exact .inr ⟨branch, by simp [hbranch], hsatisfies⟩
    · exact .inr ⟨branch, by simp [hbranch], hsatisfies⟩
  · intro htaken
    -- otherwise one choice from `oneOf` and one from `anyOf` avoid the constraint together
    by_contra hnot
    push Not at hnot
    obtain ⟨⟨⟨hself, one, ho, hone⟩, several, hs, hsome⟩, hevery⟩ := hnot
    rcases htaken _ ⟨one, several, ho, hs, rfl⟩ with hself' | ⟨branch, hbranch, hsatisfies⟩
    · exact hself hself'
    · simp only [List.mem_append] at hbranch
      rcases hbranch with (hbranch | hbranch) | hbranch
      · exact hone branch hbranch hsatisfies
      · exact hsome branch hbranch hsatisfies
      · exact hevery branch hbranch hsatisfies

/-! ## All levels -/

/-- Every list of branches with a resolution each is resolved together. -/
theorem exists_forall₂_resolution {taken : List Node} {p : List Node → Prop}
    (h : ∀ branch ∈ taken, ∃ activated, Resolution branch activated ∧ p activated) :
    ∃ activated, List.Forall₂ Resolution taken activated ∧ ∀ part ∈ activated, p part := by
  choose! activated hactivated using h
  refine ⟨taken.map activated, ?_, List.forall_mem_map.mpr fun branch hbranch =>
    (hactivated branch hbranch).2⟩
  rw [List.forall₂_map_right_iff, List.forall₂_same]
  exact fun branch hbranch => (hactivated branch hbranch).1

/-- A resolution that avoids a constraint exists as soon as the constraint is not satisfied. -/
theorem exists_resolution_avoiding {constraint : Node → Bool} {schema : Node}
    (h : satisfies constraint schema = false) :
    ∃ activated, Resolution schema activated ∧ ∀ node ∈ activated, constraint node = false := by
  induction schema using induction_branches with
  | step schema ih =>
    cases hobject : schema.isObject with
    | false => exact ⟨[], .value hobject, fun _ hnode => absurd hnode List.not_mem_nil⟩
    | true =>
      have hnot := mt (satisfies_iff_taken constraint hobject).mpr (Bool.eq_false_iff.mp h)
      push Not at hnot
      obtain ⟨taken, htaken, hself, hbranches⟩ := hnot
      have hresolved : ∀ branch ∈ taken, ∃ activated, Resolution branch activated ∧
          ∀ node ∈ activated, constraint node = false := by
        intro branch hbranch
        obtain ⟨keyword, branches, hkeyword, hmem⟩ := htaken.exists_branches hbranch
        have hunsatisfied := Bool.eq_false_iff.mpr (hbranches branch hbranch)
        exact ih keyword branches hkeyword branch hmem hunsatisfied
      obtain ⟨activated, hactivated, havoids⟩ := exists_forall₂_resolution hresolved
      refine ⟨_, .object hobject htaken hactivated, List.forall_mem_cons.mpr ?_⟩
      refine ⟨Bool.eq_false_iff.mpr hself, fun node hnode => ?_⟩
      obtain ⟨part, hpart, hmem⟩ := List.mem_flatten.mp hnode
      exact havoids part hpart node hmem

/-- A constraint that is satisfied holds for a schema that a resolution activates, whichever
resolution it is. -/
theorem Resolution.exists_of_satisfies {constraint : Node → Bool} {schema : Node}
    {activated : List Node} (hresolution : Resolution schema activated)
    (h : satisfies constraint schema = true) :
    ∃ node ∈ activated, node.isObject = true ∧ constraint node = true := by
  induction schema using induction_branches generalizing activated with
  | step schema ih =>
    cases hresolution with
    | value hobject => simp [satisfies_eq, hobject] at h
    | @object _ taken parts hobject htaken hactivated =>
      rcases (satisfies_iff_taken constraint hobject).mp h taken htaken with
        hself | ⟨branch, hbranch, hsatisfies⟩
      · exact ⟨schema, List.mem_cons_self, hobject, hself⟩
      · obtain ⟨keyword, branches, hkeyword, hmem⟩ := htaken.exists_branches hbranch
        obtain ⟨part, hpart, hresolution⟩ := exists_mem_of_forall₂ hactivated hbranch
        obtain ⟨node, hnode, hholds⟩ :=
          ih keyword branches hkeyword branch hmem hresolution hsatisfies
        exact ⟨node, List.mem_cons_of_mem _ (List.mem_flatten.mpr ⟨part, hpart, hnode⟩), hholds⟩

/-- A constraint is satisfied exactly when every resolution of the schema activates an object that
the constraint holds for. -/
theorem satisfies_iff_every_resolution (constraint : Node → Bool) (schema : Node) :
    satisfies constraint schema = true ↔
      ∀ activated, Resolution schema activated →
        ∃ node ∈ activated, node.isObject = true ∧ constraint node = true := by
  constructor
  · intro h activated hresolution
    exact hresolution.exists_of_satisfies h
  · intro h
    by_contra hnot
    obtain ⟨activated, hresolution, havoids⟩ :=
      exists_resolution_avoiding (Bool.eq_false_iff.mpr hnot)
    obtain ⟨node, hnode, _, hholds⟩ := h activated hresolution
    exact absurd hholds (Bool.eq_false_iff.mp (havoids node hnode))

end ApiLint.Schema
