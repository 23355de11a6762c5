import ApiLint.Proofs.Schema.Absorption
import ApiLint.Proofs.Schema.Resolution
set_option autoImplicit false

/-!
# Merged views and the leaves of compositions

A merged view is made by a single run over the leaves of the schema: the objects of the
composition, branches before the schema that they are branches of.  So it does not matter
how branches are nested, a keyword or property has the value that the last leaf gives it,
and the required names are those of all leaves in order of first appearance.
-/

namespace ApiLint.Schema

/-! ## Leaves -/

theorem leavesOfBranches_eq (branches : List Node) :
    leavesOfBranches branches = branches.flatMap leaves := by
  induction branches with
  | nil => rfl
  | cons branch rest ih => rw [leavesOfBranches, ih, List.flatMap_cons]

theorem leavesUnder_eq (fields : Fields) :
    leavesUnder fields = (branchesOf (.object fields) "allOf").flatMap leaves := by
  induction fields with
  | nil => rfl
  | cons field rest ih =>
    obtain ⟨key, value⟩ := field
    rw [leavesUnder, branchesOf, branches?, Node.get?, Fields.get?]
    split
    · cases value <;> simp [leavesOfList, leavesOfBranches_eq, Node.items?]
    · exact ih

/-- The leaves of an object are those of its branches and itself. -/
theorem leaves_object (fields : Fields) :
    leaves (.object fields) =
      (branchesOf (.object fields) "allOf").flatMap leaves ++ [fields] := by
  rw [leaves, leavesUnder_eq]

/-- What holds of an object as soon as it holds of its branches holds of every leaf. -/
theorem forall_mem_leaves {p : Node → Prop} {schema : Node}
    (hbranch : ∀ schema, p schema → ∀ branch ∈ branchesOf schema "allOf", p branch)
    (h : p schema) : ∀ leaf ∈ leaves schema, p (.object leaf) := by
  induction schema using induction_branches with
  | step schema ih =>
    cases schema with
    | object fields =>
      intro leaf hleaf
      rw [leaves_object, List.mem_append, List.mem_flatMap, List.mem_singleton] at hleaf
      rcases hleaf with ⟨branch, hmem, hleaf⟩ | rfl
      · obtain ⟨branches, hbranches, hin⟩ := mem_branchesOf_iff.mp hmem
        exact ih _ _ hbranches branch hin (hbranch _ h branch hmem) leaf hleaf
      · exact h
    | _ => exact fun leaf hleaf => absurd hleaf List.not_mem_nil

/-- The leaves of a well-formed schema are well formed. -/
theorem wellFormed_of_mem_leaves {schema : Node} (h : schema.WellFormed) :
    ∀ leaf ∈ leaves schema, (Node.object leaf).WellFormed := by
  refine forall_mem_leaves (fun schema hschema branch hmem => ?_) h
  obtain ⟨branches, hbranches, hin⟩ := mem_branchesOf_iff.mp hmem
  exact wellFormed_of_mem_branches hschema hbranches hin

/-! ## A single run -/

theorem absorbAll_map_mergeAllOf {branches : List Node}
    (h : ∀ branch ∈ branches, ∀ m : Merged,
      m.absorb (mergeAllOf branch).fields = (leaves branch).foldl Merged.absorb m) (m : Merged) :
    m.absorbAll (branches.map mergeAllOf) =
      (branches.flatMap leaves).foldl Merged.absorb m := by
  induction branches generalizing m with
  | nil => rfl
  | cons branch rest ih =>
    obtain ⟨hbranch, hrest⟩ := List.forall_mem_cons.mp h
    show (m.absorb (mergeAllOf branch).fields).absorbAll (rest.map mergeAllOf) = _
    rw [ih hrest, hbranch, List.flatMap_cons, List.foldl_append]

/-- Absorbing the merged view of a schema is absorbing its leaves one after the other. -/
theorem absorb_mergeAllOf (m : Merged) (schema : Node) :
    m.absorb (mergeAllOf schema).fields = (leaves schema).foldl Merged.absorb m := by
  induction schema using induction_branches generalizing m with
  | step schema ih =>
    cases schema with
    | object fields =>
      rw [mergeAllOf_eq, leaves_object, branchesOf]
      cases hbranches : branches? (.object fields) "allOf" with
      | none => rfl
      | some branches =>
        have hrun := absorbAll_map_mergeAllOf (fun branch hmem m => ih _ _ hbranches branch hmem m)
        have hproper := (Merged.proper_empty.foldl_absorb (branches.flatMap leaves)).absorb fields
        show m.absorb ((Merged.absorbAll {} (branches.map mergeAllOf)).absorb fields).toNode.fields =
          (branches.flatMap leaves ++ [fields]).foldl Merged.absorb m
        rw [hrun, Merged.absorb_toNode m hproper, Merged.append_absorb m
          (Merged.proper_empty.foldl_absorb _), ← Merged.foldl_absorb_eq_append,
          List.foldl_append]
        rfl
    | _ => rfl

/-- The merge of all leaves, in order. -/
def mergedLeaves (schema : Node) : Merged := (leaves schema).foldl Merged.absorb {}

theorem proper_mergedLeaves (schema : Node) : (mergedLeaves schema).Proper :=
  Merged.proper_empty.foldl_absorb _

/-- The merged view of a schema with branches is that of the merge of all leaves. -/
theorem mergeAllOf_eq_toNode {schema : Node} {branches : List Node}
    (h : branches? schema "allOf" = some branches) :
    mergeAllOf schema = (mergedLeaves schema).toNode := by
  cases schema with
  | object fields =>
    have hrun : ∀ m : Merged, m.absorbAll (branches.map mergeAllOf) =
        (branches.flatMap leaves).foldl Merged.absorb m :=
      absorbAll_map_mergeAllOf fun branch _ m => absorb_mergeAllOf m branch
    rw [mergeAllOf_eq, h, mergedLeaves, leaves_object, branchesOf, h]
    simp only [hrun, Option.getD_some, List.foldl_append]
    rfl
  | _ => simp [branches?, Node.get?] at h

/-! ## Nested lists of branches -/

/-- An object with other branches under `allOf`, at the place of the keyword. -/
def withBranches (fields : Fields) (branches : List Node) : Node :=
  .object (Fields.setField fields "allOf" (.array branches))

/-- A list of branches in which a branch that is nothing but a list of branches is replaced by
these: in the list itself, or in the list of one of its branches. -/
inductive Unnested : List Node → List Node → Prop
  | here (before inner after : List Node) :
      Unnested (before ++ .object [("allOf", .array inner)] :: after) (before ++ inner ++ after)
  | inside {fields : Fields} {branches others : List Node} (before after : List Node)
      (hbranches : branches? (.object fields) "allOf" = some branches)
      (h : Unnested branches others) :
      Unnested (before ++ .object fields :: after)
        (before ++ withBranches fields others :: after)

theorem absorb_withBranches (m : Merged) (fields : Fields) (branches : List Node) :
    m.absorb (withBranches fields branches).fields = m.absorb fields := by
  induction fields generalizing m with
  | nil => rfl
  | cons field rest ih =>
    obtain ⟨key, value⟩ := field
    show m.absorb (Fields.setField ((key, value) :: rest) "allOf" (.array branches)) = _
    by_cases hkey : key = "allOf"
    · subst hkey
      rfl
    · rw [Fields.setField, if_neg hkey]
      exact ih (m.absorbField key value)

theorem branches?_withBranches (fields : Fields) (branches : List Node) :
    branches? (withBranches fields branches) "allOf" = some branches := by
  rw [branches?, withBranches, Node.get?, Fields.get?_setField, if_pos rfl]
  rfl

/-- An object with other branches is absorbed by absorbing their leaves and then the object. -/
theorem foldl_leaves_withBranches (m : Merged) (fields : Fields) (branches : List Node) :
    (leaves (withBranches fields branches)).foldl Merged.absorb m =
      ((branches.flatMap leaves).foldl Merged.absorb m).absorb fields := by
  rw [withBranches, leaves_object, ← withBranches, branchesOf, branches?_withBranches,
    List.foldl_append]
  exact absorb_withBranches _ fields branches

/-- Nested lists of branches have the same leaves, but for such as nothing is absorbed of. -/
theorem Unnested.foldl_absorb {branches others : List Node} (h : Unnested branches others)
    (m : Merged) :
    (others.flatMap leaves).foldl Merged.absorb m =
      (branches.flatMap leaves).foldl Merged.absorb m := by
  induction h generalizing m with
  | here before inner after =>
    have hinner : ∀ m : Merged, (leaves (.object [("allOf", .array inner)])).foldl Merged.absorb m =
        (inner.flatMap leaves).foldl Merged.absorb m :=
      fun m => foldl_leaves_withBranches m [] inner
    simp only [List.flatMap_append, List.flatMap_cons, List.foldl_append, hinner]
  | @inside fields branches others before after hbranches _ ih =>
    have hobject : ∀ m : Merged, (leaves (.object fields)).foldl Merged.absorb m =
        ((branches.flatMap leaves).foldl Merged.absorb m).absorb fields := by
      intro m
      rw [leaves_object, branchesOf, hbranches, List.foldl_append]
      rfl
    simp only [List.flatMap_append, List.flatMap_cons, List.foldl_append,
      foldl_leaves_withBranches, hobject, ih]

/-! ## The last leaf -/

/-- What the last of the leaves has that has anything. -/
def lastOf {α : Type} (look : Fields → Option α) (leaves : List Fields) : Option α :=
  leaves.reverse.findSome? look

/-- The definition of a property. -/
def property? (name : String) (schema : Node) : Option Node :=
  (schema.getFields? "properties").bind (Fields.get? · name)

/-- A part of a merge that every schema may set anew is what the last one sets. -/
theorem foldl_absorb_eq_lastOf {α : Type} (part : Merged → Option α) (look : Fields → Option α)
    {schemas : List Fields}
    (h : ∀ schema ∈ schemas, ∀ m : Merged, part (m.absorb schema) = (look schema).or (part m))
    (m : Merged) :
    part (schemas.foldl Merged.absorb m) = (lastOf look schemas).or (part m) := by
  induction schemas generalizing m with
  | nil => rfl
  | cons schema rest ih =>
    obtain ⟨hschema, hrest⟩ := List.forall_mem_cons.mp h
    rw [List.foldl_cons, ih hrest, hschema, lastOf, lastOf, List.reverse_cons,
      List.findSome?_append, Option.or_assoc]
    cases hlook : look schema <;> simp [hlook]

section WellFormed

variable {schema : Node} (hwf : schema.WellFormed)
include hwf

theorem get?_keywords_mergedLeaves {key : String} (hkey : key ∉ Merged.reserved) :
    Fields.get? (mergedLeaves schema).keywords key =
      lastOf (Fields.get? · key) (leaves schema) := by
  have hstep : ∀ leaf ∈ leaves schema, ∀ m : Merged,
      Fields.get? (m.absorb leaf).keywords key =
        (Fields.get? leaf key).or (Fields.get? m.keywords key) := by
    intro leaf hleaf m
    have hkeywords := Merged.get?_keywords_absorb (wellFormed_of_mem_leaves hwf leaf hleaf) m key
    rwa [if_neg hkey] at hkeywords
  exact (foldl_absorb_eq_lastOf (fun m => Fields.get? m.keywords key) _ hstep {}).trans
    Option.or_none

theorem get?_properties_mergedLeaves (name : String) :
    Fields.get? (mergedLeaves schema).properties name =
      lastOf (fun leaf => property? name (.object leaf)) (leaves schema) := by
  have hstep : ∀ leaf ∈ leaves schema, ∀ m : Merged,
      Fields.get? (m.absorb leaf).properties name =
        (property? name (.object leaf)).or (Fields.get? m.properties name) := by
    intro leaf hleaf m
    have hleafWf := wellFormed_of_mem_leaves hwf leaf hleaf
    have hkeys := ((Node.wellFormed_object_iff _).mp (hleafWf.object_getFields? "properties")).1
    show Fields.get? (m.absorb (Node.object leaf).fields).properties name = _
    rw [Merged.properties_absorb hleafWf, get?_setAll _ hkeys, property?]
    cases (Node.object leaf).getFields? "properties" <;> rfl
  exact (foldl_absorb_eq_lastOf (fun m => Fields.get? m.properties name) _ hstep {}).trans
    Option.or_none

theorem required_mergedLeaves :
    (mergedLeaves schema).required =
      ((leaves schema).flatMap fun leaf => requiredOf (.object leaf)).eraseDups := by
  have hrun : ∀ (schemas : List Fields), (∀ leaf ∈ schemas, (Node.object leaf).WellFormed) →
      ∀ m : Merged, (schemas.foldl Merged.absorb m).required =
        (schemas.flatMap fun leaf => requiredOf (.object leaf)).foldl Merged.addRequired
          m.required := by
    intro schemas hschemas
    induction schemas with
    | nil => exact fun m => rfl
    | cons leaf rest ih =>
      obtain ⟨hleaf, hrest⟩ := List.forall_mem_cons.mp hschemas
      intro m
      have hrequired : (m.absorb leaf).required =
          (requiredOf (.object leaf)).foldl Merged.addRequired m.required :=
        Merged.required_absorb hleaf m
      rw [List.foldl_cons, ih hrest, hrequired, List.flatMap_cons, List.foldl_append]
  have hall := hrun _ (wellFormed_of_mem_leaves hwf) {}
  rwa [Merged.foldl_addRequired_eq, List.removeAll_nil, List.nil_append] at hall

end WellFormed

/-! ## Merged views -/

section Views

variable {schema : Node} {branches : List Node} (h : branches? schema "allOf" = some branches)
include h

theorem get?_mergeAllOf_of_dropped {key : String} (hkey : key = "allOf" ∨ key = "$ref") :
    (mergeAllOf schema).get? key = none := by
  have hclean := (proper_mergedLeaves schema).clean key (by rcases hkey with rfl | rfl <;> decide)
  rw [mergeAllOf_eq_toNode h, Merged.get?_toNode, Merged.get?_withProperties, hclean]
  rcases hkey with rfl | rfl <;> simp

theorem get?_mergeAllOf_of_unreserved {key : String} (hkey : key ∉ Merged.reserved) :
    (mergeAllOf schema).get? key = Fields.get? (mergedLeaves schema).keywords key := by
  have hproperties : key ≠ "properties" := by
    rintro rfl
    exact hkey (by decide)
  have hrequired : key ≠ "required" := by
    rintro rfl
    exact hkey (by decide)
  rw [mergeAllOf_eq_toNode h, Merged.get?_toNode, Merged.get?_withProperties]
  simp [hproperties, hrequired]

theorem property?_mergeAllOf (name : String) :
    property? name (mergeAllOf schema) = Fields.get? (mergedLeaves schema).properties name := by
  have hproper := proper_mergedLeaves schema
  rw [property?, Node.getFields?, mergeAllOf_eq_toNode h,
    Merged.get?_properties_toNode hproper.clean]
  cases hhas : (mergedLeaves schema).hasProperties with
  | false =>
    rw [hproper.hasProperties hhas]
    rfl
  | true => rfl

theorem getItems_required_mergeAllOf :
    (mergeAllOf schema).getItems "required" =
      (mergedLeaves schema).required.map Node.string := by
  have hclean := (proper_mergedLeaves schema).clean
  rw [Node.getItems, mergeAllOf_eq_toNode h, Merged.get?_toNode, Merged.get?_withProperties,
    hclean "required" (by decide)]
  cases (mergedLeaves schema).required <;> simp [Node.items, Node.items?]

theorem branches?_mergeAllOf : branches? (mergeAllOf schema) "allOf" = none := by
  rw [branches?, get?_mergeAllOf_of_dropped h (.inl rfl)]
  rfl

theorem mergeAllOf_mergeAllOf : mergeAllOf (mergeAllOf schema) = mergeAllOf schema := by
  rw [mergeAllOf_eq (mergeAllOf schema), branches?_mergeAllOf h]

/-- Opening a nested list of branches does not change the merged view. -/
theorem mergeAllOf_withBranches {others : List Node} (hothers : Unnested branches others) :
    mergeAllOf (withBranches schema.fields others) = mergeAllOf schema := by
  have hmerged : mergedLeaves (withBranches schema.fields others) = mergedLeaves schema := by
    cases schema with
    | object fields =>
      rw [mergedLeaves, foldl_leaves_withBranches, hothers.foldl_absorb, mergedLeaves,
        leaves_object, branchesOf, h, List.foldl_append]
      rfl
    | _ => simp [branches?, Node.get?] at h
  rw [mergeAllOf_eq_toNode (branches?_withBranches _ others), hmerged, mergeAllOf_eq_toNode h]

end Views

/-- The merged view of a schema with branches is made by absorbing its leaves in one run, with the
order of keys that this gives.  So it is the same when a nested list of branches is opened, no
`allOf` and no reference is left in it, each property and each other keyword is that of the last
leaf that has it, the required names are those of all leaves in order of first appearance, and
merging it again changes nothing. -/
theorem mergeAllOf_run_over_leaves {schema : Node} {branches : List Node}
    (hwf : schema.WellFormed) (h : branches? schema "allOf" = some branches) :
    mergeAllOf schema = ((leaves schema).foldl Merged.absorb {}).toNode ∧
      (∀ others, Unnested branches others →
        mergeAllOf (withBranches schema.fields others) = mergeAllOf schema) ∧
      (mergeAllOf schema).get? "allOf" = none ∧ (mergeAllOf schema).get? "$ref" = none ∧
      (∀ name, property? name (mergeAllOf schema) =
        lastOf (fun leaf => property? name (.object leaf)) (leaves schema)) ∧
      (∀ key ∉ Merged.reserved, (mergeAllOf schema).get? key =
        lastOf (fun leaf => (Node.object leaf).get? key) (leaves schema)) ∧
      (mergeAllOf schema).getItems "required" =
        ((leaves schema).flatMap fun leaf => requiredOf (.object leaf)).eraseDups.map Node.string ∧
      mergeAllOf (mergeAllOf schema) = mergeAllOf schema := by
  refine ⟨mergeAllOf_eq_toNode h, fun _ => mergeAllOf_withBranches h,
    get?_mergeAllOf_of_dropped h (.inl rfl), get?_mergeAllOf_of_dropped h (.inr rfl), ?_, ?_, ?_,
    mergeAllOf_mergeAllOf h⟩
  · intro name
    rw [property?_mergeAllOf h, get?_properties_mergedLeaves hwf]
  · intro key hkey
    rw [get?_mergeAllOf_of_unreserved h hkey]
    exact get?_keywords_mergedLeaves hwf hkey
  · rw [getItems_required_mergeAllOf h, required_mergedLeaves hwf]

/-- The branches of a drink: a nested list with a reference in it, a node that is no object, and a
schema that defines a property again. -/
def drinkBranches (named sized : Node) : List Node :=
  [.object [("allOf", .array [named, .object [("$ref", .string "#/components/schemas/Base")]])],
    .bool true, sized]

/-- A named thing with a size of any kind. -/
def namedThing : Node :=
  .object [("title", .string "Named"), ("required", .array [.string "name"]),
    ("properties", .object [("size", .object []), ("name", .object [("type", .string "string")])])]

/-- A thing with a number of sizes. -/
def sizedThing : Node :=
  .object [("title", .string "Sized"),
    ("properties", .object [("size", .object [("type", .string "integer")])])]

/-- A drink: a named thing and a sized thing that requires more than either. -/
def nestedDrink : Node :=
  .object [("required", .array [.string "size", .string "name"]),
    ("allOf", .array (drinkBranches namedThing sizedThing)), ("description", .string "A drink")]

/-- The merged view of the drink: the title is that of the sized thing at the place of the first,
the size has its type, and both names are required once, that of the branch first.  With the
nested list opened, and when it is merged again, it is the same. -/
theorem mergeAllOf_nestedDrink :
    mergeAllOf nestedDrink =
        .object [("title", .string "Sized"), ("description", .string "A drink"),
          ("properties", .object [("size", .object [("type", .string "integer")]),
            ("name", .object [("type", .string "string")])]),
          ("required", .array [.string "name", .string "size"])] ∧
      property? "size" (mergeAllOf nestedDrink) = some (.object [("type", .string "integer")]) ∧
      mergeAllOf (withBranches nestedDrink.fields
          [namedThing, .object [("$ref", .string "#/components/schemas/Base")], .bool true,
            sizedThing]) =
        mergeAllOf nestedDrink ∧
      mergeAllOf (mergeAllOf nestedDrink) = mergeAllOf nestedDrink := by
  have hwf : nestedDrink.WellFormed := by
    simp [nestedDrink, drinkBranches, namedThing, sizedThing, Node.WellFormed,
      Node.WellFormedFields, Node.WellFormedItems]
  have hbranches : branches? nestedDrink "allOf" = some (drinkBranches namedThing sizedThing) := rfl
  obtain ⟨hrun, hunnested, _, _, hproperty, _, _, hagain⟩ := mergeAllOf_run_over_leaves hwf hbranches
  refine ⟨hrun.trans rfl, (hproperty "size").trans rfl, hunnested _ ?_, hagain⟩
  exact .here [] [namedThing, .object [("$ref", .string "#/components/schemas/Base")]]
    [.bool true, sizedThing]

end ApiLint.Schema
