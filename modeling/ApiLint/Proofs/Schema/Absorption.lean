import ApiLint.Proofs.Schema.ErasedMerging
set_option autoImplicit false

/-!
# One merge behind another

Two merges can be put together, the second behind the first: its keywords and properties
win, a key that both have keeps the place it has in the first, and its required names
come last.  Absorbing a schema behind two merges is absorbing it behind the second, and
absorbing a merged view is putting its merge behind what is there.  So a merge of merged
views is a single run over all that was merged.
-/

namespace ApiLint

namespace Fields

/-! ## Values that are set twice -/

theorem setField_setField (fields : Fields) (key : String) (value other : Node) :
    setField (setField fields key other) key value = setField fields key value := by
  induction fields with
  | nil => simp [setField]
  | cons field rest ih =>
    obtain ⟨first, old⟩ := field
    by_cases hkey : first = key <;> simp [setField, hkey, ih]

/-- A value that replaces another one keeps its place, whatever was added in between. -/
theorem setField_comm_of_mem {fields : Fields} {key other : String} (h : key ∈ keys fields)
    (hne : key ≠ other) (value added : Node) :
    setField (setField fields other added) key value =
      setField (setField fields key value) other added := by
  induction fields with
  | nil => exact absurd h List.not_mem_nil
  | cons field rest ih =>
    obtain ⟨first, old⟩ := field
    by_cases hkey : first = key
    · subst hkey
      simp [setField, hne]
    · have hrest : key ∈ keys rest := (List.mem_cons.mp h).resolve_left (Ne.symm hkey)
      by_cases hother : first = other
      · subst hother
        simp [setField, hkey]
      · simp [setField, hkey, hother, ih hrest]

end Fields

namespace Schema

theorem keys_subset_setField (fields : Fields) (key : String) (value : Node) :
    Fields.keys fields ⊆ Fields.keys (Fields.setField fields key value) := by
  rw [Fields.keys_setField]
  split
  · exact List.Subset.refl _
  · exact List.subset_append_left _ _

theorem setField_setAll {fields others : Fields} {key : String}
    (hfields : key ∈ Fields.keys fields) (hothers : key ∉ Fields.keys others) (value : Node) :
    Fields.setField (setAll fields others) key value =
      setAll (Fields.setField fields key value) others := by
  induction others generalizing fields with
  | nil => rfl
  | cons field rest ih =>
    obtain ⟨first, added⟩ := field
    obtain ⟨hfirst, hrest⟩ := not_or.mp (mt List.mem_cons.mpr hothers)
    show Fields.setField (setAll (Fields.setField fields first added) rest) key value =
      setAll (Fields.setField (Fields.setField fields key value) first added) rest
    rw [ih (keys_subset_setField _ _ _ hfields) hrest,
      Fields.setField_comm_of_mem hfields hfirst]

/-- A value set among the fields that are put in is a value set behind them. -/
theorem setAll_setField (fields : Fields) {others : Fields} (h : (Fields.keys others).Nodup)
    (key : String) (value : Node) :
    setAll fields (Fields.setField others key value) =
      Fields.setField (setAll fields others) key value := by
  induction others generalizing fields with
  | nil => rfl
  | cons field rest ih =>
    obtain ⟨first, old⟩ := field
    obtain ⟨hfirst, hrest⟩ := List.nodup_cons.mp h
    by_cases hkey : first = key
    · subst hkey
      have hmem : first ∈ Fields.keys (Fields.setField fields first old) := by
        rw [Fields.keys_setField]
        split
        · assumption
        · simp
      show setAll fields (Fields.setField ((first, old) :: rest) first value) =
        Fields.setField (setAll (Fields.setField fields first old) rest) first value
      rw [setField_setAll hmem hfirst, Fields.setField_setField, Fields.setField, if_pos rfl]
      rfl
    · rw [Fields.setField, if_neg hkey]
      exact ih (Fields.setField fields first old) hrest

theorem setAll_setAll (fields : Fields) {others : Fields} (h : (Fields.keys others).Nodup)
    (more : Fields) : setAll fields (setAll others more) = setAll (setAll fields others) more := by
  induction more generalizing others with
  | nil => rfl
  | cons field rest ih =>
    show setAll fields (setAll (Fields.setField others field.1 field.2) rest) =
      setAll (Fields.setField (setAll fields others) field.1 field.2) rest
    rw [ih (Fields.nodup_keys_setField _ _ h), setAll_setField fields h]

theorem nodup_keys_setAll {fields : Fields} (h : (Fields.keys fields).Nodup) (others : Fields) :
    (Fields.keys (setAll fields others)).Nodup := by
  induction others generalizing fields with
  | nil => exact h
  | cons field rest ih => exact ih (Fields.nodup_keys_setField field.1 field.2 h)

namespace Merged

/-! ## Required names -/

/-- Names are added in order of first appearance, and none twice. -/
theorem foldl_addRequired_eq (names added : List String) :
    added.foldl addRequired names = names ++ (added.removeAll names).eraseDups :=
  foldl_append_new names added

theorem mem_foldl_addRequired_iff (names added : List String) (name : String) :
    name ∈ added.foldl addRequired names ↔ name ∈ names ∨ name ∈ added := by
  rw [foldl_addRequired_eq, List.mem_append, List.mem_eraseDups]
  by_cases hname : name ∈ names <;> simp [List.removeAll, hname]

theorem foldl_addRequired_addRequired (names added : List String) (name : String) :
    (addRequired added name).foldl addRequired names =
      addRequired (added.foldl addRequired names) name := by
  by_cases hadded : name ∈ added
  · have hmem := (mem_foldl_addRequired_iff names added name).mpr (.inr hadded)
    simp [addRequired, hadded, hmem]
  · simp [addRequired, hadded]

theorem foldl_addRequired_foldl (names added more : List String) :
    (more.foldl addRequired added).foldl addRequired names =
      more.foldl addRequired (added.foldl addRequired names) := by
  induction more generalizing added with
  | nil => rfl
  | cons name rest ih =>
    rw [List.foldl_cons, ih, foldl_addRequired_addRequired, List.foldl_cons]

/-! ## Merges that absorbing makes -/

/-- What holds of every merge that schemas were absorbed to: no key occurs twice, none is one that
is not taken over as it is, and there are properties only where some were absorbed. -/
structure Proper (m : Merged) : Prop where
  clean : m.Clean
  keywords : (Fields.keys m.keywords).Nodup
  properties : (Fields.keys m.properties).Nodup
  hasProperties : m.hasProperties = false → m.properties = []

theorem proper_empty : ({} : Merged).Proper where
  clean _ _ := rfl
  keywords := List.nodup_nil
  properties := List.nodup_nil
  hasProperties _ := rfl

theorem Proper.absorbField {m : Merged} (h : m.Proper) (key : String) (value : Node) :
    (m.absorbField key value).Proper where
  clean other hother := by
    rw [keywords_absorbField]
    split
    · exact h.clean other hother
    · next hkey =>
      rw [Fields.get?_setField, if_neg (by rintro rfl; exact hkey hother)]
      exact h.clean other hother
  keywords := by
    rw [keywords_absorbField]
    split
    · exact h.keywords
    · exact Fields.nodup_keys_setField key value h.keywords
  properties := by
    rw [properties_absorbField]
    split
    · exact nodup_keys_setAll h.properties _
    · exact h.properties
  hasProperties := by
    rw [hasProperties_absorbField, properties_absorbField]
    split
    · intro hnone
      obtain ⟨hold, hvalue⟩ := Bool.or_eq_false_iff.mp hnone
      rw [h.hasProperties hold]
      cases value <;> first | rfl | simp [Node.isObject, Node.fields?] at hvalue
    · exact h.hasProperties

theorem Proper.absorb {m : Merged} (h : m.Proper) (schema : Fields) : (m.absorb schema).Proper := by
  induction schema generalizing m with
  | nil => exact h
  | cons field rest ih => exact ih (h.absorbField field.1 field.2)

theorem Proper.foldl_absorb {m : Merged} (h : m.Proper) (schemas : List Fields) :
    (schemas.foldl Merged.absorb m).Proper := by
  induction schemas generalizing m with
  | nil => exact h
  | cons schema rest ih => exact ih (h.absorb schema)

/-! ## Putting merges together -/

/-- One merge behind another. -/
def append (m n : Merged) : Merged where
  keywords := setAll m.keywords n.keywords
  properties := setAll m.properties n.properties
  required := n.required.foldl addRequired m.required
  hasProperties := m.hasProperties || n.hasProperties

/-- Merges are equal when all four parts of them are. -/
theorem eq_of_parts {m n : Merged} (hkeywords : m.keywords = n.keywords)
    (hproperties : m.properties = n.properties) (hrequired : m.required = n.required)
    (hhasProperties : m.hasProperties = n.hasProperties) : m = n := by
  obtain ⟨keywords, properties, required, hasProperties⟩ := m
  congr

theorem append_empty (m : Merged) : m.append {} = m :=
  eq_of_parts rfl rfl rfl (Bool.or_false _)

/-- A keyword absorbed behind two merges is absorbed behind the second. -/
theorem append_absorbField (m : Merged) {n : Merged} (h : n.Proper) (key : String)
    (value : Node) :
    m.append (n.absorbField key value) = (m.append n).absorbField key value := by
  refine eq_of_parts ?_ ?_ ?_ ?_
  · rw [keywords_absorbField, append, keywords_absorbField]
    split
    · rfl
    · exact setAll_setField _ h.keywords key value
  · rw [properties_absorbField, append, properties_absorbField]
    split
    · exact setAll_setAll _ h.properties _
    · rfl
  · rw [required_absorbField, append, required_absorbField]
    split
    · exact foldl_addRequired_foldl _ _ _
    · rfl
  · rw [hasProperties_absorbField, append, hasProperties_absorbField]
    split
    · exact (Bool.or_assoc _ _ _).symm
    · rfl

theorem append_absorb (m : Merged) {n : Merged} (h : n.Proper) (schema : Fields) :
    m.append (n.absorb schema) = (m.append n).absorb schema := by
  induction schema generalizing n with
  | nil => rfl
  | cons field rest ih =>
    show m.append ((n.absorbField field.1 field.2).absorb rest) =
      ((m.append n).absorbField field.1 field.2).absorb rest
    rw [ih (h.absorbField _ _), append_absorbField m h]

/-- Schemas absorbed one after the other behind a merge are merged on their own and put behind
it. -/
theorem foldl_absorb_eq_append (m : Merged) (schemas : List Fields) :
    schemas.foldl Merged.absorb m = m.append (schemas.foldl Merged.absorb {}) := by
  have hbehind : ∀ {n : Merged}, n.Proper →
      schemas.foldl Merged.absorb (m.append n) = m.append (schemas.foldl Merged.absorb n) := by
    intro n hn
    induction schemas generalizing n with
    | nil => rfl
    | cons schema rest ih =>
      rw [List.foldl_cons, List.foldl_cons, ← append_absorb m hn]
      exact ih (hn.absorb schema)
  have hempty := hbehind proper_empty
  rwa [append_empty] at hempty

/-! ## Absorbing a merged view -/

/-- Keywords that are taken over as they are are put in one after the other. -/
theorem absorb_of_unreserved (m : Merged) {schema : Fields}
    (h : ∀ key ∈ reserved, key ∉ Fields.keys schema) :
    m.absorb schema = { m with keywords := setAll m.keywords schema } := by
  induction schema generalizing m with
  | nil => rfl
  | cons field rest ih =>
    obtain ⟨key, value⟩ := field
    have hkey : key ∉ reserved := fun hmem => h key hmem List.mem_cons_self
    have hrest : ∀ other ∈ reserved, other ∉ Fields.keys rest :=
      fun other hother hmem => h other hother (List.mem_cons_of_mem _ hmem)
    have hfield : m.absorbField key value =
        { m with keywords := Fields.setField m.keywords key value } := by
      refine eq_of_parts ?_ ?_ ?_ ?_
      · rw [keywords_absorbField, if_neg hkey]
      · rw [properties_absorbField, if_neg (by rintro rfl; exact hkey (by decide))]
      · rw [required_absorbField, if_neg (by rintro rfl; exact hkey (by decide))]
      · rw [hasProperties_absorbField, if_neg (by rintro rfl; exact hkey (by decide))]
    show (m.absorbField key value).absorb rest = _
    rw [hfield, ih _ hrest]
    rfl

/-- The keywords come first in a merged view, then the properties and the required names. -/
theorem Proper.fields_toNode {m : Merged} (h : m.Proper) :
    m.toNode.fields = m.keywords ++
      ((if m.hasProperties then [("properties", .object m.properties)] else []) ++
        if m.required.isEmpty then [] else [("required", .array (m.required.map Node.string))]) := by
  have hnone : ∀ key ∈ reserved, key ∉ Fields.keys m.keywords :=
    fun key hkey => (Fields.get?_eq_none_iff _ _).mp (h.clean key hkey)
  have hwith : m.withProperties = m.keywords ++
      if m.hasProperties then [("properties", .object m.properties)] else [] := by
    unfold withProperties
    split
    · exact Fields.setField_of_notMem (hnone "properties" (by decide)) _
    · exact (List.append_nil _).symm
  have hrequired : "required" ∉ Fields.keys m.withProperties := by
    have hkeywords := hnone "required" (by decide)
    rw [hwith, Fields.keys, List.map_append, List.mem_append]
    rintro (hmem | hmem)
    · exact hkeywords hmem
    · split at hmem <;> simp at hmem
  rw [toNode_eq, ← List.append_assoc, ← hwith]
  show (if m.required.isEmpty then m.withProperties
    else Fields.setField m.withProperties "required" _) = _
  split
  · exact (List.append_nil _).symm
  · exact Fields.setField_of_notMem hrequired _

/-- Absorbing a merged view puts its merge behind what is there. -/
theorem absorb_toNode (m : Merged) {n : Merged} (h : n.Proper) :
    m.absorb n.toNode.fields = m.append n := by
  have hnone : ∀ key ∈ reserved, key ∉ Fields.keys n.keywords :=
    fun key hkey => (Fields.get?_eq_none_iff _ _).mp (h.clean key hkey)
  have hproperties : ∀ m : Merged,
      m.absorb (if n.hasProperties then [("properties", .object n.properties)] else []) =
        { m with
          properties := setAll m.properties n.properties
          hasProperties := m.hasProperties || n.hasProperties } := by
    intro m
    cases hhas : n.hasProperties with
    | false => simp [absorb, h.hasProperties hhas, setAll]
    | true => simp [absorb, absorbField, setAll]
  have hrequired : ∀ m : Merged,
      m.absorb (if n.required.isEmpty then []
        else [("required", .array (n.required.map Node.string))]) =
        { m with required := n.required.foldl addRequired m.required } := by
    intro m
    cases n.required with
    | nil => rfl
    | cons name rest =>
      simp [absorb, absorbField, Node.items, Node.items?, List.filterMap_map, Function.comp_def,
        Node.string?]
  rw [h.fields_toNode, absorb_append, absorb_append, absorb_of_unreserved m hnone, hproperties,
    hrequired]
  rfl

end Merged

end Schema

end ApiLint
