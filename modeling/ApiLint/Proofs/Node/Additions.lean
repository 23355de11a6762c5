import ApiLint.Proofs.Node.Steps
import Mathlib.Data.List.Basic
set_option autoImplicit false

/-!
# Adding to a tree

Elements can be put at the end of an array in an object, and the entries of a map in an object
can be changed one by one.  Nothing else of the object changes.  What is collected from an
object field by field gets no more when each field contributes no more.
-/

namespace ApiLint

/-! ## Collecting from fields -/

namespace Fields

variable {α : Type} {fields : Fields} {key : String} {value : Node} {g : String × Node → List α}

/-- A field that is replaced by one that contributes less, or a new one that contributes nothing,
adds nothing to what is collected. -/
theorem sublist_flatMap_setField
    (hold : ∀ old, get? fields key = some old → (g (key, value)).Sublist (g (key, old)))
    (hnew : get? fields key = none → g (key, value) = []) :
    ((setField fields key value).flatMap g).Sublist (fields.flatMap g) := by
  induction fields with
  | nil => simp [setField, hnew rfl]
  | cons field rest ih =>
    obtain ⟨first, old⟩ := field
    by_cases hkey : first = key
    · subst hkey
      have hvalue := hold old (by simp [get?])
      simpa [setField] using hvalue.append (.refl (rest.flatMap g))
    · have hrest := ih (fun old h => hold old (by simpa [get?, hkey] using h))
        (fun h => hnew (by simpa [get?, hkey] using h))
      simpa [setField, hkey] using (List.Sublist.refl (g (first, old))).append hrest

/-- Fields under other keys stay as they are. -/
theorem filter_setField {p : String → Bool} (h : p key = false) :
    (setField fields key value).filter (fun field => p field.1) =
      fields.filter fun field => p field.1 := by
  induction fields with
  | nil => simp [setField, h]
  | cons field rest ih =>
    obtain ⟨first, old⟩ := field
    by_cases hkey : first = key
    · subst hkey
      simp [setField, h]
    · simp only [setField, hkey, if_false, List.filter_cons, ih]

end Fields

namespace Node

/-! ## Elements behind an array -/

/-- The object with elements at the end of the array under a key.  What is there and is no array
gives way to one; where nothing is, the array is the last field. -/
def appendItems (node : Node) (key : String) (new : List Node) : Node :=
  match node with
  | object fields =>
    if new.isEmpty then object fields
    else object (Fields.setField fields key (array ((object fields).getItems key ++ new)))
  | node => node

section Items

variable (node : Node) (key : String) (new : List Node)

theorem isObject_appendItems : (node.appendItems key new).isObject = node.isObject := by
  cases node with
  | object fields =>
    rw [appendItems]
    split <;> rfl
  | _ => rfl

theorem get?_appendItems_of_ne {other : String} (h : other ≠ key) :
    (node.appendItems key new).get? other = node.get? other := by
  cases node with
  | object fields =>
    rw [appendItems]
    split
    · rfl
    · simp [get?, Fields.get?_setField, h.symm]
  | _ => rfl

theorem getItems_appendItems (h : node.isObject = true) :
    (node.appendItems key new).getItems key = node.getItems key ++ new := by
  cases node with
  | object fields =>
    rw [appendItems]
    split
    · next hnew => simp [List.isEmpty_iff.mp hnew]
    · simp [getItems, get?, Fields.get?_setField, items, items?]
  | _ => simp [isObject, fields?] at h

/-- Fields under other keys stay as they are. -/
theorem filter_fields_appendItems {p : String → Bool} (h : p key = false) :
    (node.appendItems key new).fields.filter (fun field => p field.1) =
      node.fields.filter fun field => p field.1 := by
  cases node with
  | object fields =>
    rw [appendItems]
    split
    · rfl
    · exact Fields.filter_setField h
  | _ => rfl

/-- Elements that contribute nothing add nothing to what is collected. -/
theorem sublist_flatMap_fields_appendItems {α : Type} {g : String × Node → List α}
    (happend : ∀ items, (g (key, array (items ++ new))).Sublist (g (key, array items)))
    (hnew : g (key, array new) = []) :
    ((node.appendItems key new).fields.flatMap g).Sublist (node.fields.flatMap g) := by
  cases node with
  | object fields =>
    rw [appendItems]
    split
    · exact .refl _
    · refine Fields.sublist_flatMap_setField (fun old hold => ?_) (fun hnone => ?_)
      · cases old with
        | array items =>
          have hitems : (object fields).getItems key = items := by
            simp [getItems, get?, hold, Node.items, items?]
          rw [hitems]
          exact happend items
        | _ =>
          have hitems : (object fields).getItems key = [] := by
            simp [getItems, get?, hold, Node.items, items?]
          rw [hitems, List.nil_append, hnew]
          exact List.nil_sublist _
      · have hitems : (object fields).getItems key = [] := by
          simp [getItems, get?, hnone]
        rw [hitems, List.nil_append, hnew]
  | _ => exact .refl _

end Items

/-! ## Entries of a map -/

/-- The object with each entry of the map under a key changed. -/
def mapEntries (node : Node) (key : String) (f : String → Node → Node) : Node :=
  match node, node.getFields? key with
  | object fields, some entries =>
    object (Fields.setField fields key (object (entries.map fun e => (e.1, f e.1 e.2))))
  | node, _ => node

section Entries

variable (node : Node) (key : String) (f : String → Node → Node)

/-- Either nothing is changed, or the node is an object with a map under the key. -/
theorem mapEntries_cases :
    (node.getFields? key = none ∧ node.mapEntries key f = node) ∨
      ∃ fields entries, node = object fields ∧ Fields.get? fields key = some (object entries) ∧
        node.mapEntries key f =
          object (Fields.setField fields key (object (entries.map fun e => (e.1, f e.1 e.2)))) := by
  cases node with
  | object fields =>
    cases hentries : (object fields).getFields? key with
    | none => exact .inl ⟨rfl, by simp [mapEntries, hentries]⟩
    | some entries =>
      right
      obtain ⟨map, hmap, hfields⟩ := Option.bind_eq_some_iff.mp hentries
      cases map with
      | object inner =>
        obtain rfl : inner = entries := Option.some.inj hfields
        exact ⟨fields, inner, rfl, hmap, by simp [mapEntries, hentries]⟩
      | _ => simp [fields?] at hfields
  | _ => exact .inl ⟨rfl, rfl⟩

theorem get?_mapEntries_of_ne {other : String} (h : other ≠ key) :
    (node.mapEntries key f).get? other = node.get? other := by
  rcases node.mapEntries_cases key f with ⟨_, heq⟩ | ⟨fields, entries, rfl, _, heq⟩
  · rw [heq]
  · rw [heq]
    simp [get?, Fields.get?_setField, h.symm]

theorem getFields?_mapEntries :
    (node.mapEntries key f).getFields? key =
      (node.getFields? key).map (List.map fun e => (e.1, f e.1 e.2)) := by
  rcases node.mapEntries_cases key f with ⟨hnone, heq⟩ | ⟨fields, entries, rfl, hget, heq⟩
  · rw [heq, hnone]
    rfl
  · rw [heq]
    simp [getFields?, get?, Fields.get?_setField, hget, fields?]

end Entries

end Node

end ApiLint
