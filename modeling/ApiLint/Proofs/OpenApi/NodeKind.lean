import ApiLint.Proofs.Path.Prefix
import ApiLint.OpenApi.NodeKind
set_option autoImplicit false

/-!
# Kinds along a path

The kind at a path is found by running through its steps.  Some kinds stand at one
path only, and below what is of no known kind nothing is of a known kind; so from
the places where schemas are looked for no path item is met any more.
-/

namespace ApiLint.NodeKind

/-- The kind behind further steps is found from the kind before them. -/
theorem of_append (p q : DocPath) : of (p ++ q) = q.foldl child (of p) := by
  rw [of, of, List.foldl_append]

theorem foldl_child_other (path : DocPath) : path.foldl child other = other := by
  induction path with
  | nil => rfl
  | cons segment rest ih => rw [List.foldl_cons, child_other, ih]

theorem isOperation_iff (kind : NodeKind) :
    kind.isOperation = true ↔ ∃ method, kind = operation method := by
  cases kind <;> simp [isOperation]

/-! ## One step -/

/-- A key leads from a node of a known kind to one of a known kind again. -/
inductive Leads : NodeKind → String → NodeKind → Prop
  | paths : Leads root "paths" paths
  | components : Leads root "components" components
  | webhooks : Leads root "webhooks" webhooks
  | path (key : String) : Leads paths key pathItem
  | webhook (key : String) : Leads webhooks key pathItem
  | componentPathItem (key : String) : Leads componentPathItems key pathItem
  | expression (key : String) : Leads callback key pathItem
  | operation (method : Method) : Leads pathItem method.key (operation method)
  | responses (method : Method) : Leads (operation method) "responses" operationResponses
  | operationCallbacks (method : Method) : Leads (operation method) "callbacks" callbacks
  | componentCallbacks : Leads components "callbacks" callbacks
  | componentResponses : Leads components "responses" componentResponses
  | componentPathItems : Leads components "pathItems" componentPathItems
  | callback (key : String) : Leads callbacks key callback

/-- The key that leads to a known kind says from which kind it leads there. -/
theorem childKey_eq_iff {kind next : NodeKind} (h : next ≠ other) (key : String) :
    kind.childKey key = next ↔ Leads kind key next := by
  constructor
  · rintro rfl
    cases kind with
    | root =>
      simp only [childKey] at h ⊢
      split
      · next hkey => exact hkey ▸ .paths
      · split
        · next hkey => exact hkey ▸ .components
        · split
          · next hkey => exact hkey ▸ .webhooks
          · simp_all
    | paths => exact .path key
    | webhooks => exact .webhook key
    | componentPathItems => exact .componentPathItem key
    | callback => exact .expression key
    | callbacks => exact .callback key
    | pathItem =>
      simp only [childKey] at h ⊢
      split
      · next method hmethod => exact Method.key_eq_of_ofKey? hmethod ▸ .operation method
      · simp_all
    | operation method =>
      simp only [childKey] at h ⊢
      split
      · next hkey => exact hkey ▸ .responses method
      · split
        · next hkey => exact hkey ▸ .operationCallbacks method
        · simp_all
    | components =>
      simp only [childKey] at h ⊢
      split
      · next hkey => exact hkey ▸ .componentCallbacks
      · split
        · next hkey => exact hkey ▸ .componentResponses
        · split
          · next hkey => exact hkey ▸ .componentPathItems
          · simp_all
    | operationResponses => exact absurd rfl h
    | componentResponses => exact absurd rfl h
    | other => exact absurd rfl h
  · intro hleads
    cases hleads <;> simp [childKey, Method.ofKey?_key]

theorem child_ne_root (kind : NodeKind) (segment : Segment) : kind.child segment ≠ root := by
  cases segment with
  | index position => simp [child]
  | key key =>
    intro h
    have hleads := (childKey_eq_iff (by simp) key).mp h
    nomatch hleads

/-- A path of a known kind, but for that of the document, ends with a key that leads there. -/
theorem of_eq_iff {kind : NodeKind} (hroot : kind ≠ root) (hother : kind ≠ other)
    (path : DocPath) :
    of path = kind ↔
      ∃ (above : DocPath) (key : String) (parent : NodeKind),
        path = above.child (.key key) ∧ of above = parent ∧ Leads parent key kind := by
  constructor
  · rintro rfl
    rcases List.eq_nil_or_concat' path with rfl | ⟨above, segment, rfl⟩
    · exact absurd rfl hroot
    · have hchild : of (above ++ [segment]) = (of above).child segment := of_child above segment
      rw [hchild] at hother ⊢
      cases segment with
      | index position => exact absurd rfl hother
      | key key => exact ⟨above, key, _, rfl, rfl, (childKey_eq_iff hother key).mp rfl⟩
  · rintro ⟨above, key, parent, rfl, rfl, hleads⟩
    rw [of_child]
    exact (childKey_eq_iff hother key).mpr hleads

/-! ## Kinds that stand at one path -/

theorem of_eq_root_iff (path : DocPath) : of path = root ↔ path = [] := by
  constructor
  · intro h
    rcases List.eq_nil_or_concat' path with rfl | ⟨above, segment, rfl⟩
    · rfl
    · have hchild : (of above).child segment = root := (of_child above segment).symm.trans h
      exact absurd hchild (child_ne_root _ _)
  · rintro rfl
    rfl

/-- What a key of the document leads to stands at that key alone. -/
theorem of_eq_iff_of_leads_root {name : String} {kind : NodeKind} (h : Leads root name kind)
    (path : DocPath) : of path = kind ↔ path = [.key name] := by
  have hback : ∀ parent key, Leads parent key kind → parent = root ∧ key = name := by
    cases h <;> (intro parent key hleads; cases hleads; exact ⟨rfl, rfl⟩)
  rw [of_eq_iff (by cases h <;> simp) (by cases h <;> simp)]
  constructor
  · rintro ⟨above, key, parent, rfl, habove, hleads⟩
    obtain ⟨rfl, rfl⟩ := hback parent key hleads
    obtain rfl := (of_eq_root_iff above).mp habove
    rfl
  · rintro rfl
    exact ⟨[], name, root, rfl, rfl, h⟩

theorem of_eq_components_iff (path : DocPath) :
    of path = components ↔ path = [.key "components"] :=
  of_eq_iff_of_leads_root .components path

/-- An operation key leads from a path item to an operation. -/
theorem child_operationKey {method : String} (h : Method.isOperationKey method = true) :
    ∃ m, child pathItem (.key method) = operation m := by
  obtain ⟨m, hm⟩ := Option.isSome_iff_exists.mp h
  exact ⟨m, by simp [child, childKey, hm]⟩

/-! ## No path item on the way -/

/-- From the kind no path item is met along the steps, nor behind them. -/
def Avoids (kind : NodeKind) (steps : DocPath) : Prop :=
  ∀ path : DocPath, path ≠ [] → path <+: steps ∨ steps <+: path →
    path.foldl child kind ≠ pathItem

/-- A kind with children of no known kind only meets none. -/
theorem avoids_of_child_eq_other {kind : NodeKind} (h : ∀ segment, kind.child segment = other)
    (steps : DocPath) : Avoids kind steps := by
  intro path hne _
  cases path with
  | nil => exact absurd rfl hne
  | cons segment rest =>
    rw [List.foldl_cons, h, foldl_child_other]
    decide

theorem avoids_other (steps : DocPath) : Avoids other steps :=
  avoids_of_child_eq_other child_other steps

theorem avoids_operationResponses (steps : DocPath) : Avoids operationResponses steps :=
  avoids_of_child_eq_other (fun segment => by cases segment <;> rfl) steps

theorem avoids_componentResponses (steps : DocPath) : Avoids componentResponses steps :=
  avoids_of_child_eq_other (fun segment => by cases segment <;> rfl) steps

/-- A step to another kind that meets no path item. -/
theorem Avoids.step {kind next : NodeKind} {segment : Segment} {steps : DocPath}
    (hchild : kind.child segment = next) (hnext : next ≠ pathItem) (h : Avoids next steps) :
    Avoids kind (segment :: steps) := by
  intro path hne hcomparable
  cases path with
  | nil => exact absurd rfl hne
  | cons first rest =>
    rw [List.cons_prefix_cons, List.cons_prefix_cons] at hcomparable
    have hfirst : first = segment := hcomparable.elim (·.1) (·.1.symm)
    rw [List.foldl_cons, hfirst, hchild]
    cases rest with
    | nil => exact hnext
    | cons second rest => exact h _ (by simp) (hcomparable.imp (·.2) (·.2))

end ApiLint.NodeKind
