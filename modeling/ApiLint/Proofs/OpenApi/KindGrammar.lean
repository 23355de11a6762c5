import ApiLint.Proofs.OpenApi.NodeKind
set_option autoImplicit false

/-!
# The paths of path items, operations and responses

Which paths are those of path items, operations and maps of responses, said by a grammar
over their steps: from the maps of path items at the top of a document, through the
callbacks of operations to path items again, at whatever depth.  A key is judged by the
kind it is met at and never by its look, so a path may be called `get` and a callback
`responses`.  The maps of responses found so are among those that the end of a path alone
would suggest.
-/

namespace ApiLint

namespace NodeKind

/-! ## What operations and components hold -/

theorem of_eq_operation_iff (method : Method) (path : DocPath) :
    of path = operation method ↔
      ∃ item, of item = pathItem ∧ path = item.child (.key method.key) := by
  rw [of_eq_iff (by simp) (by simp)]
  constructor
  · rintro ⟨item, key, parent, rfl, hitem, hleads⟩
    cases hleads
    exact ⟨item, hitem, rfl⟩
  · rintro ⟨item, hitem, rfl⟩
    exact ⟨item, _, pathItem, rfl, hitem, .operation method⟩

theorem of_eq_operationResponses_iff (path : DocPath) :
    of path = operationResponses ↔
      ∃ (item : DocPath) (method : Method),
        of item = pathItem ∧ path = item.keys [method.key, "responses"] := by
  rw [of_eq_iff (by simp) (by simp)]
  constructor
  · rintro ⟨above, key, parent, rfl, habove, hleads⟩
    cases hleads with
    | responses method =>
      obtain ⟨item, hitem, rfl⟩ := (of_eq_operation_iff method above).mp habove
      exact ⟨item, method, hitem, by simp [DocPath.keys_cons]⟩
  · rintro ⟨item, method, hitem, rfl⟩
    have hoperation := (of_eq_operation_iff method _).mpr ⟨item, hitem, rfl⟩
    exact ⟨_, _, _, by simp [DocPath.keys_cons], hoperation, .responses method⟩

/-- What only a key of the components leads to stands there. -/
theorem of_eq_iff_of_leads_components {name : String} {kind : NodeKind}
    (h : Leads components name kind) (hcallbacks : kind ≠ callbacks) (path : DocPath) :
    of path = kind ↔ path = DocPath.keys [] ["components", name] := by
  have hback : ∀ parent key, Leads parent key kind → parent = components ∧ key = name := by
    cases h <;> intro parent key hleads <;> cases hleads <;>
      first | exact ⟨rfl, rfl⟩ | exact absurd rfl hcallbacks
  rw [of_eq_iff (by cases h <;> simp) (by cases h <;> simp)]
  constructor
  · rintro ⟨above, key, parent, rfl, habove, hleads⟩
    obtain ⟨rfl, rfl⟩ := hback parent key hleads
    obtain rfl := (of_eq_components_iff above).mp habove
    rfl
  · rintro rfl
    exact ⟨[.key "components"], name, components, rfl, rfl, h⟩

/-- Named callbacks are held by the components and by operations. -/
theorem of_eq_callbacks_iff (path : DocPath) :
    of path = callbacks ↔
      path = DocPath.keys [] ["components", "callbacks"] ∨
        ∃ (item : DocPath) (method : Method),
          of item = pathItem ∧ path = item.keys [method.key, "callbacks"] := by
  rw [of_eq_iff (by simp) (by simp)]
  constructor
  · rintro ⟨above, key, parent, rfl, habove, hleads⟩
    cases hleads with
    | operationCallbacks method =>
      obtain ⟨item, hitem, rfl⟩ := (of_eq_operation_iff method above).mp habove
      exact .inr ⟨item, method, hitem, by simp [DocPath.keys_cons]⟩
    | componentCallbacks =>
      obtain rfl := (of_eq_components_iff above).mp habove
      exact .inl rfl
  · rintro (rfl | ⟨item, method, hitem, rfl⟩)
    · exact ⟨[.key "components"], _, components, rfl, rfl, .componentCallbacks⟩
    · have hoperation := (of_eq_operation_iff method _).mpr ⟨item, hitem, rfl⟩
      exact ⟨_, _, _, by simp [DocPath.keys_cons], hoperation, .operationCallbacks method⟩

theorem of_eq_callback_iff (path : DocPath) :
    of path = callback ↔
      ∃ (above : DocPath) (name : String),
        of above = callbacks ∧ path = above.child (.key name) := by
  rw [of_eq_iff (by simp) (by simp)]
  constructor
  · rintro ⟨above, name, parent, rfl, habove, hleads⟩
    cases hleads
    exact ⟨above, name, habove, rfl⟩
  · rintro ⟨above, name, habove, rfl⟩
    exact ⟨above, name, callbacks, rfl, habove, .callback name⟩

/-! ## Path items -/

/-- The paths of path items: the entries of the map of paths, of the webhooks and of the reusable
path items, and the entries of a callback, which is a reusable one or one of an operation. -/
inductive ItemPath : DocPath → Prop
  | path (key : String) : ItemPath (DocPath.keys [] ["paths", key])
  | webhook (key : String) : ItemPath (DocPath.keys [] ["webhooks", key])
  | component (key : String) : ItemPath (DocPath.keys [] ["components", "pathItems", key])
  | componentCallback (name expression : String) :
      ItemPath (DocPath.keys [] ["components", "callbacks", name, expression])
  | callback {item : DocPath} {method : String} (name expression : String) (hitem : ItemPath item)
      (hmethod : Method.isOperationKey method = true) :
      ItemPath (item.keys [method, "callbacks", name, expression])

theorem ItemPath.of_eq {path : DocPath} (h : ItemPath path) : of path = pathItem := by
  induction h with
  | path key => rfl
  | webhook key => rfl
  | component key => rfl
  | componentCallback name expression => rfl
  | callback name expression _ hmethod ih =>
    obtain ⟨method, hoperation⟩ := child_operationKey hmethod
    rw [DocPath.keys, of_append, ih, List.map_cons, List.foldl_cons, hoperation]
    rfl

/-- The last steps of a path item's path lead back to the map that it is an entry of.  Above a
callback of an operation stands the path item of that operation, at a shorter path. -/
theorem ItemPath.of_kind {path : DocPath} (h : of path = pathItem) : ItemPath path := by
  induction hlength : path.length using Nat.strongRecOn generalizing path with
  | ind length ih =>
    obtain ⟨above, key, parent, rfl, habove, hleads⟩ := (of_eq_iff (by simp) (by simp) path).mp h
    cases hleads with
    | path =>
      obtain rfl := (of_eq_iff_of_leads_root .paths above).mp habove
      exact .path key
    | webhook =>
      obtain rfl := (of_eq_iff_of_leads_root .webhooks above).mp habove
      exact .webhook key
    | componentPathItem =>
      obtain rfl := (of_eq_iff_of_leads_components .componentPathItems (by simp) above).mp habove
      exact .component key
    | expression =>
      obtain ⟨callbacksPath, name, hcallbacks, rfl⟩ := (of_eq_callback_iff above).mp habove
      rcases (of_eq_callbacks_iff callbacksPath).mp hcallbacks with
        rfl | ⟨item, method, hitem, rfl⟩
      · exact .componentCallback name key
      · have hshorter : item.length < length := by
          simp only [← hlength, DocPath.keys, DocPath.child, List.length_append, List.length_map,
            List.length_cons, List.length_nil]
          omega
        have hcallback := ItemPath.callback name key (ih _ hshorter hitem rfl)
          (Method.isOperationKey_key method)
        simpa [DocPath.keys_cons] using hcallback

theorem of_eq_pathItem_iff (path : DocPath) : of path = pathItem ↔ ItemPath path :=
  ⟨.of_kind, fun h => h.of_eq⟩

/-! ## Paths that a kind is read off -/

/-- Behind an index nothing is of a known kind. -/
theorem of_eq_other_of_index {path : DocPath} {position : Nat}
    (h : Segment.index position ∈ path) : of path = other := by
  obtain ⟨before, after, rfl⟩ := List.append_of_mem h
  rw [of_append, List.foldl_cons, child_index, foldl_child_other]

/-- The end of the path alone tells that the responses of an operation are responses. -/
theorem isResponseObject_operation (item : DocPath) (method : Method) :
    (item.keys [method.key, "responses"]).isResponseObject = true := by
  simp [DocPath.isResponseObject, DocPath.keyBack?, DocPath.keys, Segment.key?,
    Method.isOperationKey_key]

/-- The grammar decides which paths are those of path items, of operations of each method, of the
responses of operations and of the reusable responses, and an index stands on none of them.  What
is a map of responses by the grammar is one by the end of its path. -/
theorem of_eq_iff_grammar (path : DocPath) :
    (of path = pathItem ↔ ItemPath path) ∧
      (∀ method, of path = operation method ↔
        ∃ item, ItemPath item ∧ path = item.child (.key method.key)) ∧
      (of path = operationResponses ↔
        ∃ (item : DocPath) (method : String), ItemPath item ∧
          Method.isOperationKey method = true ∧ path = item.keys [method, "responses"]) ∧
      (of path = componentResponses ↔ path = DocPath.keys [] ["components", "responses"]) ∧
      (∀ position, Segment.index position ∈ path → of path = other) ∧
      ((of path).isResponses = true → path.isResponseObject = true) := by
  have hcomponents := of_eq_iff_of_leads_components .componentResponses (by simp) path
  refine ⟨of_eq_pathItem_iff path, ?_, ?_, hcomponents, fun _ => of_eq_other_of_index, ?_⟩
  · intro method
    simp only [of_eq_operation_iff, of_eq_pathItem_iff]
  · rw [of_eq_operationResponses_iff]
    constructor
    · rintro ⟨item, method, hitem, rfl⟩
      exact ⟨item, method.key, .of_kind hitem, Method.isOperationKey_key method, rfl⟩
    · rintro ⟨item, key, hitem, hkey, rfl⟩
      obtain ⟨method, rfl⟩ := Method.exists_key_eq hkey
      exact ⟨item, method, hitem.of_eq, rfl⟩
  · intro h
    simp only [isResponses, Bool.or_eq_true, decide_eq_true_eq] at h
    rcases h with hoperation | hcomponent
    · obtain ⟨item, method, _, rfl⟩ := (of_eq_operationResponses_iff path).mp hoperation
      exact isResponseObject_operation item method
    · rw [hcomponents.mp hcomponent]
      decide

/-- A path called like a method, and below its operation a callback called like responses with an
expression called like a method: the callback's operation holds responses. -/
theorem of_eq_imitatingPath :
    of (DocPath.keys [] ["paths", "get", "post", "callbacks", "responses", "get", "put",
        "responses"]) = operationResponses ∧
      of (DocPath.keys [] ["paths", "get", "responses"]) = other := by
  have hitem :
      ItemPath (DocPath.keys [] ["paths", "get", "post", "callbacks", "responses", "get"]) :=
    @ItemPath.callback [.key "paths", .key "get"] "post" "responses" "get" (.path "get") rfl
  refine ⟨(of_eq_iff_grammar _).2.2.1.mpr ⟨_, "put", hitem, rfl, rfl⟩, rfl⟩

end NodeKind

end ApiLint
