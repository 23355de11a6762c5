import ApiLint.Proofs.Rule.Reports
import ApiLint.Proofs.Schema.Collector
import ApiLint.Proofs.Walk.AddedNodes
set_option autoImplicit false

/-!
# Following suggestions

A path parameter that is not declared is suggested to be declared on the path item, and a tag
that is not defined to be added to the tags of the document.  Documents in which this was done
are the same but for new elements of two kinds of arrays.  The rules that go through the visits
of the walk report nothing on these elements, so they report no more than before.
-/

namespace ApiLint.Rule

/-! ## The documents -/

/-- The declaration of a path parameter. -/
def declaration (name : String) : Node :=
  .object [("name", .string name), ("in", .string "path"), ("required", .bool true)]

/-- The path item with declarations of path parameters behind its parameters. -/
def withDeclarations (item : Node) (names : List String) : Node :=
  item.appendItems "parameters" (names.map declaration)

/-- The document with declarations of path parameters on its path items, for each path the ones
with its names. -/
def declareParameters (names : String → List String) (document : Node) : Node :=
  document.mapEntries "paths" fun template item => withDeclarations item (names template)

/-- A tag of a document. -/
def tagNamed (name : String) : Node := .object [("name", .string name)]

/-- The document with tags behind its tags. -/
def defineTags (tags : List String) (document : Node) : Node :=
  document.appendItems "tags" (tags.map tagNamed)

/-! ## Quiet places -/

/-- The document, its map of paths and its tags, and deeper places of no known kind that are no
descriptions. -/
inductive QuietPath : DocPath → Prop
  | document : QuietPath []
  | paths : QuietPath [.key "paths"]
  | tags : QuietPath [.key "tags"]
  | other {path : DocPath} (hkind : NodeKind.of path = .other) (hlength : 1 < path.length)
      (hlast : path.lastKey? ≠ some "description") : QuietPath path

theorem QuietPath.kind {path : DocPath} (h : QuietPath path) :
    NodeKind.of path = .root ∨ NodeKind.of path = .paths ∨ NodeKind.of path = .other := by
  cases h with
  | document => exact .inl rfl
  | paths => exact .inr (.inl rfl)
  | tags => exact .inr (.inr rfl)
  | other hkind _ _ => exact .inr (.inr hkind)

theorem QuietPath.lastKey?_ne {path : DocPath} (h : QuietPath path) :
    path.lastKey? ≠ some "description" := by
  cases h with
  | document => decide
  | paths => decide
  | tags => decide
  | other _ _ hlast => exact hlast

/-- What is below a place of no known kind is quiet but for descriptions. -/
theorem QuietPath.child {path : DocPath} (hkind : NodeKind.of path = .other) (hpath : path ≠ [])
    {segment : Segment} (hsegment : segment ≠ .key "description") :
    QuietPath (path.child segment) := by
  refine .other ?_ ?_ ?_
  · rw [NodeKind.of_child, hkind, NodeKind.child_other]
  · have hlength := List.length_pos_iff.mpr hpath
    simp [DocPath.child, hlength]
  · cases segment with
    | index position => simp [DocPath.lastKey?, DocPath.last?, DocPath.child, Segment.key?]
    | key name =>
      simpa [DocPath.lastKey?, DocPath.last?, DocPath.child, Segment.key?] using hsegment

/-- Reports on visits that are none at quiet places, and no more on a path item when parameters
are declared on it. -/
structure Unprovoked (report : Visit → List Finding) : Prop where
  quiet : ∀ place : Located, QuietPath place.path → report place.visit = []
  item : ∀ (template : String) (item : Node) (names : List String),
    (report (Located.visit
      ⟨[.key "paths", .key template], withDeclarations item names⟩)).Sublist
      (report (Located.visit ⟨[.key "paths", .key template], item⟩))

/-- Reports on operations and responses alone. -/
theorem unprovoked_of_kind {report : Visit → List Finding}
    (h : ∀ v : Visit, v.kind.isOperation = false → v.kind.isResponses = false → report v = []) :
    Unprovoked report where
  quiet place hplace := by
    rcases hplace.kind with hkind | hkind | hkind <;>
      exact h place.visit (congrArg NodeKind.isOperation hkind)
        (congrArg NodeKind.isResponses hkind)
  item template item names := by
    rw [h _ rfl rfl]
    exact List.nil_sublist _

theorem unprovoked_inlineAt : Unprovoked inlineAt :=
  unprovoked_of_kind fun v _ hresponses => by simp [inlineAt, hresponses]

theorem unprovoked_errorAt : Unprovoked errorAt := by
  refine unprovoked_of_kind fun v _ hresponses => ?_
  have hkind : v.kind ≠ .operationResponses := by
    intro hkind
    rw [hkind] at hresponses
    exact Bool.false_ne_true hresponses.symm
  rw [errorAt, if_neg hkind]

theorem unprovoked_untaggedAt : Unprovoked untaggedAt :=
  unprovoked_of_kind fun v hoperation _ => by simp [untaggedAt, isUntaggedOperation, hoperation]

theorem unprovoked_undefinedTagsAt (defined : List String) :
    Unprovoked (undefinedTagsAt defined) :=
  unprovoked_of_kind fun v hoperation _ => by simp [undefinedTagsAt, hoperation]

/-- A node that is no text has no script in it. -/
theorem scriptAt_eq_nil {v : Visit} (h : v.node.string? = none) : scriptAt v = [] := by
  have hscripted : isScriptedDescription v = false := by
    unfold isScriptedDescription
    cases hnode : v.node with
    | string text => simp [hnode, Node.string?] at h
    | _ => exact Bool.and_false _
  rw [scriptAt, hscripted]
  rfl

theorem unprovoked_scriptAt : Unprovoked scriptAt where
  quiet place hplace := by
    have hlast : place.visit.path.lastKey? ≠ some "description" := hplace.lastKey?_ne
    simp [scriptAt, isScriptedDescription, hlast]
  item template item names := by
    cases item with
    | object fields =>
      rw [scriptAt_eq_nil]
      · exact List.nil_sublist _
      · show (Node.appendItems (.object fields) _ _).string? = none
        rw [Node.appendItems]
        split <;> rfl
    | _ => exact .refl _

/-! ## Roots on path items -/

/-- There are no schemas in the declaration of a path parameter. -/
theorem parameter_declaration (path : DocPath) (name : String) :
    Schema.parameter ⟨path, declaration name⟩ = [] := rfl

theorem listed_append_declarations (path : DocPath) (items : List Node) (names : List String) :
    Schema.listed Schema.parameter ⟨path, .array (items ++ names.map declaration)⟩ =
      Schema.listed Schema.parameter ⟨path, .array items⟩ := by
  have hnew : (((names.map declaration).zipIdx (0 + items.length)).map fun item =>
      (⟨path.child (.index item.2), item.1⟩ : Located)).flatMap Schema.parameter = [] := by
    rw [List.flatMap_map, List.flatMap_eq_nil_iff]
    intro item hitem
    obtain ⟨name, _, hname⟩ := List.mem_map.mp (List.fst_mem_of_mem_zipIdx hitem)
    rw [← hname]
    exact parameter_declaration _ name
  simp only [Schema.listed, Node.items, Node.items?, Option.getD_some, Schema.located_eq_map]
  rw [List.zipIdx_append, List.map_append, List.flatMap_append, hnew, List.append_nil]

/-- Declarations of path parameters give a path item no more schemas. -/
theorem sublist_pathItem (path : DocPath) (item : Node) (names : List String) :
    (Schema.pathItem ⟨path, withDeclarations item names⟩).Sublist
      (Schema.pathItem ⟨path, item⟩) := by
  refine Node.sublist_flatMap_fields_appendItems item "parameters" _ (fun items => ?_) ?_
  · dsimp only
    rw [if_pos rfl, if_pos rfl, listed_append_declarations]
  · dsimp only
    rw [if_pos rfl]
    exact listed_append_declarations _ [] names

theorem unprovoked_insideRoots (g : Located → List Finding) : Unprovoked (insideRoots g) where
  quiet place hplace := by
    have hroots : Schema.rootsAt place.visit = [] := by
      obtain ⟨path, node⟩ := place
      cases hplace with
      | document => rfl
      | paths => rfl
      | tags => rfl
      | other hkind hlength _ =>
        have hne : path.length ≠ 1 := Nat.ne_of_gt hlength
        simp [Schema.rootsAt, Located.visit, hkind, hne]
    rw [insideRoots, hroots]
    rfl
  item template item names := by
    have hroots := sublist_pathItem [.key "paths", .key template] item names
    exact (hroots.flatMap Schema.subschemas).flatMap g

/-! ## Reports visit by visit -/

namespace Unprovoked

variable {report : Visit → List Finding} (h : Unprovoked report)
include h

/-- Nothing is reported below a quiet place of no known kind, when all that stands there are
fields without descriptions and with nothing below them. -/
theorem reportBelow_record {path : DocPath} (hpath : QuietPath path)
    (hkind : NodeKind.of path = .other) (hne : path ≠ []) {fields : Fields}
    (hfields : ∀ field ∈ fields, field.1 ≠ "description" ∧ field.2.steps = []) :
    reportBelow (fun place => report place.visit) path (.object fields) = [] := by
  rw [reportBelow_object, h.quiet ⟨path, .object fields⟩ hpath, List.nil_append,
    List.flatMap_eq_nil_iff]
  rintro ⟨key, value⟩ hfield
  obtain ⟨hkey, hleaf⟩ := hfields _ hfield
  rw [reportBelow_of_leaf _ hleaf]
  refine h.quiet ⟨path.child (.key key), value⟩ (.child hkind hne ?_)
  simpa using hkey

theorem reportBelow_declaration (template : String) (position : Nat) (name : String) :
    reportBelow (fun place => report place.visit)
      [.key "paths", .key template, .key "parameters", .index position] (declaration name) =
        [] := by
  have hpath : QuietPath
      (DocPath.child [.key "paths", .key template, .key "parameters"] (.index position)) :=
    .child rfl (by simp) nofun
  exact h.reportBelow_record hpath rfl (List.cons_ne_nil _ _) (by simp [Node.steps])

theorem reportBelow_tagNamed (position : Nat) (name : String) :
    reportBelow (fun place => report place.visit) [.key "tags", .index position]
      (tagNamed name) = [] := by
  have hpath : QuietPath (DocPath.child [.key "tags"] (.index position)) :=
    .child rfl (by simp) nofun
  exact h.reportBelow_record hpath rfl (List.cons_ne_nil _ _) (by simp [Node.steps])

/-- Declared path parameters add no reports. -/
theorem sublist_declareParameters (names : String → List String) (document : Node) :
    ((walkDocument (declareParameters names document)).flatMap report).Sublist
      ((walkDocument document).flatMap report) := by
  rw [flatMap_walkDocument, flatMap_walkDocument]
  refine sublist_reportBelow_mapEntries [] document "paths" ?_ ?_ ?_
  · rw [h.quiet ⟨[], document.mapEntries _ _⟩ .document]
    exact List.nil_sublist _
  · exact fun entries => h.quiet ⟨[.key "paths"], .object entries⟩ .paths
  · intro template item
    refine sublist_reportBelow_appendItems _ item "parameters" (h.item template item _) ?_ ?_
    · have hpath : QuietPath [.key "paths", .key template, .key "parameters"] :=
        .other rfl (by simp) (by simp [DocPath.lastKey?, DocPath.last?, Segment.key?])
      exact fun items => h.quiet ⟨_, .array items⟩ hpath
    · intro parameter hparameter position
      obtain ⟨name, _, rfl⟩ := List.mem_map.mp hparameter
      exact h.reportBelow_declaration template position name

/-- Defined tags add no reports. -/
theorem sublist_defineTags (tags : List String) (document : Node) :
    ((walkDocument (defineTags tags document)).flatMap report).Sublist
      ((walkDocument document).flatMap report) := by
  rw [flatMap_walkDocument, flatMap_walkDocument]
  refine sublist_reportBelow_appendItems [] document "tags" ?_ ?_ ?_
  · rw [h.quiet ⟨[], document.appendItems _ _⟩ .document]
    exact List.nil_sublist _
  · exact fun items => h.quiet ⟨[.key "tags"], .array items⟩ .tags
  · intro tag htag position
    obtain ⟨name, _, rfl⟩ := List.mem_map.mp htag
    exact h.reportBelow_tagNamed position name

end Unprovoked

end ApiLint.Rule
