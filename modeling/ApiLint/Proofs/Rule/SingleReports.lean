import ApiLint.Proofs.Rule.Reports
set_option autoImplicit false

/-!
# Reports that are made once

A rule is described completely by the paths that it reports: at each of these paths it makes
exactly one report, and it makes no other.  The paths of a document's visits and schemas, and
those of the fields and elements of a node, are listed without repetition.  Choosing from such
a list keeps it free of repetitions; and what is reported piece by piece is reported once when
no path belongs to two pieces.
-/

namespace ApiLint

/-! ## Listings without repetition -/

/-- Exactly the paths of a kind are listed, each of them once. -/
structure ListsOnce (paths : List DocPath) (places : DocPath → Prop) : Prop where
  mem_iff : ∀ path, path ∈ paths ↔ places path
  nodup : paths.Nodup

namespace ListsOnce

variable {α β : Type} {paths : List DocPath} {places otherPlaces : DocPath → Prop}

/-- The paths may be said in another way. -/
theorem congr (h : ListsOnce paths places) (hiff : ∀ path, places path ↔ otherPlaces path) :
    ListsOnce paths otherPlaces :=
  ⟨fun path => (h.mem_iff path).trans (hiff path), h.nodup⟩

/-- What is chosen from a list that has no path twice. -/
theorem chosen {xs : List α} {pathOf : α → DocPath} (hnodup : (xs.map pathOf).Nodup)
    (p : α → Bool) :
    ListsOnce ((xs.filter p).map pathOf) fun path => ∃ x ∈ xs, p x = true ∧ pathOf x = path where
  mem_iff path := by simp only [List.mem_map, List.mem_filter, and_assoc]
  nodup := hnodup.sublist (List.filter_sublist.map pathOf)

/-- A listing that is made under a condition only. -/
theorem ite {c : Prop} [Decidable c] (h : ListsOnce paths places) :
    ListsOnce (if c then paths else []) fun path => c ∧ places path where
  mem_iff path := by
    split
    · next hc => simp [hc, h.mem_iff]
    · next hc => simp [hc]
  nodup := by
    split
    · exact h.nodup
    · exact List.nodup_nil

/-- Listings one after the other, made for different keys, when a path tells its key. -/
theorem flatMap {xs : List α} {key : α → β} {piece : α → List DocPath}
    {placesOf : α → DocPath → Prop} (hkeys : (xs.map key).Nodup)
    (hpiece : ∀ x ∈ xs, ListsOnce (piece x) (placesOf x))
    (hkey : ∀ x ∈ xs, ∀ y ∈ xs, ∀ path, placesOf x path → placesOf y path → key x = key y) :
    ListsOnce (xs.flatMap piece) fun path => ∃ x ∈ xs, placesOf x path where
  mem_iff path := by
    rw [List.mem_flatMap]
    exact exists_congr fun x => and_congr_right fun hx => (hpiece x hx).mem_iff path
  nodup := by
    rw [List.nodup_flatMap]
    refine ⟨fun x hx => (hpiece x hx).nodup, ?_⟩
    apply (List.pairwise_map.mp hkeys).imp_of_mem
    intro x y hx hy hne path hpath hother
    have hplace := ((hpiece x hx).mem_iff path).mp hpath
    have hotherPlace := ((hpiece y hy).mem_iff path).mp hother
    exact hne (hkey x hx y hy path hplace hotherPlace)

end ListsOnce

/-! ## Violations -/

/-- Each path of a kind has exactly one violation, and no other path has any. -/
structure ReportsOnce (violations : List Violation) (places : DocPath → Prop) : Prop where
  once : ∀ path, (∃ v, violations.filter (·.path = path) = [v]) ↔ places path
  only : ∀ v ∈ violations, places v.path

/-- A path has no violation exactly when it is of no such kind. -/
theorem ReportsOnce.silent_iff {violations : List Violation} {places : DocPath → Prop}
    (h : ReportsOnce violations places) (path : DocPath) :
    (∀ v ∈ violations, v.path ≠ path) ↔ ¬ places path := by
  constructor
  · intro hnone hplace
    obtain ⟨v, hv⟩ := (h.once path).mpr hplace
    obtain ⟨hmem, hpath⟩ := List.mem_filter.mp (hv ▸ List.mem_cons_self)
    exact hnone v hmem (decide_eq_true_iff.mp hpath)
  · intro hplace v hv hpath
    exact hplace (hpath ▸ h.only v hv)

/-- Violations whose paths are listed once. -/
theorem ListsOnce.reportsOnce {violations : List Violation} {places : DocPath → Prop}
    (h : ListsOnce (violations.map Violation.path) places) : ReportsOnce violations places where
  once path := by
    -- a path has as many violations as it occurs among their paths
    rw [← h.mem_iff, ← List.length_eq_one_iff]
    have hcount : (violations.filter (·.path = path)).length =
        (violations.map Violation.path).count path := by
      rw [List.count, List.countP_map, List.countP_eq_length_filter]
      simp only [Function.comp_def, beq_eq_decide]
    rw [hcount]
    constructor
    · intro hone
      exact List.count_pos_iff.mp (hone ▸ Nat.one_pos)
    · exact List.count_eq_one_of_mem h.nodup
  only v hv := (h.mem_iff v.path).mp (List.mem_map_of_mem hv)

namespace Rule

/-- The violations of a rule that grades all its findings alike stand where its findings do. -/
theorem reportsOnce_check {rule : Rule} {id : RuleId} (hid : rule.id = id)
    (hne : id ≠ .pathParameters) (block : RuleBlock) {document : Node} {places : DocPath → Prop}
    (h : ListsOnce ((findingsOf id document).map Finding.path) places) :
    ReportsOnce (rule.check block document) places := by
  subst hid
  have hpaths : (rule.check block document).map Violation.path =
      (findingsOf rule.id document).map Finding.path := by
    rw [check_of_ne hne, List.map_map]
    rfl
  exact ListsOnce.reportsOnce (hpaths ▸ h)

/-! ## Reports visit by visit and schema by schema -/

section WellFormed

variable {document : Node} (hwf : document.WellFormed)
include hwf

/-- A rule that reports visit by visit, when a path tells the visit it is reported at. -/
theorem listsOnce_visits {report : Visit → List Finding} {placesOf : Located → DocPath → Prop}
    (hreport : ∀ place : Located, place.StandsIn document →
      ListsOnce ((report place.visit).map Finding.path) (placesOf place))
    (hplace : ∀ (place other : Located) (path : DocPath), placesOf place path →
      placesOf other path → place.path = other.path) :
    ListsOnce (((walkDocument document).flatMap report).map Finding.path) fun path =>
      ∃ place : Located, place.StandsIn document ∧ placesOf place path := by
  have hpiece : ∀ v ∈ walkDocument document,
      ListsOnce ((report v).map Finding.path) (placesOf ⟨v.path, v.node⟩) := by
    intro v hv
    obtain ⟨place, hstands, rfl⟩ := (mem_walkDocument_iff hwf v).mp hv
    exact hreport place hstands
  rw [List.map_flatMap]
  refine (ListsOnce.flatMap (nodup_walkDocument hwf) hpiece
    fun v _ w _ path => hplace ⟨v.path, v.node⟩ ⟨w.path, w.node⟩ path).congr fun path => ?_
  constructor
  · rintro ⟨v, hv, hpath⟩
    obtain ⟨place, hstands, rfl⟩ := (mem_walkDocument_iff hwf v).mp hv
    exact ⟨place, hstands, hpath⟩
  · rintro ⟨place, hstands, hpath⟩
    exact ⟨place.visit, (mem_walkDocument_iff hwf _).mpr ⟨place, hstands, rfl⟩, hpath⟩

/-- A rule that reports schema by schema, when a path tells the schema it is reported for. -/
theorem listsOnce_schemas {report : Located → List Finding} {placesOf : Located → DocPath → Prop}
    (hreport : ∀ schema : Located, schema.StandsIn document →
      ListsOnce ((report schema).map Finding.path) (placesOf schema))
    (hplace : ∀ (schema other : Located) (path : DocPath), placesOf schema path →
      placesOf other path → schema.path = other.path) :
    ListsOnce (((Schema.all document).flatMap report).map Finding.path) fun path =>
      ∃ schema ∈ Schema.all document, placesOf schema path := by
  rw [List.map_flatMap]
  apply ListsOnce.flatMap (Schema.nodup_all hwf)
  · intro schema hschema
    exact hreport schema (Schema.standsIn_of_mem_all hwf hschema)
  · intro schema _ other _ path
    exact hplace schema other path

end WellFormed

end Rule

end ApiLint
