import ApiLint.Proofs.Node.Outline
set_option autoImplicit false

/-!
# Structural equality along paths

Structural equality of well-formed trees is equality of what stands at each path.  So it
depends on the outlines alone, and there it is symmetric and transitive; it is not
reflexive, as a float that is no number equals nothing.
-/

namespace ApiLint

namespace Node

/-! ## One level -/

/-- Two nodes are equal, what is inside them apart. -/
def SameLabel (x y : Node) : Prop := x.label.same y.label = true

theorem SameLabel.symm {x y : Node} (h : SameLabel x y) : SameLabel y x := by
  unfold SameLabel at h ⊢
  cases x <;> cases y <;>
    simp_all [label, same, sameItems, sameFields, Binary64.sameValue_comm]

theorem sameValue_trans {x y z : Binary64} (hxy : x.sameValue y = true)
    (hyz : y.sameValue z = true) : x.sameValue z = true := by
  simp only [Binary64.sameValue, Bool.and_eq_true, Bool.or_eq_true, Bool.not_eq_true',
    beq_iff_eq] at hxy hyz ⊢
  obtain ⟨⟨hx, hy⟩, hxy⟩ := hxy
  obtain ⟨⟨_, hz⟩, hyz⟩ := hyz
  refine ⟨⟨hx, hz⟩, ?_⟩
  have hzero : ∀ v w : Binary64, v.bits = w.bits → v.isZero = w.isZero := by
    intro v w hbits
    rw [Binary64.isZero, Binary64.isZero, Binary64.magnitudeBits, Binary64.magnitudeBits, hbits]
  rcases hxy with ⟨hxzero, hyzero⟩ | hbits
  · rcases hyz with ⟨_, hzzero⟩ | hbits
    · exact .inl ⟨hxzero, hzzero⟩
    · exact .inl ⟨hxzero, (hzero y z hbits).symm.trans hyzero⟩
  · rcases hyz with ⟨hyzero, hzzero⟩ | hbits'
    · exact .inl ⟨(hzero x y hbits).trans hyzero, hzzero⟩
    · exact .inr (hbits.trans hbits')

theorem SameLabel.trans {x y z : Node} (hxy : SameLabel x y) (hyz : SameLabel y z) :
    SameLabel x z := by
  unfold SameLabel at hxy hyz ⊢
  cases x <;> cases y <;> simp [label, same, sameItems, sameFields] at hxy <;>
    cases z <;> simp_all [label, same, sameItems, sameFields]
  exact sameValue_trans hxy hyz

/-- Both options are empty, or hold trees that are structurally equal. -/
abbrev SameOption : Option Node → Option Node → Prop := Option.Rel fun a b => a.same b = true

theorem sameItems_iff (items others : List Node) :
    sameItems items others = true ↔
      ∀ position : Nat, SameOption items[position]? others[position]? := by
  induction items generalizing others with
  | nil =>
    cases others with
    | nil => simp [sameItems]
    | cons other rest =>
      refine iff_of_false (by simp [sameItems]) fun h => ?_
      simpa using h 0
  | cons item rest ih =>
    cases others with
    | nil =>
      refine iff_of_false (by simp [sameItems]) fun h => ?_
      simpa using h 0
    | cons other others =>
      rw [sameItems, Bool.and_eq_true, ih]
      constructor
      · rintro ⟨hfirst, hrest⟩ position
        cases position with
        | zero => exact .some hfirst
        | succ position => exact hrest position
      · intro h
        refine ⟨by simpa using h 0, fun position => h (position + 1)⟩

theorem sameFields_iff (fields others : Fields) :
    sameFields fields others = true ↔
      ∀ field ∈ fields, ∃ other, Fields.get? others field.1 = some other ∧
        field.2.same other = true := by
  induction fields with
  | nil => simp [sameFields]
  | cons field rest ih =>
    obtain ⟨key, value⟩ := field
    rw [sameFields, Bool.and_eq_true, ih, List.forall_mem_cons]
    refine and_congr_left fun _ => ?_
    cases Fields.get? others key <;> simp

/-- Objects with distinct keys are equal when each key leads to equal values: as many fields, with
a partner for each on one side, leave none over on the other. -/
theorem same_object_iff {fields others : Fields} (hfields : (Fields.keys fields).Nodup)
    (hothers : (Fields.keys others).Nodup) :
    (object fields).same (object others) = true ↔
      ∀ key, SameOption (Fields.get? fields key) (Fields.get? others key) := by
  rw [same, Bool.and_eq_true, beq_iff_eq, sameFields_iff]
  constructor
  · rintro ⟨hlength, hpartner⟩ key
    have hsubset : Fields.keys fields ⊆ Fields.keys others := by
      intro name hname
      obtain ⟨field, hfield, rfl⟩ := List.mem_map.mp hname
      obtain ⟨other, hother, _⟩ := hpartner field hfield
      exact List.mem_map.mpr ⟨_, Fields.mem_of_get?_eq_some hother, rfl⟩
    have hperm : (Fields.keys fields).Perm (Fields.keys others) := by
      refine (List.subperm_of_subset hfields hsubset).perm_of_length_le ?_
      simp [Fields.keys, hlength]
    cases hvalue : Fields.get? fields key with
    | some value =>
      obtain ⟨other, hother, hsame⟩ := hpartner _ (Fields.mem_of_get?_eq_some hvalue)
      rw [hother]
      exact .some hsame
    | none =>
      have hkey := (Fields.get?_eq_none_iff fields key).mp hvalue
      rw [(Fields.get?_eq_none_iff others key).mpr fun hmem => hkey (hperm.mem_iff.mpr hmem)]
      exact .none
  · intro h
    have hkeys : ∀ key, key ∈ Fields.keys fields ↔ key ∈ Fields.keys others := by
      intro key
      have hkey := h key
      rw [← not_iff_not, ← Fields.get?_eq_none_iff, ← Fields.get?_eq_none_iff]
      cases hfield : Fields.get? fields key <;> cases hother : Fields.get? others key <;>
        simp_all
    have hperm := (List.perm_ext_iff_of_nodup hfields hothers).mpr hkeys
    refine ⟨by simpa [Fields.keys] using hperm.length_eq, fun field hfield => ?_⟩
    have hvalue := h field.1
    rw [Fields.get?_eq_some_of_mem hfields hfield] at hvalue
    cases hother : Fields.get? others field.1 with
    | none => simp [hother] at hvalue
    | some other => exact ⟨other, rfl, by simpa [hother] using hvalue⟩

/-- A leaf has no steps. -/
theorem step?_leaf {node : Node} (h : node.fields? = none ∧ node.items? = none)
    (segment : Segment) : DocPath.step? node segment = none := by
  cases node <;> cases segment <;> simp_all [fields?, items?, DocPath.step?, get?]

/-- Well-formed trees are equal when their nodes are, what is inside them apart, and each step
leads to equal trees. -/
theorem same_iff_steps {a b : Node} (ha : a.WellFormed) (hb : b.WellFormed) :
    a.same b = true ↔ SameLabel a b ∧
      ∀ segment, SameOption (DocPath.step? a segment) (DocPath.step? b segment) := by
  cases a <;> cases b
  case object.object fields others =>
    have hfields : (Fields.keys fields).Nodup := ha.nodup_keys
    have hothers : (Fields.keys others).Nodup := hb.nodup_keys
    rw [same_object_iff hfields hothers]
    refine ⟨fun h => ⟨rfl, fun segment => ?_⟩, fun h key => h.2 (.key key)⟩
    cases segment with
    | key name => exact h name
    | index position => exact .none
  case array.array items others =>
    rw [same, sameItems_iff]
    refine ⟨fun h => ⟨rfl, fun segment => ?_⟩, fun h position => h.2 (.index position)⟩
    cases segment with
    | key name => exact .none
    | index position => exact h position
  all_goals simp [SameLabel, label, same, step?_leaf, fields?, items?]

/-- A key leads to the same text in well-formed trees that are equal. -/
theorem getString?_eq_of_same {a b : Node} (ha : a.WellFormed) (hb : b.WellFormed)
    (h : a.same b = true) (key : String) : a.getString? key = b.getString? key := by
  have hkey : SameOption (a.get? key) (b.get? key) := ((same_iff_steps ha hb).mp h).2 (.key key)
  rw [getString?, getString?]
  generalize a.get? key = x at hkey ⊢
  generalize b.get? key = y at hkey ⊢
  cases hkey with
  | none => rfl
  | @some value other hsame => cases value <;> cases other <;> simp_all [same, string?]

/-! ## All paths -/

/-- What stands at a path is equal in both trees. -/
def SameAt (a b : Node) (path : DocPath) : Prop :=
  Option.Rel SameLabel (a.outline path) (b.outline path)

theorem label_label (node : Node) : node.label.label = node.label := by
  cases node <;> rfl

theorem sameAt_nil_iff (a b : Node) : SameAt a b [] ↔ SameLabel a b := by
  simp [SameAt, outline, SameLabel, label_label]

/-- Behind a step everything is equal when the step leads nowhere in both trees, or to trees in
which everything is. -/
theorem forall_sameAt_cons_iff (a b : Node) (segment : Segment) :
    (∀ rest, SameAt a b (segment :: rest)) ↔
      Option.Rel (fun x y => ∀ rest, SameAt x y rest) (DocPath.step? a segment)
        (DocPath.step? b segment) := by
  simp only [SameAt, outline_cons]
  cases DocPath.step? a segment with
  | none =>
    cases DocPath.step? b segment with
    | none => simp
    | some y => exact iff_of_false (fun h => by simpa [outline] using h []) (by simp)
  | some x =>
    cases DocPath.step? b segment with
    | none => exact iff_of_false (fun h => by simpa [outline] using h []) (by simp)
    | some y => simp

theorem forall_sameAt_iff (a b : Node) :
    (∀ path, SameAt a b path) ↔ SameLabel a b ∧
      ∀ segment, Option.Rel (fun x y => ∀ rest, SameAt x y rest) (DocPath.step? a segment)
        (DocPath.step? b segment) := by
  simp only [← forall_sameAt_cons_iff, ← sameAt_nil_iff]
  constructor
  · intro h
    exact ⟨h [], fun segment rest => h (segment :: rest)⟩
  · rintro ⟨hnil, hcons⟩ path
    cases path with
    | nil => exact hnil
    | cons segment rest => exact hcons segment rest

/-- Well-formed trees are equal when what stands at each path is. -/
theorem same_iff_paths {a b : Node} (ha : a.WellFormed) (hb : b.WellFormed) :
    a.same b = true ↔ ∀ path, SameAt a b path := by
  induction a using induction_steps generalizing b with
  | step a ih =>
    rw [same_iff_steps ha hb, forall_sameAt_iff]
    refine and_congr_right fun _ => forall_congr' fun segment => ?_
    cases hx : DocPath.step? a segment with
    | none => cases DocPath.step? b segment <;> simp
    | some x =>
      cases hy : DocPath.step? b segment with
      | none => simp
      | some y =>
        have hxmem := ha.mem_steps_iff.mpr hx
        have hymem := hb.mem_steps_iff.mpr hy
        simpa using ih _ hxmem (ha.of_mem_steps hxmem) (hb.of_mem_steps hymem)

/-! ## Equality of outlines -/

/-- What stands at each path is equal in trees with these outlines. -/
def SameOutline (o p : DocPath → Option Node) : Prop :=
  ∀ path, Option.Rel SameLabel (o path) (p path)

theorem SameOutline.symm {o p : DocPath → Option Node} (h : SameOutline o p) :
    SameOutline p o := by
  intro path
  have hpath := h path
  generalize o path = x at hpath ⊢
  generalize p path = y at hpath ⊢
  cases hpath with
  | some hlabel => exact .some hlabel.symm
  | none => exact .none

theorem SameOutline.trans {o p q : DocPath → Option Node} (hop : SameOutline o p)
    (hpq : SameOutline p q) : SameOutline o q := by
  intro path
  have hfirst := hop path
  have hsecond := hpq path
  generalize o path = x at hfirst ⊢
  generalize p path = y at hfirst hsecond
  generalize q path = z at hsecond ⊢
  cases hfirst with
  | some hxy =>
    cases hsecond with
    | some hyz => exact .some (hxy.trans hyz)
  | none => exact hsecond

/-- Structural equality of well-formed trees depends on their outlines alone. -/
theorem same_iff_outlines {a b : Node} (ha : a.WellFormed) (hb : b.WellFormed) :
    a.same b = true ↔ SameOutline a.outline b.outline :=
  same_iff_paths ha hb

end Node

end ApiLint
