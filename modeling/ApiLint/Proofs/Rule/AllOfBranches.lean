import ApiLint.Proofs.Rule.RequiredProperties
import ApiLint.Proofs.Schema.PathEnds
import Mathlib.Data.List.TakeWhile
set_option autoImplicit false

/-!
# Which schemas are taken for branches

The rule on required properties leaves out the branches of `allOf`, which are judged with
the schema that they are branches of.  It tells them by the dotted form of the path, in
which the points of a key are not told from those between steps.  So every branch is left
out, and of the other schemas exactly those whose own name, behind a point, ends like the
path of a branch; all others are judged, and what is missing is reported.
-/

namespace ApiLint

/-! ## Dotted forms -/

/-- A text that is put together before and behind a separator, in two ways: where the second
one has no separator behind, the first one has its last separator there too or further on. -/
theorem eq_or_exists_of_notMem_last {α : Type} {separator : α} {front back before last : List α}
    (h : front ++ separator :: back = before ++ separator :: last) (hlast : separator ∉ last) :
    front = before ∧ back = last ∨
      ∃ middle, back = middle ++ separator :: last ∧ before = front ++ separator :: middle := by
  rcases eq_or_exists_of_append_cons_eq h with
    hsame | ⟨middle, hbefore, hback⟩ | ⟨middle, _, rfl⟩
  · exact .inl hsame
  · exact .inr ⟨middle, hback, hbefore⟩
  · exact absurd (List.mem_append_right middle List.mem_cons_self) hlast

namespace Text

/-- Only decimal digits are written for a number. -/
theorem isDecimalDigit_of_mem_toString {n : Nat} {c : Char} (h : c ∈ (toString n).toList) :
    isDecimalDigit c = true := by
  have hdigit := Nat.isDigit_of_mem_toDigits (by decide) (by decide) (Nat.toList_repr ▸ h)
  have hascii : c.toNat < 128 := by
    have hrange := hdigit
    simp only [Char.isDigit, Bool.and_eq_true, decide_eq_true_eq] at hrange
    have hle : c.toNat ≤ 57 := hrange.2
    omega
  rw [isDecimalDigit, if_pos hascii, hdigit]

theorem toList_toString_ne_nil (n : Nat) : (toString n).toList ≠ [] := by
  show n.repr.toList ≠ []
  rw [Nat.toList_repr]
  exact Nat.toDigits_ne_nil

end Text

namespace DocPath

/-- A step behind another one is written behind a point. -/
theorem toList_dotted_child {path : DocPath} (h : path ≠ []) (segment : Segment) :
    (path.child segment).dotted.toList = path.dotted.toList ++ '.' :: segment.text.toList := by
  have hpoint : ".".toList = ['.'] := rfl
  simp only [dotted, child, String.toList_intercalate, List.map_append, List.map_cons,
    List.map_nil, hpoint]
  induction path with
  | nil => exact absurd rfl h
  | cons first rest ih =>
    cases rest with
    | nil => simp
    | cons second rest =>
      have hrest := ih (List.cons_ne_nil _ _)
      simp only [List.map_cons, List.cons_append, List.intercalate_cons_cons] at hrest ⊢
      rw [hrest]
      simp

/-- A path is written with its last step at the end. -/
theorem text_suffix_dotted_child (path : DocPath) (segment : Segment) :
    segment.text.toList <:+ (path.child segment).dotted.toList := by
  by_cases h : path = []
  · subst h
    simp [dotted, child]
  · rw [toList_dotted_child h]
    exact (List.suffix_cons _ _).trans (List.suffix_append _ _)

end DocPath

namespace Rule

/-- The text ends in `.allOf.` and decimal digits. -/
def LooksLikeBranch (text : List Char) : Prop :=
  ∃ before digits : List Char, digits ≠ [] ∧ (∀ c ∈ digits, Text.isDecimalDigit c = true) ∧
    text = before ++ ".allOf.".toList ++ digits

/-- The rule leaves out a schema when the dotted form of its path looks like that of a branch. -/
theorem isAllOfBranch_iff (path : DocPath) :
    isAllOfBranch path = true ↔ LooksLikeBranch path.dotted.toList := by
  unfold isAllOfBranch
  generalize path.dotted.toList = text
  rw [Bool.and_eq_true, Bool.not_eq_true', List.isEmpty_eq_false_iff, List.isPrefixOf_iff_prefix]
  constructor
  · rintro ⟨hne, rest, hrest⟩
    have hdigits : ∀ c ∈ (text.reverse.takeWhile Text.isDecimalDigit).reverse,
        Text.isDecimalDigit c = true :=
      fun c hc => List.mem_takeWhile_imp (List.mem_reverse.mp hc)
    refine ⟨rest.reverse, _, List.reverse_ne_nil_iff.mpr hne, hdigits, ?_⟩
    calc text = (text.reverse.takeWhile Text.isDecimalDigit ++
          text.reverse.dropWhile Text.isDecimalDigit).reverse := by
          rw [List.takeWhile_append_dropWhile, List.reverse_reverse]
      _ = rest.reverse ++ ".allOf.".toList ++
          (text.reverse.takeWhile Text.isDecimalDigit).reverse := by
          rw [← hrest, List.reverse_append, List.reverse_append, List.reverse_reverse]
  · rintro ⟨before, digits, hne, hdigits, rfl⟩
    have hpoint : ".allOf.".toList.reverse ++ before.reverse =
        '.' :: ("fOlla.".toList ++ before.reverse) := rfl
    have hreversed : ∀ c ∈ digits.reverse, Text.isDecimalDigit c = true :=
      fun c hc => hdigits c (List.mem_reverse.mp hc)
    rw [List.reverse_append, List.reverse_append, List.takeWhile_append_of_pos hreversed,
      List.dropWhile_append_of_pos hreversed]
    refine ⟨by simp [hne], before.reverse, ?_⟩
    rw [hpoint, List.dropWhile_cons_of_neg (by decide)]

/-- Behind the last point of a text stands what is behind it, or the digits of a position. -/
theorem looksLikeBranch_append_iff (front name : List Char) :
    LooksLikeBranch (front ++ '.' :: name) ↔
      LooksLikeBranch ('.' :: name) ∨
        (name ≠ [] ∧ ∀ c ∈ name, Text.isDecimalDigit c = true) ∧ ".allOf".toList <:+ front := by
  have hpoint : Text.isDecimalDigit '.' = false := by decide
  constructor
  · rintro ⟨before, digits, hne, hdigits, htext⟩
    have hdigitsPoint : '.' ∉ digits := fun hmem => by simp [hdigits _ hmem] at hpoint
    have hlast : front ++ '.' :: name = (before ++ ".allOf".toList) ++ '.' :: digits := by
      rw [htext]
      simp
    rcases eq_or_exists_of_notMem_last hlast hdigitsPoint with
      ⟨hfront, hname⟩ | ⟨middle, hname, hbefore⟩
    · exact .inr ⟨hname ▸ ⟨hne, hdigits⟩, before, hfront.symm⟩
    · -- the name has the point before the digits, so it has the keyword as well
      have hkeyword : front ++ '.' :: middle = before ++ '.' :: "allOf".toList := by
        rw [← hbefore]
        rfl
      left
      rcases eq_or_exists_of_notMem_last hkeyword (by decide) with
        ⟨_, hmiddle⟩ | ⟨above, hmiddle, _⟩
      · exact ⟨[], digits, hne, hdigits, by simp [hname, hmiddle]⟩
      · exact ⟨'.' :: above, digits, hne, hdigits, by simp [hname, hmiddle]⟩
  · rintro (⟨before, digits, hne, hdigits, hname⟩ | ⟨⟨hne, hdigits⟩, before, hfront⟩)
    · exact ⟨front ++ before, digits, hne, hdigits, by rw [hname]; simp⟩
    · exact ⟨before, name, hne, hdigits, by rw [← hfront]; simp⟩

/-! ## Paths of schemas -/

/-- The last two steps of the path are the key `allOf` and a position. -/
def EndsInBranch (path : DocPath) : Prop :=
  ∃ (above : DocPath) (position : Nat), path = (above.child (.key "allOf")).child (.index position)

/-- The name, behind a point, ends like the path of a branch. -/
def ImitatesBranch (name : String) : Prop := LooksLikeBranch ('.' :: name.toList)

theorem not_endsInBranch_key (path : DocPath) (name : String) :
    ¬ EndsInBranch (path.child (.key name)) := by
  rintro ⟨above, position, heq⟩
  have hlast := List.append_inj_right' heq rfl
  simp at hlast

theorem lastKey?_child (path : DocPath) (segment : Segment) :
    (path.child segment).lastKey? = segment.key? := by
  simp [DocPath.lastKey?, DocPath.last?, DocPath.child]

/-- Two ends of one text agree as far as the shorter one goes. -/
theorem not_suffix_of_suffix {text keyword : List Char} (h : keyword <:+ text)
    (hkeyword : ¬ (".allOf".toList <:+ keyword ∨ keyword <:+ ".allOf".toList)) :
    ¬ ".allOf".toList <:+ text :=
  fun hallOf => hkeyword (List.suffix_or_suffix_of_suffix hallOf h)

/-- A schema at a key is left out when the key imitates a branch, unless it is a number below
something that ends in `.allOf`. -/
theorem isAllOfBranch_key_iff {path : DocPath} (hpath : path ≠ []) {name : String}
    (h : ¬ ((name.toList ≠ [] ∧ ∀ c ∈ name.toList, Text.isDecimalDigit c = true) ∧
      ".allOf".toList <:+ path.dotted.toList)) :
    isAllOfBranch (path.child (.key name)) = true ↔
      EndsInBranch (path.child (.key name)) ∨
        ∃ last, (path.child (.key name)).lastKey? = some last ∧ ImitatesBranch last := by
  rw [isAllOfBranch_iff, DocPath.toList_dotted_child hpath]
  show LooksLikeBranch (_ ++ '.' :: name.toList) ↔ _
  rw [looksLikeBranch_append_iff, or_iff_left h, lastKey?_child]
  simp [Segment.key?, not_endsInBranch_key, ImitatesBranch]

/-- Among the paths of schemas those are left out that end in a branch, or in a name that imitates
one. -/
theorem isAllOfBranch_iff_of_schemaEnd {path : DocPath} (h : Schema.SchemaEnd path) :
    isAllOfBranch path = true ↔
      EndsInBranch path ∨ ∃ last, path.lastKey? = some last ∧ ImitatesBranch last := by
  cases h with
  | @named above keyword name hkeyword =>
    have hnaming : ∀ keyword ∈ Schema.namingKeywords, ¬ (".allOf".toList <:+ keyword.toList ∨
        keyword.toList <:+ ".allOf".toList) := by decide
    rw [DocPath.keys_cons, DocPath.keys_cons, DocPath.keys_nil]
    refine isAllOfBranch_key_iff (DocPath.child_ne_nil _ _) fun hnumber => ?_
    exact not_suffix_of_suffix (DocPath.text_suffix_dotted_child above (.key keyword))
      (hnaming keyword hkeyword) hnumber.2
  | @value above keyword habove hkeyword =>
    have hvalue : ∀ keyword ∈ "schema" :: Schema.valueKeywords,
        keyword.toList.all Text.isDecimalDigit = false := by decide
    refine isAllOfBranch_key_iff habove fun hnumber => ?_
    exact Bool.eq_false_iff.mp (hvalue keyword hkeyword) (List.all_eq_true.mpr hnumber.1.2)
  | @branch above keyword position habove hkeyword =>
    have hdigits : ∀ c ∈ (toString position).toList, Text.isDecimalDigit c = true :=
      fun c hc => Text.isDecimalDigit_of_mem_toString hc
    have hletter : Text.isDecimalDigit 'a' = false := by decide
    have hposition : ¬ LooksLikeBranch ('.' :: (toString position).toList) := by
      rintro ⟨before, digits, _, _, htext⟩
      have hmem : 'a' ∈ '.' :: (toString position).toList := by
        rw [htext]
        simp
      have hposition := hdigits 'a' (by simpa using hmem)
      simp [hposition] at hletter
    have hbranch : ∀ keyword ∈ Schema.branchKeywords, keyword = "allOf" ∨
        ¬ (".allOf".toList <:+ '.' :: keyword.toList ∨
          '.' :: keyword.toList <:+ ".allOf".toList) := by decide
    have hfront := DocPath.toList_dotted_child habove (.key keyword)
    rw [isAllOfBranch_iff, DocPath.toList_dotted_child (DocPath.child_ne_nil _ _)]
    show LooksLikeBranch (_ ++ '.' :: (toString position).toList) ↔ _
    rw [looksLikeBranch_append_iff, or_iff_right hposition,
      and_iff_right ⟨Text.toList_toString_ne_nil position, hdigits⟩, hfront, lastKey?_child]
    constructor
    · intro hallOf
      rcases hbranch keyword hkeyword with rfl | hother
      · exact .inl ⟨above, position, rfl⟩
      · exact absurd hallOf (not_suffix_of_suffix (List.suffix_append _ _) hother)
    · rintro (⟨other, place, heq⟩ | ⟨last, hlast, _⟩)
      · obtain ⟨hkeys, _⟩ := List.append_inj' heq rfl
        obtain ⟨_, hkey⟩ := List.append_inj' hkeys rfl
        obtain rfl : keyword = "allOf" := by simpa using hkey
        exact List.suffix_append _ _
      · cases hlast

/-! ## What is reported at a schema -/

open Schema (composesProperty requiredOf)

/-- The messages on the names that the merged view of a schema requires and does not define. -/
def undefinedMessages (schema : Node) : List String :=
  ((requiredOf (Schema.mergeAllOf schema)).filter fun name =>
    !composesProperty (Schema.mergeAllOf schema) name).map
      ("Required property must be defined in the schema: " ++ ·)

/-- At a schema that is not left out, all undefined names are reported, and nothing else. -/
theorem messages_undefinedRequired (schema : Located) :
    (undefinedRequired schema).map Finding.message =
      if isAllOfBranch schema.path then [] else undefinedMessages schema.node := by
  unfold undefinedRequired undefinedMessages
  split
  · rfl
  · rw [List.map_map]
    rfl

/-- At the path of a schema that is a branch, or whose name imitates one, nothing is reported; at
that of every other schema, all names that its merged view requires and does not define. -/
theorem messages_at_schema {document : Node} (hwf : document.WellFormed) {rule : Rule}
    (hid : rule.id = .requiredPropertyMissing) (block : RuleBlock) {schema : Located}
    (h : schema ∈ Schema.all document) :
    (EndsInBranch schema.path → ∀ v ∈ rule.check block document, v.path ≠ schema.path) ∧
      (∀ name, schema.path.lastKey? = some name → ImitatesBranch name →
        ∀ v ∈ rule.check block document, v.path ≠ schema.path) ∧
      (¬ EndsInBranch schema.path →
        (∀ name, schema.path.lastKey? = some name → ¬ ImitatesBranch name) →
          ((rule.check block document).filter (·.path = schema.path)).map Violation.message =
            undefinedMessages schema.node) := by
  have hmessages : ((rule.check block document).filter (·.path = schema.path)).map
      Violation.message =
        if isAllOfBranch schema.path then [] else undefinedMessages schema.node := by
    rw [check_of_ne (by rw [hid]; decide), hid, List.filter_map, List.map_map,
      ← messages_undefinedRequired, ← filter_flatMap_of_mem (Schema.nodup_all hwf)
        path_of_mem_undefinedRequired h]
    rfl
  have hbranch := isAllOfBranch_iff_of_schemaEnd (Schema.schemaEnd_of_mem_all hwf h)
  have hsilent : isAllOfBranch schema.path = true →
      ∀ v ∈ rule.check block document, v.path ≠ schema.path := by
    intro hskip v hv hpath
    rw [if_pos hskip, List.map_eq_nil_iff, List.filter_eq_nil_iff] at hmessages
    exact hmessages v hv (decide_eq_true hpath)
  refine ⟨fun hends => hsilent (hbranch.mpr (.inl hends)),
    fun name hname himitates => hsilent (hbranch.mpr (.inr ⟨name, hname, himitates⟩)), ?_⟩
  intro hends himitates
  have hjudged : ¬ isAllOfBranch schema.path = true := by
    rw [hbranch]
    rintro (hbranch | ⟨name, hname, himitation⟩)
    · exact hends hbranch
    · exact himitates name hname himitation
  rw [hmessages, if_neg hjudged]

/-- A document with a schema that has one branch, and a schema that is called like the path of that
branch; both require a property that they do not define. -/
def dottedDocument : Node :=
  .object [("components", .object [("schemas", .object [
    ("Pet", .object [("allOf", .array [.object [("required", .array [.string "id"])]])]),
    ("Pet.allOf.0", .object [("required", .array [.string "name"])])])])]

/-- The schema with the branch, the branch, and the schema that is called like it. -/
theorem all_dottedDocument :
    Schema.all dottedDocument =
      [⟨DocPath.keys [] ["components", "schemas", "Pet"],
          .object [("allOf", .array [.object [("required", .array [.string "id"])]])]⟩,
        ⟨((DocPath.keys [] ["components", "schemas", "Pet"]).child (.key "allOf")).child (.index 0),
          .object [("required", .array [.string "id"])]⟩,
        ⟨DocPath.keys [] ["components", "schemas", "Pet.allOf.0"],
          .object [("required", .array [.string "name"])]⟩] := rfl

/-- The property of the branch is reported at the schema and not at the branch; that of the other
schema is not reported. -/
theorem messages_dottedDocument :
    (((standard .requiredPropertyMissing).check {} dottedDocument).filter
        (·.path = DocPath.keys [] ["components", "schemas", "Pet"])).map Violation.message =
      ["Required property must be defined in the schema: " ++ "id"] ∧
    (∀ v ∈ (standard .requiredPropertyMissing).check {} dottedDocument, v.path ≠
      ((DocPath.keys [] ["components", "schemas", "Pet"]).child (.key "allOf")).child (.index 0)) ∧
    ∀ v ∈ (standard .requiredPropertyMissing).check {} dottedDocument, v.path ≠
      DocPath.keys [] ["components", "schemas", "Pet.allOf.0"] := by
  have hwf : dottedDocument.WellFormed := by
    simp [dottedDocument, Node.WellFormed, Node.WellFormedFields, Node.WellFormedItems]
  have hid : (standard .requiredPropertyMissing).id = .requiredPropertyMissing := rfl
  have hreports := fun (schema : Located) (h : schema ∈ Schema.all dottedDocument) =>
    messages_at_schema hwf hid {} h
  rw [all_dottedDocument] at hreports
  have hpet : ¬ ImitatesBranch "Pet" := by
    rintro ⟨before, digits, _, _, htext⟩
    have hletter : 'O' ∈ '.' :: "Pet".toList := by
      rw [htext]
      simp
    exact absurd hletter (by decide)
  refine ⟨?_, ?_, ?_⟩
  · refine ((hreports _ List.mem_cons_self).2.2
      (not_endsInBranch_key (DocPath.keys [] ["components", "schemas"]) "Pet") ?_).trans ?_
    · rintro name hname
      obtain rfl : "Pet" = name := Option.some.inj hname
      exact hpet
    · decide +kernel
  · exact (hreports _ (List.mem_cons_of_mem _ List.mem_cons_self)).1 ⟨_, _, rfl⟩
  · refine (hreports _ (List.mem_cons_of_mem _ (List.mem_cons_of_mem _ List.mem_cons_self))).2.1
      "Pet.allOf.0" rfl ?_
    have hdigit : Text.isDecimalDigit '0' = true := by decide
    exact ⟨".Pet".toList, ['0'], List.cons_ne_nil _ _, List.forall_mem_singleton.mpr hdigit, rfl⟩

/-- Not every undefined name of a schema that is no branch is reported. -/
theorem exists_unreported_required :
    ¬ ∀ schema ∈ Schema.all dottedDocument, ¬ EndsInBranch schema.path →
      ∀ name ∈ requiredOf (Schema.mergeAllOf schema.node),
        composesProperty (Schema.mergeAllOf schema.node) name = false →
          ∃ v ∈ (standard .requiredPropertyMissing).check {} dottedDocument,
            v.path = schema.path ∧
              v.message = "Required property must be defined in the schema: " ++ name := by
  rw [all_dottedDocument]
  intro h
  have hcheck : ((standard .requiredPropertyMissing).check {} dottedDocument).map Violation.path =
      [DocPath.keys [] ["components", "schemas", "Pet"]] := by
    decide +kernel
  obtain ⟨v, hv, hpath, _⟩ := h _
    (List.mem_cons_of_mem _ (List.mem_cons_of_mem _ List.mem_cons_self))
    (not_endsInBranch_key (DocPath.keys [] ["components", "schemas"]) "Pet.allOf.0")
    "name" (by decide) (by decide +kernel)
  have hmem : v.path ∈ [DocPath.keys [] ["components", "schemas", "Pet"]] :=
    hcheck ▸ List.mem_map_of_mem hv
  rw [hpath] at hmem
  exact absurd hmem (by decide)

end Rule

end ApiLint
