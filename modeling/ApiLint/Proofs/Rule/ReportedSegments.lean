import ApiLint.Proofs.OpenApi.SnakeCase
import ApiLint.Proofs.Rule.ExtensionEntries
import ApiLint.Proofs.Text.Pieces
set_option autoImplicit false

/-!
# Which paths are reported for their segments

The rule on path segments splits every key of the map of paths at its slashes and reports the key
for each piece that is neither empty, nor a placeholder, nor in lower snake case.  So it leaves a
key alone exactly when all the pieces are one of these.
-/

namespace ApiLint

/-- A placeholder is any text in braces, which may be empty. -/
theorem Naming.isTemplateSegment_iff (segment : String) :
    isTemplateSegment segment = true ↔ ∃ name, segment = "\x7b" ++ name ++ "\x7d" := by
  simp only [isTemplateSegment, Bool.and_eq_true, decide_eq_true_eq]
  constructor
  · rintro ⟨⟨hlength, hopen⟩, hclose⟩
    obtain ⟨front, hfront⟩ := List.getLast?_eq_some_iff.mp hclose
    cases front with
    | nil => simp [hfront] at hlength
    | cons c name =>
      rw [hfront, List.cons_append, List.head?_cons, Option.some_inj] at hopen
      refine ⟨String.ofList name, String.toList_inj.mp ?_⟩
      rw [hfront, hopen]
      simp
  · rintro ⟨name, rfl⟩
    have hchars : ("\x7b" ++ name ++ "\x7d").toList = ('\x7b' :: name.toList) ++ ['\x7d'] := by
      simp
    rw [hchars]
    exact ⟨⟨by simp, rfl⟩, List.getLast?_concat⟩

namespace Rule

/-! ## Segments -/

/-- A segment that keeps to the convention. -/
inductive IsProperSegment (segment : String) : Prop
  | empty (h : segment = "")
  | placeholder (h : ∃ name, segment = "\x7b" ++ name ++ "\x7d")
  | word (h : Naming.IsSnakeWord segment.toList)

theorem isMisnamedSegment_iff (segment : String) :
    isMisnamedSegment segment = true ↔ ¬ IsProperSegment segment := by
  have hproper : IsProperSegment segment ↔ segment.isEmpty = true ∨
      Naming.isTemplateSegment segment = true ∨ Naming.isSnakeCase segment = true := by
    rw [String.isEmpty_iff, Naming.isTemplateSegment_iff, Naming.isSnakeCase_iff_isSnakeWord]
    constructor
    · rintro (h | h | h)
      · exact .inl h
      · exact .inr (.inl h)
      · exact .inr (.inr h)
    · rintro (h | h | h)
      · exact .empty h
      · exact .placeholder h
      · exact .word h
  rw [hproper, isMisnamedSegment]
  simp [and_assoc]

/-! ## Reports -/

variable {rule : Rule} {document : Node} {paths : Fields} {key : String}

/-- A key that is no extension is reported for each misnamed piece between its slashes. -/
theorem exists_report_at_key_iff (hid : rule.id = .pathSegmentCase) (block : RuleBlock)
    (hpaths : document.getFields? "paths" = some paths) (hkey : key ∈ Fields.keys paths)
    (hextension : isExtensionKey key = false) :
    (∃ v ∈ rule.check block document, v.path = entryPath key) ↔
      ∃ segment ∈ Text.split '/' key, isMisnamedSegment segment = true := by
  have hne : rule.id ≠ .pathParameters := by
    rw [hid]
    decide
  have hfindings : findingsOf rule.id document = pathSegmentCase document := by rw [hid, findingsOf]
  rw [check_of_ne hne, hfindings]
  constructor
  · rintro ⟨v, hv, hpath⟩
    obtain ⟨finding, hfinding, rfl⟩ := List.mem_map.mp hv
    obtain ⟨⟨other, item⟩, _, _, segment, hsegment, hmisnamed, rfl⟩ :=
      mem_pathSegmentCase_iff.mp hfinding
    have hprefix : entryPath key <+: entryPath other := hpath ▸ List.prefix_refl _
    obtain rfl := eq_of_prefix_entryPath hprefix (List.prefix_refl _)
    exact ⟨segment, hsegment, hmisnamed⟩
  · rintro ⟨segment, hsegment, hmisnamed⟩
    obtain ⟨entry, hentry, rfl⟩ := List.mem_map.mp hkey
    have hfinding : segmentFinding entry.1 segment ∈ pathSegmentCase document := by
      refine mem_pathSegmentCase_iff.mpr ⟨entry, ?_, hextension, segment, hsegment, hmisnamed, rfl⟩
      rwa [hpaths, Option.getD_some]
    exact ⟨_, List.mem_map_of_mem hfinding, rfl⟩

/-- A name is lower snake case when it matches the pattern, and this is a matter of neighbours
among its characters; so names that are joined by an underscore are one.  A key of the map of paths
that is no extension is left alone exactly when every piece between its slashes is empty, a
placeholder, or such a name. -/
theorem path_silent_iff_proper_segments :
    (∀ name : String,
      (Naming.isSnakeCase name = true ↔ name.toList ∈ Naming.snakePattern) ∧
        (Naming.isSnakeCase name = true ↔ Naming.IsSnakeWord name.toList)) ∧
    (∀ a b : String, Naming.isSnakeCase a = true → Naming.isSnakeCase b = true →
      Naming.isSnakeCase (a ++ "_" ++ b) = true) ∧
    ∀ (rule : Rule) (block : RuleBlock) (document : Node) (paths : Fields) (key : String),
      rule.id = .pathSegmentCase → document.getFields? "paths" = some paths →
      key ∈ Fields.keys paths → ¬ "x-".toList <+: key.toList →
        ((∀ v ∈ rule.check block document, v.path ≠ entryPath key) ↔
          ∀ segment : String, Text.IsPiece '/' key.toList segment.toList →
            IsProperSegment segment) := by
  refine ⟨fun name => ?_, fun a b => Naming.isSnakeCase_join, ?_⟩
  · exact ⟨Naming.isSnakeCase_iff_mem_snakePattern name, Naming.isSnakeCase_iff_isSnakeWord name⟩
  · intro rule block document paths key hid hpaths hkey hextension
    have hpath : isExtensionKey key = false :=
      Bool.eq_false_iff.mpr (mt List.isPrefixOf_iff_prefix.mp hextension)
    have hreport := exists_report_at_key_iff hid block hpaths hkey hpath
    simp only [isMisnamedSegment_iff, Text.mem_split_iff] at hreport
    constructor
    · intro hsilent segment hpiece
      by_contra hmisnamed
      obtain ⟨v, hv, heq⟩ := hreport.mpr ⟨segment, hpiece, hmisnamed⟩
      exact hsilent v hv heq
    · intro hproper v hv heq
      obtain ⟨segment, hpiece, hmisnamed⟩ := hreport.mp ⟨v, hv, heq⟩
      exact hmisnamed (hproper segment hpiece)

/-- A document with two paths, the second of which has a segment that is not lower snake case. -/
def camelCaseDocument : Node :=
  .object [("paths", .object [("/v1/\x7bpetId\x7d//last_seg", .object []),
    ("/v1/thisIsATest", .object [])])]

/-- Its first path has an empty segment, a placeholder and two names, and is left alone. -/
theorem reports_camelCaseDocument :
    Naming.isSnakeCase ("last" ++ "_" ++ "seg2") = true ∧
      (∀ v ∈ (standard .pathSegmentCase).check {} camelCaseDocument,
        v.path ≠ entryPath "/v1/\x7bpetId\x7d//last_seg") ∧
      ¬ ∀ v ∈ (standard .pathSegmentCase).check {} camelCaseDocument,
        v.path ≠ entryPath "/v1/thisIsATest" := by
  obtain ⟨hname, hjoin, hsilent⟩ := path_silent_iff_proper_segments
  have hword : ∀ name : String, Naming.isSnakeCase name = true → IsProperSegment name :=
    fun name h => .word ((hname name).2.mp h)
  refine ⟨hjoin "last" "seg2" (by decide) (by decide), ?_, ?_⟩
  · refine (hsilent (standard .pathSegmentCase) {} camelCaseDocument _ _ rfl rfl List.mem_cons_self
      (by decide)).mpr fun segment hpiece => ?_
    have hsplit : Text.split '/' "/v1/\x7bpetId\x7d//last_seg" =
        ["", "v1", "\x7bpetId\x7d", "", "last_seg"] := by
      decide
    have hmem := (Text.mem_split_iff _ _ _).mpr hpiece
    simp only [hsplit, List.mem_cons, List.not_mem_nil, or_false] at hmem
    rcases hmem with rfl | rfl | rfl | rfl | rfl
    · exact .empty rfl
    · exact hword _ (by decide)
    · exact .placeholder ⟨"petId", rfl⟩
    · exact .empty rfl
    · exact hword _ (by decide)
  · intro h
    have hproper := (hsilent (standard .pathSegmentCase) {} camelCaseDocument _ _ rfl rfl
      (List.mem_cons_of_mem _ List.mem_cons_self) (by decide)).mp h "thisIsATest"
      ((Text.mem_split_iff _ _ _).mp (by decide))
    exact (isMisnamedSegment_iff _).mp (by decide) hproper

end Rule

end ApiLint
