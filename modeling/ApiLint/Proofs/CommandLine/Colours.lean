import ApiLint.CommandLine.Output
import ApiLint.Linter
import ApiLint.Proofs.Path.Pointer
import ApiLint.Proofs.Text.Occurrences
set_option autoImplicit false

/-!
# What is coloured in text output

The severity of a violation is to be coloured where it opens the line below the header.  What is
coloured is the place where it first stands so in the whole text, and the header quotes the name
of the file and the keys of the path.  So the right word is coloured exactly when the severity
does not stand so in the header; otherwise a part of the header is coloured and the line below is
not.
-/

namespace ApiLint

/-! ## Occurrences in pointers -/

namespace DocPath

/-- The characters that escaping and joining the steps of a path bring in. -/
def pointerMarks : List Char := ['~', '0', '1', '/']

variable {pattern : List Char}

theorem prefix_escapePointer_iff (hmarks : ∀ c ∈ pointerMarks, c ∉ pattern) (text : List Char) :
    pattern <+: escapePointer text ↔ pattern <+: text := by
  induction text generalizing pattern with
  | nil => rfl
  | cons c rest ih =>
    cases pattern with
    | nil => simp
    | cons p pattern =>
      have hinner : ∀ c ∈ pointerMarks, c ∉ pattern := fun c hc hmem =>
        hmarks c hc (List.mem_cons_of_mem p hmem)
      have hne : p ∉ pointerMarks := fun hp => hmarks p hp List.mem_cons_self
      by_cases htilde : c = '~'
      · have hp : p ≠ c := fun heq => hne (by simp [pointerMarks, heq, htilde])
        subst htilde
        simp [escapePointer, hp]
      · by_cases hslash : c = '/'
        · have hp : p ≠ '~' ∧ p ≠ '/' := ⟨fun heq => hne (by simp [pointerMarks, heq]),
            fun heq => hne (by simp [pointerMarks, heq])⟩
          subst hslash
          simp [escapePointer, hp]
        · rw [Pointer.escapePointer_cons_of_ne htilde hslash, List.cons_prefix_cons,
            List.cons_prefix_cons, ih hinner]

theorem infix_escapePointer_iff (hmarks : ∀ c ∈ pointerMarks, c ∉ pattern) (text : List Char) :
    pattern <:+: escapePointer text ↔ pattern <:+: text := by
  induction text with
  | nil => rfl
  | cons c rest ih =>
    have htilde : '~' ∉ pattern := hmarks '~' (by decide)
    have hslash : '/' ∉ pattern := hmarks '/' (by decide)
    by_cases hc : c = '~'
    · subst hc
      rw [escapePointer, Text.infix_cons_of_notMem htilde,
        Text.infix_cons_of_notMem (hmarks '0' (by decide)), ih, Text.infix_cons_of_notMem htilde]
    · by_cases hc' : c = '/'
      · subst hc'
        rw [escapePointer, Text.infix_cons_of_notMem htilde,
          Text.infix_cons_of_notMem (hmarks '1' (by decide)), ih, Text.infix_cons_of_notMem hslash]
      · rw [List.infix_cons_iff, ← ih, ← prefix_escapePointer_iff hmarks (c :: rest),
          Pointer.escapePointer_cons_of_ne hc hc', List.infix_cons_iff]

/-- A pattern without marks occurs in a pointer when it occurs in the text of a step. -/
theorem infix_pointer_iff (hmarks : ∀ c ∈ pointerMarks, c ∉ pattern) (hpattern : pattern ≠ [])
    (path : DocPath) :
    pattern <:+: path.pointer.toList ↔ ∃ segment ∈ path, pattern <:+: segment.text.toList := by
  rw [pointer, String.toList_ofList]
  induction path with
  | nil => simp [hpattern]
  | cons segment rest ih =>
    have hslash : '/' ∉ pattern := hmarks '/' (by decide)
    rw [List.flatMap_cons, List.cons_append, Text.infix_cons_of_notMem hslash]
    simp only [List.mem_cons, exists_eq_or_imp]
    rw [← ih, ← infix_escapePointer_iff hmarks segment.text.toList]
    cases rest with
    | nil => simp [hpattern]
    | cons next rest =>
      rw [List.flatMap_cons, List.cons_append, Text.infix_append_cons_iff hslash,
        Text.infix_cons_of_notMem hslash]

end DocPath

/-! ## Parts of the text of a violation -/

namespace Violation

/-- The first line of the text of a violation: its rule and its place. -/
def header (v : Violation) : String :=
  v.code ++ " " ++ v.rule ++ " at " ++ v.fileLabel ++ "#" ++ v.path.pointer

/-- What follows the severity and its colon: the message, and the suggestion if there is one. -/
def explanation (v : Violation) : String :=
  " " ++ v.message ++ "\n" ++
    (match v.suggestion with
      | some suggestion => "  = help: " ++ suggestion ++ "\n"
      | none => "")

/-- The text of a violation with the severity below the header written as given. -/
def textWith (v : Violation) (severity : String) : String :=
  v.header ++ "\n" ++ "  " ++ severity ++ ":" ++ v.explanation

theorem text_eq_textWith (v : Violation) : v.text = v.textWith v.severity.name := by
  have hcolon : (": " : String) = ":" ++ " " := rfl
  cases hsuggestion : v.suggestion <;>
    simp only [text, textWith, header, explanation, hsuggestion, hcolon, String.append_assoc]

theorem toList_textWith (v : Violation) (severity : String) :
    (v.textWith severity).toList =
      v.header.toList ++ '\n' :: (CommandLine.severityLead severity ++ v.explanation.toList) := by
  simp [textWith, CommandLine.severityLead]

end Violation

namespace CommandLine

/-! ## The severity as it opens the line below the header -/

theorem severityLead_eq (severity : String) :
    severityLead severity = ' ' :: ' ' :: (severity ++ ":").toList := by
  simp [severityLead]

theorem severityLead_ne_nil (severity : String) : severityLead severity ≠ [] := by
  rw [severityLead_eq]
  exact List.cons_ne_nil _ _

theorem notMem_severityLead (severity : Severity) :
    ∀ c ∈ '\n' :: '#' :: DocPath.pointerMarks, c ∉ severityLead severity.name := by
  have hnone : ('\n' :: '#' :: DocPath.pointerMarks).all
      (fun c => !(severityLead severity.name).contains c) = true := by
    cases severity <;> decide
  intro c hc
  simpa using List.all_eq_true.mp hnone c hc

/-- The text of a violation with the severity below the header in its colour. -/
def severityColoured (v : Violation) : String :=
  v.textWith (coloured (colourOf v.severity) v.severity.name)

/-- The severity stands in the header as it does at the start of the line below. -/
def HeaderImitatesSeverity (v : Violation) : Prop :=
  severityLead v.severity.name <:+: v.header.toList

instance (v : Violation) : Decidable (HeaderImitatesSeverity v) :=
  inferInstanceAs (Decidable (_ <:+: _))

theorem colouredText_of_not_imitates {v : Violation} (h : ¬ HeaderImitatesSeverity v) :
    colouredText v = severityColoured v := by
  have hend : '\n' ∉ severityLead v.severity.name := notMem_severityLead _ _ List.mem_cons_self
  rw [colouredText, Violation.text_eq_textWith, Violation.toList_textWith,
    Text.replaceFirst_append_cons h hend,
    Text.replaceFirst_eq_append _ _ (severityLead_ne_nil _), ← Violation.toList_textWith,
    String.ofList_toList, severityColoured]

theorem colouredText_of_imitates {v : Violation} (h : HeaderImitatesSeverity v) :
    ∃ before after,
      Text.FirstOccurrence (severityLead v.severity.name) v.header.toList before after ∧
        (colouredText v).toList = before ++
          severityLead (coloured (colourOf v.severity) v.severity.name) ++ after ++
            '\n' :: (severityLead v.severity.name ++ v.explanation.toList) := by
  have hlead := severityLead_ne_nil v.severity.name
  obtain ⟨before, after, hfirst, hreplace⟩ := Text.exists_firstOccurrence hlead h
    (severityLead (coloured (colourOf v.severity) v.severity.name))
  refine ⟨before, after, hfirst, ?_⟩
  rw [colouredText, String.toList_ofList, Violation.text_eq_textWith, Violation.toList_textWith,
    Text.replaceFirst_append_of_infix h _ _ hlead, hreplace]

/-- A colour begins with a control character, so a coloured severity is no plain one. -/
theorem severityLead_coloured_append_ne (severity : Severity) (left right : List Char) :
    severityLead (coloured (colourOf severity) severity.name) ++ left ≠
      severityLead severity.name ++ right := by
  cases severity <;> simp [severityLead, coloured, Severity.name]

theorem colouredText_ne_of_imitates {v : Violation} (h : HeaderImitatesSeverity v) :
    colouredText v ≠ severityColoured v := by
  obtain ⟨before, after, hfirst, htext⟩ := colouredText_of_imitates h
  intro heq
  rw [heq, severityColoured, Violation.toList_textWith, hfirst.eq] at htext
  simp only [List.append_assoc, List.append_cancel_left_eq] at htext
  exact severityLead_coloured_append_ne _ _ _ htext.symm

/-- No two blanks come together in front of the name of the file. -/
theorem not_blanks_infix_rule (id : RuleId) :
    ¬ [' ', ' '] <:+: (id.code ++ " " ++ id.name ++ " at").toList ++ [' '] := by
  cases id <;> decide

/-- In a violation of a rule, what imitates the severity is in the name of the file or in a step of
the path. -/
theorem headerImitatesSeverity_iff {v : Violation} {id : RuleId} (hcode : v.code = id.code)
    (hrule : v.rule = id.name) :
    HeaderImitatesSeverity v ↔
      severityLead v.severity.name <:+: (" " ++ v.fileLabel).toList ∨
        ∃ segment ∈ v.path, severityLead v.severity.name <:+: segment.text.toList := by
  have hmarks := notMem_severityLead v.severity
  have hheader : v.header.toList = (id.code ++ " " ++ id.name ++ " at").toList ++
      ' ' :: (v.fileLabel.toList ++ '#' :: v.path.pointer.toList) := by
    simp [Violation.header, hcode, hrule]
  have hlabel : (" " ++ v.fileLabel).toList = ' ' :: v.fileLabel.toList := by simp
  rw [HeaderImitatesSeverity, hheader,
    Text.infix_append_blank_iff (severityLead_eq _) (not_blanks_infix_rule id),
    ← List.cons_append, Text.infix_append_cons_iff (hmarks '#' (by decide)), hlabel,
    DocPath.infix_pointer_iff (fun c hc => hmarks c (by simp [hc])) (severityLead_ne_nil _)]

/-- The severity of a violation is coloured where it opens the line below the header, and all else
is left as it is, exactly when the header does not imitate it.  Otherwise the first place in the
header that does is coloured in its stead, and all else is left as it is.  In a violation of a
rule, what imitates the severity is in a step of the path, or in the name of the file with a blank
before. -/
theorem colouredText_eq_severityColoured_iff (v : Violation) :
    (colouredText v = severityColoured v ↔ ¬ HeaderImitatesSeverity v) ∧
    (HeaderImitatesSeverity v →
      ∃ before after,
        Text.FirstOccurrence (severityLead v.severity.name) v.header.toList before after ∧
          (colouredText v).toList = before ++
            severityLead (coloured (colourOf v.severity) v.severity.name) ++ after ++
              '\n' :: (severityLead v.severity.name ++ v.explanation.toList)) ∧
    ∀ id : RuleId, v.code = id.code → v.rule = id.name →
      (HeaderImitatesSeverity v ↔
        severityLead v.severity.name <:+: (" " ++ v.fileLabel).toList ∨
          ∃ segment ∈ v.path, severityLead v.severity.name <:+: segment.text.toList) := by
  refine ⟨⟨fun heq himitates => ?_, colouredText_of_not_imitates⟩, colouredText_of_imitates,
    fun _ => headerImitatesSeverity_iff⟩
  exact colouredText_ne_of_imitates himitates heq

/-- A document with an operation without tags, in which the key of the path has a severity with two
blanks before and a colon behind. -/
def readImitating (path : String) : Option String :=
  if path = "api.json" then
    some "\x7b\"paths\": \x7b\"/a  hint: b\": \x7b\"get\": \x7b\x7d\x7d\x7d\x7d"
  else none

/-- The header of its violation is coloured, and the severity is not. -/
theorem exists_coloured_header :
    (Linter.lintFiles { rules := [.standard .operationTags] } readImitating
        ["api.json"]).toOption.map
          (fun report => report.violations.map fun v =>
            (colouredText v, decide (colouredText v = severityColoured v))) =
      some [("OAS008 operation-tags at api.json#/paths/~1a  \x1b[36mhint\x1b[0m: b/get\n" ++
        "  hint: Operation should have non-empty `tags` array.\n", false)] := by
  decide +kernel

/-- A violation of a rule whose message has its severity as a header would have to have it. -/
def quotingViolation : Violation :=
  { code := "OAS008", rule := "operation-tags", severity := .hint
    path := [.key "paths", .key "/a hint: b", .index 0], message := "say  hint: no"
    file := some "hint:api.yaml" }

/-- The same violation in a file with a blank before its name. -/
def blankNamedViolation : Violation := { quotingViolation with file := some " hint:api.yaml" }

/-- The message does not count, nor do a step and the name of a file without blanks before the
severity; with one blank before the name of the file, the name is coloured. -/
theorem colouredText_quotingViolation :
    colouredText quotingViolation = severityColoured quotingViolation ∧
      ∃ before after,
        Text.FirstOccurrence "  hint:".toList blankNamedViolation.header.toList before after ∧
          (colouredText blankNamedViolation).toList = before ++ "  \x1b[36mhint\x1b[0m:".toList ++
            after ++ "\n  hint: say  hint: no\n".toList := by
  obtain ⟨hiff, _, hrule⟩ := colouredText_eq_severityColoured_iff quotingViolation
  obtain ⟨_, hfirst, hblank⟩ := colouredText_eq_severityColoured_iff blankNamedViolation
  have hplain : ¬ HeaderImitatesSeverity quotingViolation := by
    rw [hrule .operationTags rfl rfl]
    decide
  exact ⟨hiff.mpr hplain, hfirst ((hblank .operationTags rfl rfl).mpr (.inl (by decide)))⟩

end CommandLine

end ApiLint
