import ApiLint.Proofs.Rule.RepeatedParameters
import ApiLint.Proofs.Schema.RequiredNames
set_option autoImplicit false

/-!
# How often the same is reported

What a violation tells is where it stands and what its message says.  The rules on path
parameters and on required properties go through lists of names: the placeholders of a
template, in which a name occurs once for each place, and the names that a schema requires.
They tell the same as often as the name occurs in its list.  Only a view that was merged from
branches has no name twice.
-/

namespace ApiLint

/-- Where the finding stands and what it says. -/
def Finding.remark (finding : Finding) : DocPath × String := (finding.path, finding.message)

/-- Where the violation stands and what it says. -/
def Violation.remark (v : Violation) : DocPath × String := (v.path, v.message)

namespace PathCheck

/-- The violation is one of the check, for this placeholder of the template. -/
def Names (check : PathCheck) (template name : String) (v : Violation) : Prop :=
  match check with
  | missing => Rule.NamesMissing name v
  | duplicate => Rule.NamesRepeated template name v

theorem Names.reports {check : PathCheck} {template name : String} {v : Violation}
    (h : check.Names template name v) : check.reports v = true := by
  cases check with
  | missing => exact Rule.NamesMissing.reports h
  | duplicate => exact Rule.NamesRepeated.reports h

end PathCheck

namespace Rule

/-! ## Findings on path parameters -/

theorem remark_missingOnItem_injective (path : DocPath) :
    Function.Injective fun name => (missingOnItem path name).remark := by
  intro name other h
  exact eq_of_message_eq List.mem_cons_self List.mem_cons_self (Prod.mk.inj h).2

theorem remark_missingOnOperation_injective (path : DocPath) :
    Function.Injective fun name => (missingOnOperation path name).remark := by
  intro name other h
  have hopening : "Operation must include a path parameter with name: " ∈
      PathCheck.missingOpenings := List.mem_cons_of_mem _ List.mem_cons_self
  exact eq_of_message_eq hopening hopening (Prod.mk.inj h).2

theorem remark_duplicateFinding_inj {template method otherMethod name otherName : String}
    {position otherPosition : Nat} :
    (duplicateFinding (entryPath template) method name position).remark =
        (duplicateFinding (entryPath template) otherMethod otherName otherPosition).remark ↔
      method = otherMethod ∧ position = otherPosition := by
  constructor
  · intro h
    have hpath := (Prod.mk.inj h).1
    rw [path_duplicateFinding, path_duplicateFinding] at hpath
    exact (repeatedPath_inj hpath).2
  · intro h
    obtain ⟨rfl, rfl⟩ := h
    rfl

section Item

variable {item : Node} (h : item.WellFormed) {names : List String} {finding : Finding}
include h

/-- A missing parameter is found as often as the name is among the names. -/
theorem count_missingParameters {path : DocPath}
    (hmem : finding ∈ missingParameters path item names) :
    ∃ name, (∀ severity other,
        NamesMissing other (finding.toViolation .pathParameters severity) ↔ other = name) ∧
      ((missingParameters path item names).map Finding.remark).count finding.remark =
        names.count name := by
  unfold missingParameters
  dsimp only
  rcases mem_missingParameters_iff.mp hmem with hitem | hoperation
  · obtain ⟨hnone, name, _, hshared, rfl⟩ := hitem
    refine ⟨name, namesMissing_missingOnItem_iff path name, ?_⟩
    rw [hnone, List.isEmpty_nil, if_pos rfl, List.map_map]
    exact count_map_filter (remark_missingOnItem_injective path) (by simpa using hshared)
  · obtain ⟨⟨method, operation⟩, hentry, hincluded, name, _, hundeclared, rfl⟩ := hoperation
    refine ⟨name, namesMissing_missingOnOperation_iff _ name, ?_⟩
    have hsome : ¬ (operations item).isEmpty = true := by simp [List.ne_nil_of_mem hentry]
    rw [if_neg hsome, List.map_flatMap, count_flatMap_of_nodup (nodup_methods h) hentry]
    · dsimp only
      rw [if_neg (by simp [hincluded]), List.map_map]
      exact count_map_filter (remark_missingOnOperation_injective _) (by simpa using hundeclared)
    · intro entry _ hremark
      dsimp only at hremark
      split at hremark
      · exact absurd hremark List.not_mem_nil
      · obtain ⟨_, hother, heq⟩ := List.mem_map.mp hremark
        obtain ⟨_, _, rfl⟩ := List.mem_map.mp hother
        have hpath : path.child (.key entry.1) = path.child (.key method) := (Prod.mk.inj heq).1
        simpa [DocPath.child] using hpath

/-- For one name, a repeated definition is found once. -/
theorem count_duplicatesOf {template name : String}
    (hmem : finding ∈ duplicatesOf (entryPath template) (operations item) name) :
    ((duplicatesOf (entryPath template) (operations item) name).map Finding.remark).count
      finding.remark = 1 := by
  obtain ⟨hone, ⟨method, operation⟩, hentry, position, hposition, rfl⟩ :=
    mem_duplicatesOf_iff.mp hmem
  dsimp only at hposition
  rw [duplicatesOf, if_pos hone, List.map_flatMap,
    count_flatMap_of_nodup (nodup_methods h) hentry]
  · simp [hposition]
  · intro entry _ hremark
    dsimp only at hremark
    split at hremark
    · next other _ =>
      have heq := List.mem_singleton.mp hremark
      exact (remark_duplicateFinding_inj.mp heq).1.symm
    · exact absurd hremark List.not_mem_nil

/-- What is found for two names is not the same, as an element bears one name only. -/
theorem eq_of_mem_duplicatesOf {template name other : String}
    (hmem : finding ∈ duplicatesOf (entryPath template) (operations item) name)
    (hother : finding.remark ∈
      (duplicatesOf (entryPath template) (operations item) other).map Finding.remark) :
    other = name := by
  obtain ⟨found, hfound, heq⟩ := List.mem_map.mp hother
  obtain ⟨_, entry, hentry, position, hposition, rfl⟩ := mem_duplicatesOf_iff.mp hmem
  obtain ⟨_, otherEntry, hotherEntry, otherPosition, hotherPosition, rfl⟩ :=
    mem_duplicatesOf_iff.mp hfound
  obtain ⟨hmethod, rfl⟩ := remark_duplicateFinding_inj.mp heq
  obtain rfl := List.inj_on_of_nodup_map (nodup_methods h) hotherEntry hentry hmethod
  obtain ⟨⟨parameter, hparameter, hname⟩, _⟩ := findIdx?_eq_some_iff_first.mp hposition
  obtain ⟨⟨same, hsame, hotherName⟩, _⟩ := findIdx?_eq_some_iff_first.mp hotherPosition
  obtain rfl := Option.some.inj (hparameter.symm.trans hsame)
  exact Option.some.inj ((of_decide_eq_true hotherName).symm.trans (of_decide_eq_true hname))

/-- A repeated definition is found as often as the name is among the names. -/
theorem count_duplicateParameters {template : String}
    (hmem : finding ∈ duplicateParameters (entryPath template) item names) :
    ∃ name, (∀ severity other,
        NamesRepeated template other (finding.toViolation .pathParameters severity) ↔
          other = name) ∧
      ((duplicateParameters (entryPath template) item names).map Finding.remark).count
        finding.remark = names.count name := by
  unfold duplicateParameters at hmem ⊢
  split at hmem
  · exact absurd hmem List.not_mem_nil
  · next hmany =>
    obtain ⟨name, hname, hfound⟩ := List.mem_flatMap.mp hmem
    refine ⟨name, ?_, ?_⟩
    · intro severity other
      obtain ⟨_, entry, _, position, _, rfl⟩ := mem_duplicatesOf_iff.mp hfound
      exact namesRepeated_duplicateFinding_iff template entry.1 name position severity other
    · rw [if_neg hmany, List.map_flatMap]
      exact count_flatMap_of_eq (count_duplicatesOf h hfound) fun other _ =>
        eq_of_mem_duplicatesOf h hfound

/-- What a check finds for a placeholder it finds as often as that is among the names. -/
theorem count_findings (check : PathCheck) {template : String}
    (hmem : finding ∈ check.findings (entryPath template) item names) :
    ∃ name, (∀ severity other,
        check.Names template other (finding.toViolation .pathParameters severity) ↔
          other = name) ∧
      ((check.findings (entryPath template) item names).map Finding.remark).count
        finding.remark = names.count name := by
  cases check with
  | missing => exact count_missingParameters h hmem
  | duplicate => exact count_duplicateParameters h hmem

end Item

/-! ## The map of paths -/

/-- Grading changes nothing in what is said, while it is on. -/
theorem map_remark_graded (severity : Option Severity) (findings : List Finding) :
    (graded severity findings).map (fun entry => entry.2.remark) =
      if severity.isSome then findings.map Finding.remark else [] := by
  cases severity with
  | none => rfl
  | some severity =>
    rw [graded, List.map_map]
    rfl

/-- No other check says what a check says. -/
theorem remark_notMem_of_other {check other : PathCheck} (hne : other ≠ check)
    {path : DocPath} {item : Node} {names : List String} {finding : Finding}
    (hmem : finding ∈ check.findings path item names) (severity : Option Severity) :
    finding.remark ∉
      (graded severity (other.findings path item names)).map fun entry => entry.2.remark := by
  intro hremark
  obtain ⟨entry, hentry, heq⟩ := List.mem_map.mp hremark
  have hother := hasMessage_of_mem_findings other (mem_graded_iff.mp hentry).2
  have hown := hasMessage_of_mem_findings other hmem
  rw [show entry.2.message = finding.message from (Prod.mk.inj heq).2] at hother
  exact hne (of_decide_eq_true (hown.symm.trans (hother.trans (decide_eq_true rfl))))

/-- At an entry, a check that is on says what it finds, and no other one says it. -/
theorem count_pathParametersAt (levels : PathCheck → Option Severity) {template : String}
    {item : Node} (hobject : item.isObject = true) {check : PathCheck} {severity : Severity}
    (hlevel : levels check = some severity) {finding : Finding}
    (hmem : finding ∈ check.findings (entryPath template) item
      (Naming.templateParameters template)) :
    ((pathParametersAt (levels .missing) (levels .duplicate) template item).map
        fun entry => entry.2.remark).count finding.remark =
      ((check.findings (entryPath template) item (Naming.templateParameters template)).map
        Finding.remark).count finding.remark := by
  have hboth : pathParametersAt (levels .missing) (levels .duplicate) template item =
      graded (levels .missing)
          (PathCheck.missing.findings (entryPath template) item
            (Naming.templateParameters template)) ++
        graded (levels .duplicate)
          (PathCheck.duplicate.findings (entryPath template) item
            (Naming.templateParameters template)) := by
    rw [pathParametersAt, hobject]
    rfl
  rw [hboth, List.map_append, List.count_append]
  cases check with
  | missing =>
    have hother : PathCheck.duplicate ≠ .missing := by decide
    rw [List.count_eq_zero.mpr (remark_notMem_of_other hother hmem _), map_remark_graded, hlevel]
    rfl
  | duplicate =>
    have hother : PathCheck.missing ≠ .duplicate := by decide
    rw [List.count_eq_zero.mpr (remark_notMem_of_other hother hmem _), map_remark_graded, hlevel,
      Nat.zero_add]
    rfl

/-- What the rule on path parameters says, entry by entry. -/
theorem map_remark_check {rule : Rule} (hid : rule.id = .pathParameters) (block : RuleBlock)
    (document : Node) :
    (rule.check block document).map Violation.remark =
      (pathEntries document).flatMap fun entry =>
        (pathParametersAt (checkSeverity? rule block .missing)
          (checkSeverity? rule block .duplicate) entry.1 entry.2).map fun found =>
            found.2.remark := by
  rw [Rule.check, gradedFindings_pathParameters hid, pathParameters, List.map_map,
    List.map_flatMap]
  rfl

/-- A violation on path parameters is due to one check and one placeholder, and is made as often
as the template has the placeholder. -/
theorem count_check_pathParameters {document : Node} (hwf : document.WellFormed) {rule : Rule}
    (hid : rule.id = .pathParameters) {block : RuleBlock} {v : Violation}
    (hv : v ∈ rule.check block document) :
    ∃ check template name, entryPath template <+: v.path ∧
      (∀ other otherName, PathCheck.Names other template otherName v ↔
        other = check ∧ otherName = name) ∧
      ((rule.check block document).map Violation.remark).count v.remark =
        (Naming.templateParameters template).count name := by
  rw [map_remark_check hid]
  rw [Rule.check, gradedFindings_pathParameters hid, hid, pathParameters] at hv
  obtain ⟨⟨severity, finding⟩, hfound, rfl⟩ := List.mem_map.mp hv
  obtain ⟨⟨template, item⟩, hitem, hfound⟩ := List.mem_flatMap.mp hfound
  have hbelow := prefix_of_mem_pathParametersAt hfound
  obtain ⟨hobject, check, hlevel, hfinding⟩ :=
    (mem_pathParametersAt_iff_exists_check (checkSeverity? rule block)).mp hfound
  have hitemWf := hwf.of_resolve ((mem_pathEntries_iff hwf).mp hitem)
  obtain ⟨name, hnames, hcount⟩ := count_findings hitemWf check hfinding
  refine ⟨check, template, name, hbelow, ?_, ?_⟩
  · intro other otherName
    constructor
    · intro hother
      have hreports := (Bool.and_eq_true_iff.mp hother.reports).2
      have hmessage := hasMessage_of_mem_findings other hfinding
      obtain rfl : other = check := of_decide_eq_true (hmessage.symm.trans hreports)
      exact ⟨rfl, (hnames severity otherName).mp hother⟩
    · intro heq
      obtain ⟨rfl, rfl⟩ := heq
      exact (hnames severity otherName).mpr rfl
  · have hkeys : ((pathEntries document).map Prod.fst).Nodup :=
      (hwf.object_getFields? "paths").nodup_keys
    rw [← hcount, ← count_pathParametersAt (checkSeverity? rule block) hobject hlevel hfinding]
    apply count_flatMap_of_nodup hkeys hitem
    -- what is said below an entry is said of no other one
    intro entry _ hremark
    obtain ⟨other, hother, heq⟩ := List.mem_map.mp hremark
    have hotherBelow := prefix_of_mem_pathParametersAt hother
    rw [show other.2.path = finding.path from (Prod.mk.inj heq).1] at hotherBelow
    exact eq_of_prefix_entryPath hotherBelow hbelow

/-! ## Required names -/

/-- How often a schema requires a name: as often as its list has the name, but a schema that is
merged from branches requires each name once. -/
def requiredTimes (schema : Node) (name : String) : Nat :=
  if (Schema.branches? schema "allOf").isSome then 1 else (requiredNames schema).count name

theorem count_requiredNames_mergeAllOf {schema : Node} (hwf : schema.WellFormed) {name : String}
    (hname : name ∈ requiredNames (Schema.mergeAllOf schema)) :
    (requiredNames (Schema.mergeAllOf schema)).count name = requiredTimes schema name := by
  cases hbranches : Schema.branches? schema "allOf" with
  | some branches =>
    rw [requiredTimes, hbranches]
    exact List.count_eq_one_of_mem (Schema.nodup_requiredOf_mergeAllOf hwf hbranches) hname
  | none =>
    rw [requiredTimes, hbranches, Schema.mergeAllOf_eq, hbranches]
    rfl

/-- A violation on a required name is made as often as the schema requires the name. -/
theorem count_check_requiredPropertyMissing {document : Node} (hwf : document.WellFormed)
    {rule : Rule} (hid : rule.id = .requiredPropertyMissing) {block : RuleBlock} {v : Violation}
    (hv : v ∈ rule.check block document) :
    ∃ schema name, v.path.resolve document = some schema ∧
      v.message = "Required property must be defined in the schema: " ++ name ∧
      ((rule.check block document).map Violation.remark).count v.remark =
        requiredTimes schema name := by
  have hne : rule.id ≠ .pathParameters := by
    rw [hid]
    decide
  have hremarks : (rule.check block document).map Violation.remark =
      (Schema.all document).flatMap fun schema =>
        (undefinedRequired schema).map Finding.remark := by
    rw [check_of_ne hne, hid, List.map_map, ← List.map_flatMap]
    rfl
  rw [hremarks]
  rw [check_of_ne hne, hid] at hv
  obtain ⟨finding, hfinding, rfl⟩ := List.mem_map.mp hv
  obtain ⟨schema, hschema, hfinding⟩ := List.mem_flatMap.mp hfinding
  have hstands := Schema.standsIn_of_mem_all hwf hschema
  unfold undefinedRequired at hfinding
  split at hfinding
  · exact absurd hfinding List.not_mem_nil
  · next hjudged =>
    obtain ⟨name, hname, rfl⟩ := List.mem_map.mp hfinding
    obtain ⟨hrequired, hundefined⟩ := List.mem_filter.mp hname
    refine ⟨schema.node, name, hstands, rfl, ?_⟩
    rw [← count_requiredNames_mergeAllOf (hstands.wellFormed hwf) hrequired,
      count_flatMap_of_nodup (Schema.nodup_all hwf) hschema]
    · have hinjective : Function.Injective fun name =>
          (requiredFinding schema.path name).remark := by
        intro name other h
        exact (String.append_right_inj _).mp (Prod.mk.inj h).2
      rw [undefinedRequired, if_neg hjudged, List.map_map]
      exact count_map_filter hinjective hundefined
    · intro other _ hremark
      obtain ⟨found, hfound, heq⟩ := List.mem_map.mp hremark
      rw [← path_of_mem_undefinedRequired other found hfound]
      exact (Prod.mk.inj heq).1

/-! ## Names and their occurrences -/

/-- How many times the document has the name that a violation of the rule is about: the template a
placeholder, or the schema a required name. -/
inductive NamedTimes (document : Node) (v : Violation) : RuleId → Nat → Prop
  | placeholder {check : PathCheck} {template name : String}
      (hentry : entryPath template <+: v.path) (hnames : check.Names template name v) :
      NamedTimes document v .pathParameters ((Naming.templateParameters template).count name)
  | required {schema : Node} {name : String}
      (hschema : v.path.resolve document = some schema)
      (hmessage : v.message = "Required property must be defined in the schema: " ++ name) :
      NamedTimes document v .requiredPropertyMissing (requiredTimes schema name)

section WellFormed

variable {document : Node} (hwf : document.WellFormed) {rule : Rule} {block : RuleBlock}
  {v : Violation}
include hwf

theorem namedTimes_iff_of_pathParameters (hid : rule.id = .pathParameters)
    (hv : v ∈ rule.check block document) (times : Nat) :
    NamedTimes document v rule.id times ↔
      ((rule.check block document).map Violation.remark).count v.remark = times := by
  obtain ⟨check, template, name, hentry, hnames, hcount⟩ :=
    count_check_pathParameters hwf hid hv
  rw [hid, hcount]
  constructor
  · intro h
    cases h with
    | placeholder hotherEntry hother =>
      obtain rfl := eq_of_prefix_entryPath hentry hotherEntry
      obtain ⟨rfl, rfl⟩ := (hnames _ _).mp hother
      rfl
  · intro htimes
    subst htimes
    exact .placeholder hentry ((hnames check name).mpr ⟨rfl, rfl⟩)

theorem namedTimes_iff_of_requiredPropertyMissing (hid : rule.id = .requiredPropertyMissing)
    (hv : v ∈ rule.check block document) (times : Nat) :
    NamedTimes document v rule.id times ↔
      ((rule.check block document).map Violation.remark).count v.remark = times := by
  obtain ⟨schema, name, hschema, hmessage, hcount⟩ :=
    count_check_requiredPropertyMissing hwf hid hv
  rw [hid, hcount]
  constructor
  · intro h
    cases h with
    | required hother hotherMessage =>
      obtain rfl := Option.some.inj (hschema.symm.trans hother)
      obtain rfl := (String.append_right_inj _).mp (hmessage.symm.trans hotherMessage)
      rfl
  · intro htimes
    subst htimes
    exact .required hschema hmessage

/-- A violation of the rule on path parameters or of that on required properties is made as often
as the document has the name that it is about.  So the rule reports nothing twice exactly when
each of its violations is about a placeholder that is once in its template, or about a name that
its schema requires once. -/
theorem reported_as_often_as_named
    (hid : rule.id = .pathParameters ∨ rule.id = .requiredPropertyMissing) :
    (∀ v ∈ rule.check block document, ∀ times,
        NamedTimes document v rule.id times ↔
          ((rule.check block document).map Violation.remark).count v.remark = times) ∧
      (((rule.check block document).map Violation.remark).Nodup ↔
        ∀ v ∈ rule.check block document, NamedTimes document v rule.id 1) := by
  have htimes : ∀ v ∈ rule.check block document, ∀ times,
      NamedTimes document v rule.id times ↔
        ((rule.check block document).map Violation.remark).count v.remark = times := by
    intro v hv times
    rcases hid with hid | hid
    · exact namedTimes_iff_of_pathParameters hwf hid hv times
    · exact namedTimes_iff_of_requiredPropertyMissing hwf hid hv times
  refine ⟨htimes, ?_⟩
  rw [List.nodup_iff_count_eq_one, List.forall_mem_map]
  exact forall_congr' fun v => forall_congr' fun hv => (htimes v hv 1).symm

end WellFormed

/-- A document with a template that repeats a placeholder and a schema that repeats a required
name. -/
def repeatingDocument : Node :=
  .object [
    ("paths", .object [("/owners/{id}/pets/{id}", .object [])]),
    ("components", .object [("schemas", .object [
      ("Pet", .object [("required", .array [.string "id", .string "id"])])])])]

/-- Each of the rules says something twice. -/
theorem count_remark_repeatingDocument :
    ∀ id ∈ [RuleId.pathParameters, .requiredPropertyMissing],
      ∃ v ∈ (standard id).check {} repeatingDocument,
        (((standard id).check {} repeatingDocument).map Violation.remark).count v.remark = 2 := by
  decide

/-- The placeholder and the required name are reported twice, as the document has them twice. -/
theorem namedTimes_repeatingDocument :
    (∃ v ∈ (standard .pathParameters).check {} repeatingDocument,
        NamedTimes repeatingDocument v .pathParameters 2) ∧
      ∃ v ∈ (standard .requiredPropertyMissing).check {} repeatingDocument,
        NamedTimes repeatingDocument v .requiredPropertyMissing 2 := by
  have hwf : repeatingDocument.WellFormed := by
    simp [repeatingDocument, Node.WellFormed, Node.WellFormedFields, Node.WellFormedItems]
  constructor
  · obtain ⟨v, hv, hcount⟩ := count_remark_repeatingDocument .pathParameters (by simp)
    exact ⟨v, hv, ((reported_as_often_as_named hwf (.inl rfl)).1 v hv 2).mpr hcount⟩
  · obtain ⟨v, hv, hcount⟩ := count_remark_repeatingDocument .requiredPropertyMissing (by simp)
    exact ⟨v, hv, ((reported_as_often_as_named hwf (.inr rfl)).1 v hv 2).mpr hcount⟩

/-- Neither of the rules reports each of its findings once. -/
theorem exists_repeated_remark :
    ¬ (((standard .pathParameters).check {} repeatingDocument).map Violation.remark).Nodup ∧
      ¬ (((standard .requiredPropertyMissing).check {} repeatingDocument).map
          Violation.remark).Nodup := by
  have htwice : ∀ id ∈ [RuleId.pathParameters, .requiredPropertyMissing],
      ¬ (((standard id).check {} repeatingDocument).map Violation.remark).Nodup := by
    intro id hid hnodup
    obtain ⟨v, _, hcount⟩ := count_remark_repeatingDocument id hid
    have honce := List.nodup_iff_count_le_one.mp hnodup v.remark
    omega
  exact ⟨htwice .pathParameters (by simp), htwice .requiredPropertyMissing (by simp)⟩

end Rule

end ApiLint
