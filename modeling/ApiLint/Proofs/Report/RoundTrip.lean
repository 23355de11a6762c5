import ApiLint.Report.Codec
import Mathlib.Data.Int.CharZero
import Mathlib.Data.List.Basic
set_option autoImplicit false

/-!
# Reports read back

A report whose numbers fit machine words is read back from its tree form as it was, and
only such reports are ever read.  The tree form of a report determines it, also when the
order of keys is left out of account: a key and an index stay apart where they have the
same text, since one is written as a string and the other as an integer.
-/

namespace ApiLint

/-! ## Numbers that fit words -/

/-- The positions that the path names fit a word. -/
def DocPath.FitsWords (path : DocPath) : Prop :=
  ∀ segment ∈ path, ∀ position, segment = .index position → position < Segment.indexLimit

/-- All numbers of the report fit a word. -/
structure Report.FitsWords (r : Report) : Prop where
  paths : ∀ v ∈ r.violations, v.path.FitsWords
  documentsChecked : r.documentsChecked < Word.limit

/-! ## What is written is read -/

theorem Codec.decodeWord_int {n : Nat} (h : n < Word.limit) : decodeWord (.int n) = some n := by
  have hn : (n : Int) < Word.limit := Int.ofNat_lt.mpr h
  simp [decodeWord, hn]

theorem DocPath.decode_encode {path : DocPath} (h : path.FitsWords) :
    DocPath.decode path.encode = some path :=
  Codec.decodeAll_map fun segment hsegment => Segment.decode_encode (h segment hsegment)

theorem Severity.decode_string_name (s : Severity) : Severity.decode (.string s.name) = some s := by
  rw [Severity.decode, Severity.ofName?_name]

/-- The fields of a violation are found under their names; what is not set is not there. -/
theorem Violation.recordFields_encode (v : Violation) :
    Codec.recordFields fieldNames v.encode =
      some [some (.string v.code), some (.string v.rule), some (.string v.severity.name),
        some v.path.encode, some (.string v.message), v.suggestion.map encodeSuggestion,
        v.file.map Node.string] := by
  obtain ⟨code, rule, severity, path, message, suggestion, file⟩ := v
  cases suggestion <;> cases file <;> rfl

theorem Codec.decodeOptional_map {α : Type} {encode : α → Node} {decode : Node → Option α}
    (hnull : ∀ value, encode value ≠ .null) {value : Option α}
    (h : ∀ a, decode (encode a) = some a) :
    decodeOptional decode (value.map encode) = some value := by
  cases value with
  | none => rfl
  | some a =>
    rw [Option.map_some, decodeOptional, h]
    · rfl
    · exact hnull a

/-- A violation is read back, whether or not it has a suggestion and a file. -/
theorem Violation.decode_encode {v : Violation} (h : v.path.FitsWords) :
    Violation.decode v.encode = some v := by
  have hsuggestion : Codec.decodeOptional decodeSuggestion (v.suggestion.map encodeSuggestion) =
      some v.suggestion := Codec.decodeOptional_map nofun fun _ => rfl
  have hfile : Codec.decodeOptional Node.string? (v.file.map Node.string) = some v.file :=
    Codec.decodeOptional_map nofun fun _ => rfl
  unfold decode
  rw [recordFields_encode]
  dsimp only
  rw [v.severity.decode_string_name, DocPath.decode_encode h, hsuggestion, hfile]

theorem Report.decode_encode {r : Report} (h : r.FitsWords) : decode r.encode = some r := by
  have hfields : Codec.recordFields ["violations", "documents_checked"] r.encode =
      some [some (.array (r.violations.map Violation.encode)), some (.int r.documentsChecked)] :=
    rfl
  have hviolations : Codec.decodeArray Violation.decode
      (.array (r.violations.map Violation.encode)) = some r.violations :=
    Codec.decodeAll_map fun v hv => Violation.decode_encode (h.paths v hv)
  unfold decode
  rw [hfields]
  dsimp only
  rw [hviolations, Codec.decodeWord_int h.documentsChecked]

/-! ## What is read fits words -/

theorem Codec.lt_of_decodeWord {node : Node} {n : Nat} (h : decodeWord node = some n) :
    n < Word.limit := by
  unfold decodeWord at h
  split at h
  · split at h
    · next hrange =>
      obtain rfl := Option.some.inj h
      omega
    · simp at h
  · simp at h

/-- What holds of every value that is read holds of all elements of an array that is read. -/
theorem Codec.forall_of_decodeArray {α : Type} {decode : Node → Option α} {p : α → Prop}
    (hp : ∀ node value, decode node = some value → p value) {node : Node} {values : List α}
    (h : decodeArray decode node = some values) : ∀ value ∈ values, p value := by
  obtain ⟨items, -, hitems⟩ := Option.bind_eq_some_iff.mp h
  clear h
  induction items generalizing values with
  | nil =>
    obtain rfl := Option.some.inj hitems
    simp
  | cons item rest ih =>
    rw [decodeAll] at hitems
    split at hitems
    · next value others hvalue hothers =>
      obtain rfl := Option.some.inj hitems
      exact List.forall_mem_cons.mpr ⟨hp item value hvalue, ih hothers⟩
    · simp at hitems

theorem DocPath.fitsWords_of_decode {node : Node} {path : DocPath}
    (h : DocPath.decode node = some path) : path.FitsWords := by
  refine Codec.forall_of_decodeArray (fun node segment hsegment position hposition => ?_) h
  subst hposition
  unfold Segment.decode at hsegment
  split at hsegment
  · simp at hsegment
  · obtain ⟨n, hn, hindex⟩ := Option.map_eq_some_iff.mp hsegment
    exact Segment.index.inj hindex ▸ Codec.lt_of_decodeWord hn

theorem Violation.fitsWords_of_decode {node : Node} {v : Violation}
    (h : Violation.decode node = some v) : v.path.FitsWords := by
  unfold Violation.decode at h
  split at h
  · split at h
    · next hpath _ _ =>
      obtain rfl := Option.some.inj h
      exact DocPath.fitsWords_of_decode hpath
    · simp at h
  · simp at h

theorem Report.fitsWords_of_decode {node : Node} {r : Report} (h : decode node = some r) :
    r.FitsWords := by
  unfold decode at h
  split at h
  · split at h
    · next hviolations hchecked =>
      obtain rfl := Option.some.inj h
      exact ⟨Codec.forall_of_decodeArray (fun _ _ => Violation.fitsWords_of_decode) hviolations,
        Codec.lt_of_decodeWord hchecked⟩
    · simp at h
  · simp at h

/-! ## The tree form determines the report -/

theorem Segment.same_encode_iff (s t : Segment) : s.encode.same t.encode = true ↔ s = t := by
  cases s <;> cases t <;> simp [encode, Node.same]

/-- Lists are written alike when they are equal, if that is so of their elements. -/
theorem Codec.sameItems_map_iff {α : Type} {encode : α → Node}
    (h : ∀ a b, (encode a).same (encode b) = true ↔ a = b) (xs ys : List α) :
    Node.sameItems (xs.map encode) (ys.map encode) = true ↔ xs = ys := by
  induction xs generalizing ys with
  | nil => cases ys <;> simp [Node.sameItems]
  | cons x rest ih => cases ys <;> simp [Node.sameItems, h, ih]

theorem DocPath.same_encode_iff (p q : DocPath) : p.encode.same q.encode = true ↔ p = q :=
  Codec.sameItems_map_iff Segment.same_encode_iff p q

theorem Severity.name_injective {s t : Severity} (h : s.name = t.name) : s = t := by
  have hs := Severity.ofName?_name s
  rw [h, Severity.ofName?_name t] at hs
  exact (Option.some.inj hs).symm

theorem Violation.same_encode_iff (v w : Violation) : v.encode.same w.encode = true ↔ v = w := by
  obtain ⟨code, rule, severity, path, message, suggestion, file⟩ := v
  obtain ⟨code', rule', severity', path', message', suggestion', file'⟩ := w
  have hseverity : severity.name = severity'.name ↔ severity = severity' :=
    ⟨Severity.name_injective, congrArg Severity.name⟩
  cases suggestion <;> cases file <;> cases suggestion' <;> cases file' <;>
    simp [encode, encodeSuggestion, Node.same, Node.sameFields, Fields.get?,
      DocPath.same_encode_iff, hseverity]

theorem Report.same_encode_iff (r s : Report) : r.encode.same s.encode = true ↔ r = s := by
  obtain ⟨violations, checked⟩ := r
  obtain ⟨violations', checked'⟩ := s
  simp [encode, Node.same, Node.sameFields, Fields.get?,
    Codec.sameItems_map_iff Violation.same_encode_iff]

/-- Writing a report and reading it back gives the same report exactly when its numbers fit words,
and no two reports have the same tree form. -/
theorem Report.decode_encode_eq_self_iff (r : Report) :
    (decode r.encode = some r ↔ r.FitsWords) ∧
      ∀ s : Report, s.encode.same r.encode = true ↔ s = r :=
  ⟨⟨fitsWords_of_decode, decode_encode⟩, fun s => same_encode_iff s r⟩

/-- Violations at the last position that fits a word and at a key with the text of a position,
in a file whose name is not ASCII and in none. -/
def positionedReport : Report :=
  { violations :=
      [{ code := "OAS002", rule := "path-parameters", severity := .error,
         path := [.key "paths", .index 18446744073709551615], message := "é",
         suggestion := some "", file := some "übersicht.yaml" },
       { code := "OAS010", rule := "operation-tag-defined", severity := .info,
         path := [.key "0", .index 0], message := "" }]
    documentsChecked := 18446744073709551615 }

example : Report.decode positionedReport.encode = some positionedReport := by decide +kernel

example : Segment.encode (.key "0") ≠ Segment.encode (.index 0) := nofun

end ApiLint
