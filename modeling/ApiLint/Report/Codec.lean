import ApiLint.Violation
set_option autoImplicit false

/-!
# The tree form of violations and reports

`encode` gives the tree that a report is written as; `decode` reads such a tree back.
Reading is more generous than writing: a record may also be the array of its fields
in order, unknown fields are ignored, and an optional field may be absent or null.
-/

namespace ApiLint

/-! ## Options and lists -/

namespace Codec

/-- Decodes every element, or fails. -/
def decodeAll {α : Type} (decode : Node → Option α) : List Node → Option (List α)
  | [] => some []
  | item :: rest =>
    match decode item, decodeAll decode rest with
    | some value, some values => some (value :: values)
    | _, _ => none

/-- Decodes a field that may be absent or null. -/
def decodeOptional {α : Type} (decode : Node → Option α) : Option Node → Option (Option α)
  | none => some none
  | some .null => some none
  | some node => (decode node).map some

/-- Decodes an array of values. -/
def decodeArray {α : Type} (decode : Node → Option α) (node : Node) : Option (List α) :=
  node.items?.bind (decodeAll decode)

/-- Decodes a natural that fits 64 bits. -/
def decodeWord : Node → Option Nat
  | .int n => if 0 ≤ n ∧ n < Word.limit then some n.toNat else none
  | _ => none

/-- The fields of a record in the order of `names`, from an object or from an array with no
more elements than there are names.  A field that is not there is none. -/
def recordFields (names : List String) : Node → Option (List (Option Node))
  | .object fields => some (names.map (Fields.get? fields))
  | .array items =>
    if items.length ≤ names.length then
      some ((List.range names.length).map fun i => items[i]?)
    else none
  | _ => none

end Codec

open Codec

/-! ## Paths and severities -/

/-- A step is a string or an integer. -/
def Segment.encode : Segment → Node
  | .key name => .string name
  | .index position => .int position

/-- Reads a step. -/
def Segment.decode : Node → Option Segment
  | .string name => some (.key name)
  | node => (decodeWord node).map Segment.index

/-- A path is the array of its steps. -/
def DocPath.encode (path : DocPath) : Node := .array (path.map Segment.encode)

/-- Reads a path. -/
def DocPath.decode (node : Node) : Option DocPath := decodeArray Segment.decode node

/-- Reads a severity: its name, or an object with that name as its only key and null below. -/
def Severity.decode : Node → Option Severity
  | .string name => Severity.ofName? name
  | .object [(name, .null)] => Severity.ofName? name
  | _ => none

/-! ## Violations -/

namespace Violation

/-- The tree form of a suggestion. -/
def encodeSuggestion (message : String) : Node := .object [("message", .string message)]

/-- Reads a suggestion. -/
def decodeSuggestion (node : Node) : Option String :=
  match recordFields ["message"] node with
  | some [some (.string message)] => some message
  | _ => none

/-- The names of the fields, in order. -/
def fieldNames : List String :=
  ["code", "rule", "severity", "path", "message", "suggestion", "file"]

/-- The tree form of a violation; what is not set is left out. -/
def encode (v : Violation) : Node :=
  .object ([("code", .string v.code), ("rule", .string v.rule),
      ("severity", .string v.severity.name), ("path", v.path.encode),
      ("message", .string v.message)] ++
    (match v.suggestion with
      | some message => [("suggestion", encodeSuggestion message)]
      | none => []) ++
    (match v.file with
      | some file => [("file", .string file)]
      | none => []))

/-- Reads a violation. -/
def decode (node : Node) : Option Violation :=
  match recordFields fieldNames node with
  | some [some (.string code), some (.string rule), some severity, some path,
      some (.string message), suggestion, file] =>
    match Severity.decode severity, DocPath.decode path,
        decodeOptional decodeSuggestion suggestion, decodeOptional Node.string? file with
    | some severity, some path, some suggestion, some file =>
      some { code, rule, severity, path, message, suggestion, file }
    | _, _, _, _ => none
  | _ => none

end Violation

/-! ## Reports -/

namespace Report

/-- The tree form of a report. -/
def encode (r : Report) : Node :=
  .object [("violations", .array (r.violations.map Violation.encode)),
    ("documents_checked", .int r.documentsChecked)]

/-- Reads a report. -/
def decode (node : Node) : Option Report :=
  match recordFields ["violations", "documents_checked"] node with
  | some [some violations, some checked] =>
    match decodeArray Violation.decode violations, decodeWord checked with
    | some violations, some documentsChecked => some { violations, documentsChecked }
    | _, _ => none
  | _ => none

end Report

/-! ## Lemmas -/

theorem Segment.decode_encode {segment : Segment}
    (h : ∀ position, segment = .index position → position < Segment.indexLimit) :
    Segment.decode segment.encode = some segment := by
  cases segment with
  | key name => rfl
  | index position =>
    have hi : (position : Int) < Word.limit := Int.ofNat_lt.mpr (h position rfl)
    simp [Segment.encode, Segment.decode, decodeWord, hi]

theorem Codec.decodeAll_map {α : Type} {encode : α → Node} {decode : Node → Option α}
    {values : List α} (h : ∀ value ∈ values, decode (encode value) = some value) :
    decodeAll decode (values.map encode) = some values := by
  induction values with
  | nil => rfl
  | cons value rest ih =>
    have hv := h value (by simp)
    have hr := ih fun w hw => h w (by simp [hw])
    simp [decodeAll, hv, hr]

end ApiLint
