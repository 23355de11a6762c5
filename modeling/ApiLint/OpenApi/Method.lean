set_option autoImplicit false

/-!
# Operation methods

The eight keys under which a path item holds its operations.  Keys are matched
exactly: `GET` names no operation.
-/

namespace ApiLint

/-- The method of an operation. -/
inductive Method where
  | get
  | put
  | post
  | delete
  | options
  | head
  | patch
  | trace
  deriving DecidableEq, Repr, Inhabited

/-- A key that names no method. -/
structure UnknownMethod where
  key : String
  deriving DecidableEq, Repr, Inhabited

/-- The message for a key that names no method. -/
def UnknownMethod.message (fault : UnknownMethod) : String :=
  "not an operation method: " ++ fault.key

namespace Method

/-- Every method, in the order of the specification. -/
def all : List Method := [get, put, post, delete, options, head, patch, trace]

/-- The key of a method. -/
def key : Method → String
  | get => "get"
  | put => "put"
  | post => "post"
  | delete => "delete"
  | options => "options"
  | head => "head"
  | patch => "patch"
  | trace => "trace"

/-- The method with a key. -/
def ofKey? (key : String) : Option Method := all.find? (·.key = key)

/-- Reads the key of a method. -/
def parse (key : String) : Except UnknownMethod Method :=
  match ofKey? key with
  | some method => .ok method
  | none => .error ⟨key⟩

/-- A key of a path item that holds an operation. -/
def isOperationKey (key : String) : Bool := (ofKey? key).isSome

/-! ## Lemmas -/

theorem mem_all (m : Method) : m ∈ all := by cases m <;> decide

theorem ofKey?_key (m : Method) : ofKey? m.key = some m := by cases m <;> decide

theorem key_eq_of_ofKey? {key : String} {m : Method} (h : ofKey? key = some m) :
    m.key = key := by
  have hm := List.find?_some h
  exact of_decide_eq_true hm

theorem ofKey?_eq_some_iff {key : String} {m : Method} : ofKey? key = some m ↔ m.key = key :=
  ⟨key_eq_of_ofKey?, fun h => h ▸ ofKey?_key m⟩

theorem isOperationKey_key (m : Method) : isOperationKey m.key = true := by
  rw [isOperationKey, ofKey?_key, Option.isSome_some]

theorem exists_key_eq {key : String} (h : isOperationKey key = true) :
    ∃ m : Method, m.key = key := by
  obtain ⟨m, hm⟩ := Option.isSome_iff_exists.mp h
  exact ⟨m, key_eq_of_ofKey? hm⟩

end Method

end ApiLint
