import ApiLint.Text.CharClass
set_option autoImplicit false

/-!
# Severities and levels

A violation has a severity.  A configured level is a severity or `off`, which
silences what it is given to.  Names are read in two ways: a value of a
configuration file or of JSON must be the exact name, while the level of a check
option may be padded, in any case, and abbreviated to `warn`.
-/

namespace ApiLint

/-- How grave a violation is, least first. -/
inductive Severity where
  /-- a stylistic nudge -/
  | hint
  /-- informational -/
  | info
  /-- should be addressed -/
  | warning
  /-- must be fixed -/
  | error
  deriving DecidableEq, Repr, Inhabited

namespace Severity

/-- All severities, gravest first. -/
def all : List Severity := [error, warning, info, hint]

/-- The place in the order of gravity. -/
def rank : Severity → Nat
  | hint => 0
  | info => 1
  | warning => 2
  | error => 3

/-- `s` is at least as grave as `t`. -/
def atLeast (s t : Severity) : Bool := t.rank ≤ s.rank

/-- The graver of two severities. -/
def max (s t : Severity) : Severity := if s.atLeast t then s else t

/-- The name of a severity. -/
def name : Severity → String
  | hint => "hint"
  | info => "info"
  | warning => "warning"
  | error => "error"

/-- The severity with exactly this name. -/
def ofName? (s : String) : Option Severity := all.find? (·.name = s)

end Severity

/-- A configured level: a severity, or nothing at all. -/
inductive Level where
  | off
  | report (severity : Severity)
  deriving DecidableEq, Repr, Inhabited

/-- A text that is not the name of a level. -/
structure UnknownLevel where
  text : String
  deriving DecidableEq, Repr, Inhabited

/-- The message for an unknown level. -/
def UnknownLevel.message (fault : UnknownLevel) : String :=
  "unknown level `" ++ fault.text ++ "`, expected: error, warning, info, hint, off"

namespace Level

/-- The severity of a level that is not off. -/
def severity? : Level → Option Severity
  | off => none
  | .report severity => some severity

/-- The name of a level. -/
def name : Level → String
  | off => "off"
  | .report severity => severity.name

/-- The level with exactly this name. -/
def ofName? (s : String) : Option Level :=
  if s = "off" then some off else (Severity.ofName? s).map Level.report

/-- Reads the level of a check option: blank ends and ASCII case do not matter, and `warn`
stands for `warning`. -/
def parse (s : String) : Except UnknownLevel Level :=
  let word := Text.asciiLower (Text.trim s)
  if word = "warn" then .ok (.report .warning)
  else
    match ofName? word with
    | some level => .ok level
    | none => .error ⟨s⟩

end Level

/-! ## Lemmas -/

theorem Severity.ofName?_name (s : Severity) : Severity.ofName? s.name = some s := by
  cases s <;> decide

theorem Level.ofName?_name (l : Level) : Level.ofName? l.name = some l := by
  cases l with
  | off => rfl
  | report s => cases s <;> decide

theorem Severity.atLeast_refl (s : Severity) : s.atLeast s = true := by
  cases s <;> rfl

theorem Severity.atLeast_trans {s t u : Severity} (h : s.atLeast t = true)
    (h' : t.atLeast u = true) : s.atLeast u = true := by
  simp only [Severity.atLeast, decide_eq_true_eq] at *
  omega

end ApiLint
