set_option autoImplicit false

/-!
# Text for a terminal

A text for a terminal holds sequences that control it beside the characters that it shows.
`plain` keeps what is shown, for an output that is no terminal.  A sequence begins with the
escape character, and how it goes on decides where it ends; one that does not end takes the
rest of the text, or all before the next escape character.
-/

namespace ApiLint.Text

/-! ## Styles -/

/-- The escape character. -/
def escapeChar : Char := '\x1b'

/-- Bold text. -/
def bold (s : String) : String := "\x1b[1m" ++ s ++ "\x1b[0m"

/-- Bold and underlined text. -/
def boldUnderlined (s : String) : String := "\x1b[1m\x1b[4m" ++ s ++ "\x1b[0m"

/-! ## Classes of characters -/

/-- A blank among the control characters of ASCII. -/
def isControlBlank (c : Char) : Bool := c == '\t' || c == '\n' || c == '\x0c' || c == '\r'

/-- A character that a terminal shows; beyond ASCII it shows all. -/
def isShown (c : Char) : Bool := (0x20 ≤ c.toNat && c.toNat ≠ 0x7f) || isControlBlank c

/-- A character that may stand between the start of a sequence and its last character. -/
def isIntermediate (c : Char) : Bool := 0x20 ≤ c.toNat && c.toNat ≤ 0x2f

/-- A character of the parameters of a sequence. -/
def isParameter (c : Char) : Bool := 0x30 ≤ c.toNat && c.toNat ≤ 0x3f

/-- A character that ends a sequence with parameters. -/
def isFinal (c : Char) : Bool := 0x40 ≤ c.toNat && c.toNat ≤ 0x7e

/-- The octet that ends a string, also where it is part of a character. -/
def stringEnd : UInt8 := 0x9c

/-! ## Sequences -/

/-- Where in a sequence a character stands. -/
inductive ControlPlace where
  /-- in none -/
  | outside
  /-- behind the escape character -/
  | escape
  /-- behind the escape character and intermediate ones -/
  | escapeIntermediate
  /-- in a sequence with parameters, to its final character -/
  | parameters
  /-- at the start of a string for a device -/
  | device
  /-- in the parameters of a string for a device -/
  | deviceParameters
  /-- behind the parameters of a string for a device -/
  | deviceIntermediate
  /-- in a string -/
  | string
  /-- in a command to the system, which a bell ends too -/
  | command
  deriving DecidableEq, Repr, Inhabited

namespace ControlPlace

/-- The place behind a character that follows the escape character. -/
def afterEscape (c : Char) : ControlPlace :=
  if isIntermediate c then escapeIntermediate
  else if c = '[' then parameters
  else if c = ']' then command
  else if c = 'P' then device
  else if c = 'X' ∨ c = '^' ∨ c = '_' then string
  else if isParameter c || isFinal c then outside
  else escape

/-- The place behind a character that is neither an escape character nor a cancellation. -/
def continued : ControlPlace → Char → ControlPlace
  | outside, _ => outside
  | escape, c => afterEscape c
  | escapeIntermediate, c => if isParameter c || isFinal c then outside else escapeIntermediate
  | parameters, c => if isFinal c then outside else parameters
  | device, c =>
    if isIntermediate c then deviceIntermediate
    else if isParameter c then deviceParameters
    else if isFinal c then string
    else device
  | deviceParameters, c =>
    if isIntermediate c then deviceIntermediate
    else if ('<' ≤ c && c ≤ '?') || isFinal c then string
    else deviceParameters
  | deviceIntermediate, c => if isParameter c || isFinal c then string else deviceIntermediate
  | string, c => if (String.utf8EncodeChar c).contains stringEnd then outside else string
  | command, c => if c = '\x07' then outside else command

/-- The place behind a character.  An escape character begins a sequence wherever it stands,
and two control characters cancel any. -/
def next (place : ControlPlace) (c : Char) : ControlPlace :=
  if c = escapeChar then escape
  else if c = '\x18' ∨ c = '\x1a' then outside
  else place.continued c

/-- The character is shown where it stands: outside of sequences, or as a blank in one that is no
string. -/
def shows (place : ControlPlace) (c : Char) : Bool :=
  match place with
  | outside => isShown c
  | escape => isControlBlank c
  | escapeIntermediate => isControlBlank c
  | parameters => isControlBlank c
  | _ => false

end ControlPlace

/-! ## What is shown -/

/-- What is shown of a text behind a place.  `showing` tells that the character before is shown:
then so are those that follow, until a control character takes up the sequence that they
stand in. -/
def shownChars : ControlPlace → Bool → List Char → List Char
  | _, _, [] => []
  | place, showing, c :: rest =>
    if if showing then isShown c else place.shows c then
      c :: shownChars (if c.toNat < 0x80 then place else .outside) true rest
    else shownChars (place.next c) false rest

/-- The text as it is shown, without sequences and control characters. -/
def plain (s : String) : String := String.ofList (shownChars .outside false s.toList)

/-! ## Lemmas -/

theorem shownChars_outside {text : List Char} (h : ∀ c ∈ text, isShown c = true)
    (showing : Bool) : shownChars .outside showing text = text := by
  induction text generalizing showing with
  | nil => rfl
  | cons c rest ih =>
    have hc : isShown c = true := h c (by simp)
    have hr : ∀ d ∈ rest, isShown d = true := fun d hd => h d (by simp [hd])
    cases showing <;> simp [shownChars, ControlPlace.shows, hc, ih hr]

theorem plain_eq_self {s : String} (h : ∀ c ∈ s.toList, isShown c = true) : plain s = s := by
  simp [plain, shownChars_outside h]

end ApiLint.Text
