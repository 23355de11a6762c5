import ApiLint.Text.CharClass
set_option autoImplicit false

/-!
# Names in paths

Lower snake case, template segments, and the parameters of a path template.
-/

namespace ApiLint.Naming

/-! ## Snake case -/

/-- A lower case ASCII letter. -/
def isLower (c : Char) : Bool := 'a' ≤ c && c ≤ 'z'

/-- A lower case ASCII letter or a digit. -/
def isLowerOrDigit (c : Char) : Bool := isLower c || c.isDigit

/-- Groups of lower case letters and digits, none of them empty, with an underscore between
each two; `group` tells that the current group has a character already. -/
def isSnakeTail (group : Bool) : List Char → Bool
  | [] => group
  | c :: rest =>
    if c = '_' then group && isSnakeTail false rest
    else isLowerOrDigit c && isSnakeTail true rest

/-- A letter, then groups of letters and digits. -/
def isSnakeChars : List Char → Bool
  | [] => false
  | c :: rest => isLower c && isSnakeTail true rest

/-- The name is lower snake case. -/
def isSnakeCase (name : String) : Bool := isSnakeChars name.toList

/-! ## Path templates -/

/-- A segment in braces, such as `{id}`. -/
def isTemplateSegment (segment : String) : Bool :=
  2 ≤ segment.toList.length && segment.toList.head? = some '\x7b' &&
    segment.toList.getLast? = some '\x7d'

/-- The text up to the closing brace and what follows the brace, if the brace comes before
any line feed. -/
def untilClose : List Char → Option (List Char × List Char)
  | [] => none
  | c :: rest =>
    if c = '\x7d' then some ([], rest)
    else if c = '\n' then none
    else
      match untilClose rest with
      | some (name, rest) => some (c :: name, rest)
      | none => none

/-- The parameters of a template from left to right: each opening brace takes the text up to
the next closing brace.  Each turn takes a character, so the length bounds the turns. -/
def scanParameters : Nat → List Char → List (List Char)
  | 0, _ => []
  | _, [] => []
  | fuel + 1, c :: rest =>
    if c = '\x7b' then
      match untilClose rest with
      | some (name, rest) => name :: scanParameters fuel rest
      | none => scanParameters fuel rest
    else scanParameters fuel rest

/-- The names in braces of a path template, in order. -/
def templateParameters (template : String) : List String :=
  (scanParameters template.toList.length template.toList).map String.ofList

/-! ## Lemmas -/

theorem isSnakeTail_append_underscore (group : Bool) (s t : List Char)
    (hs : isSnakeTail group s = true) (ht : isSnakeTail false t = true) :
    isSnakeTail group (s ++ '_' :: t) = true := by
  induction s generalizing group with
  | nil =>
    have hg : group = true := hs
    simp [isSnakeTail, hg, ht]
  | cons c rest ih =>
    rw [List.cons_append, isSnakeTail]
    rw [isSnakeTail] at hs
    split
    · next hc =>
      simp only [hc, if_true, Bool.and_eq_true] at hs
      simp [hs.1, ih _ hs.2]
    · next hc =>
      simp only [hc, if_false, Bool.and_eq_true] at hs
      simp [hs.1, ih _ hs.2]

end ApiLint.Naming
