set_option autoImplicit false

/-!
# Glob patterns

A pattern is a sequence of tokens.  `?` stands for any character, `*` for any text, a
class in brackets for one character in it or, after `!`, not in it.  `**` must be a
whole component; it stands for any number of whole components, or for all the rest of
a path.  Matching keeps the set of positions that the tokens so far can lead to, so
it takes one pass over the text for each token.
-/

namespace ApiLint.Glob

/-- An element of a class: the characters between two, ends included. -/
structure CharRange where
  first : Char
  last : Char
  deriving DecidableEq, Repr, Inhabited

/-- The character lies in the range. -/
def CharRange.contains (range : CharRange) (c : Char) : Bool := range.first ≤ c && c ≤ range.last

/-- A piece of a pattern. -/
inductive Token where
  /-- a character that stands for itself -/
  | literal (c : Char)
  /-- one character, whatever it is -/
  | anyChar
  /-- any text, also none -/
  | anySequence
  /-- any number of components, each with its separator, or all the rest -/
  | anyComponents
  /-- one character of a class -/
  | within (ranges : List CharRange)
  /-- one character that is not of a class -/
  | without (ranges : List CharRange)
  deriving DecidableEq, Repr, Inhabited

/-- A compiled pattern. -/
abbrev Pattern := List Token

/-- Why patterns cannot be expanded. -/
inductive Fault where
  /-- the text is no pattern -/
  | invalidPattern
  /-- a match cannot be read -/
  | unreadableMatch
  deriving DecidableEq, Repr, Inhabited

/-- The message of a fault. -/
def Fault.message : Fault → String
  | invalidPattern => "Invalid glob pattern"
  | unreadableMatch => "Failed to read glob match"

/-! ## Reading a pattern -/

/-- The elements of a class.  A hyphen between two characters makes a range; any other hyphen
stands for itself. -/
def classRanges : List Char → List CharRange
  | first :: '-' :: last :: rest => ⟨first, last⟩ :: classRanges rest
  | c :: rest => ⟨c, c⟩ :: classRanges rest
  | [] => []

/-- Splits a text at its first closing bracket. -/
def untilBracket : List Char → Option (List Char × List Char)
  | [] => none
  | c :: rest =>
    if c = ']' then some ([], rest)
    else (untilBracket rest).map fun (before, after) => (c :: before, after)

/-- Reads a class behind its opening bracket.  Its first character belongs to it even if it is
a closing bracket. -/
def readClass : List Char → Option (Token × List Char)
  | '!' :: c :: rest =>
    (untilBracket rest).map fun (more, after) => (.without (classRanges (c :: more)), after)
  | '!' :: [] => none
  | c :: rest =>
    (untilBracket rest).map fun (more, after) => (.within (classRanges (c :: more)), after)
  | [] => none

/-- Reads what begins with a star; `isStart` tells that a component begins here. -/
def readStars (isStart : Bool) : List Char → Option (Token × List Char)
  | '*' :: '*' :: '*' :: _ => none
  | '*' :: '*' :: '/' :: rest => if isStart then some (.anyComponents, rest) else none
  | '*' :: '*' :: [] => if isStart then some (.anyComponents, []) else none
  | '*' :: '*' :: _ :: _ => none
  | '*' :: rest => some (.anySequence, rest)
  | _ => none

/-- Reads one token. -/
def readToken (isStart : Bool) : List Char → Option (Token × List Char)
  | '?' :: rest => some (.anyChar, rest)
  | '[' :: rest => readClass rest
  | c :: rest => if c = '*' then readStars isStart (c :: rest) else some (.literal c, rest)
  | [] => none

/-- A component begins behind the token. -/
def endsComponent : Token → Bool
  | .literal c => c = '/'
  | .anyComponents => true
  | _ => false

/-- Reads tokens to the end of the text.  Each token takes a character, so the length bounds
the turns. -/
def readTokens : Nat → Bool → List Char → Option Pattern
  | _, _, [] => some []
  | 0, _, _ :: _ => none
  | fuel + 1, isStart, c :: rest =>
    match readToken isStart (c :: rest) with
    | some (token, after) => (readTokens fuel (endsComponent token) after).map (token :: ·)
    | none => none

/-- Reads a pattern. -/
def parse (text : String) : Except Fault Pattern :=
  match readTokens text.toList.length true text.toList with
  | some pattern => .ok pattern
  | none => .error .invalidPattern

/-! ## Matching -/

/-- The positions behind one character with a property. -/
def stepChar (accepts : Char → Bool) : List Char → List Bool → List Bool
  | c :: text, here :: reach => (here && accepts c) :: stepChar accepts text reach
  | _, _ => []

/-- The positions at or behind a position. -/
def stepSequence : Bool → List Bool → List Bool
  | _, [] => []
  | seen, here :: reach => (seen || here) :: stepSequence (seen || here) reach

/-- The positions that whole components lead to: where they begin, behind a separator, and the
end of the text. -/
def stepComponents : Bool → Bool → List Char → List Bool → List Bool
  | seen, arrived, c :: text, here :: reach =>
    (here || arrived) ::
      stepComponents (seen || here) ((seen || here) && c = '/') text reach
  | seen, _, [], here :: _ => [here || seen]
  | _, _, _, [] => []

/-- The positions that a token leads to from the given positions. -/
def advance (text : List Char) (reach : List Bool) : Token → List Bool
  | .literal c => false :: stepChar (· = c) text reach
  | .anyChar => false :: stepChar (fun _ => true) text reach
  | .within ranges => false :: stepChar (fun c => ranges.any (·.contains c)) text reach
  | .without ranges => false :: stepChar (fun c => !ranges.any (·.contains c)) text reach
  | .anySequence => stepSequence false reach
  | .anyComponents => stepComponents false false text reach

/-- The pattern matches the whole text.  No character is special here: wildcards match
separators and leading dots as well. -/
def isMatch (pattern : Pattern) (text : String) : Bool :=
  let chars := text.toList
  let start := true :: chars.map fun _ => false
  (pattern.foldl (advance chars) start).getLast?.getD false

/-! ## Looking at a pattern -/

/-- The text that a pattern without wildcards and classes stands for. -/
def literalText? : Pattern → Option (List Char)
  | [] => some []
  | .literal c :: rest => (literalText? rest).map (c :: ·)
  | _ :: _ => none

/-- The pattern stands for whole components. -/
def isRecursive (pattern : Pattern) : Bool := pattern.contains .anyComponents

end ApiLint.Glob
