import ApiLint.OpenApi.Naming
import ApiLint.Proofs.Text.Occurrences
import Mathlib.Computability.Language
set_option autoImplicit false

/-!
# Lower snake case

A name is lower snake case when it matches `[a-z][a-z0-9]*(_[a-z0-9]+)*` as a whole.  The pattern
is a language, built of ranges of characters; the reader of names decides it, character by
character, and has to remember only whether an underscore came just before.  That much is a matter
of neighbours: a name matches when it begins with a letter, has only letters, digits and
underscores, has no two underscores in a row, and does not end in an underscore.
-/

namespace ApiLint.Naming

open scoped Computability

/-! ## The pattern -/

/-- The texts of one character in a range, such as `[a-z]`. -/
def between (lowest highest : Char) : Language Char :=
  {text | ∃ c, text = [c] ∧ lowest ≤ c ∧ c ≤ highest}

/-- The texts of one lower case letter or digit: `[a-z0-9]`. -/
def letterOrDigit : Language Char := between 'a' 'z' + between '0' '9'

/-- The groups behind underscores: `(_[a-z0-9]+)*`. -/
def snakeGroups : Language Char := (between '_' '_' * (letterOrDigit * letterOrDigit∗))∗

/-- The names in lower snake case: `[a-z][a-z0-9]*(_[a-z0-9]+)*`. -/
def snakePattern : Language Char := between 'a' 'z' * letterOrDigit∗ * snakeGroups

/-- What may follow a character of a group: the rest of the group, and other groups. -/
def groupRest : Language Char := letterOrDigit∗ * snakeGroups

/-- The rest of a group is empty or has one more character, or it ends in front of an underscore
and another group. -/
theorem groupRest_eq :
    groupRest = 1 + between '_' '_' * (letterOrDigit * groupRest) + letterOrDigit * groupRest := by
  have hgroups : snakeGroups = 1 + between '_' '_' * (letterOrDigit * groupRest) := by
    calc snakeGroups
        = 1 + between '_' '_' * (letterOrDigit * letterOrDigit∗) * snakeGroups :=
          (Language.one_add_self_mul_kstar_eq_kstar _).symm
      _ = 1 + between '_' '_' * (letterOrDigit * groupRest) := by
          simp only [groupRest, mul_assoc]
  calc groupRest
      = (1 + letterOrDigit * letterOrDigit∗) * snakeGroups := by
        rw [Language.one_add_self_mul_kstar_eq_kstar, groupRest]
    _ = snakeGroups + letterOrDigit * groupRest := by
        rw [add_mul, one_mul, mul_assoc, groupRest]
    _ = 1 + between '_' '_' * (letterOrDigit * groupRest) + letterOrDigit * groupRest := by
        rw [hgroups]

theorem mem_between_mul_iff {lowest highest : Char} {l : Language Char} {text : List Char} :
    text ∈ between lowest highest * l ↔
      ∃ c rest, text = c :: rest ∧ lowest ≤ c ∧ c ≤ highest ∧ rest ∈ l := by
  rw [Language.mem_mul]
  constructor
  · rintro ⟨_, ⟨c, rfl, hc⟩, rest, hrest, rfl⟩
    exact ⟨c, rest, rfl, hc.1, hc.2, hrest⟩
  · rintro ⟨c, rest, rfl, hlowest, hhighest, hrest⟩
    exact ⟨[c], ⟨c, rfl, hlowest, hhighest⟩, rest, hrest, rfl⟩

theorem isLower_iff (c : Char) : isLower c = true ↔ 'a' ≤ c ∧ c ≤ 'z' := by
  simp [isLower]

theorem isLowerOrDigit_iff (c : Char) :
    isLowerOrDigit c = true ↔ 'a' ≤ c ∧ c ≤ 'z' ∨ '0' ≤ c ∧ c ≤ '9' := by
  rw [isLowerOrDigit, Bool.or_eq_true, isLower_iff]
  simp [Char.isDigit, Char.le_def]

theorem cons_mem_letterOrDigit_mul_iff {l : Language Char} {c : Char} {rest : List Char} :
    c :: rest ∈ letterOrDigit * l ↔ isLowerOrDigit c = true ∧ rest ∈ l := by
  rw [letterOrDigit, add_mul, Language.mem_add, mem_between_mul_iff, mem_between_mul_iff,
    isLowerOrDigit_iff]
  simp [or_and_right, and_assoc]

theorem cons_mem_groupRest_iff {c : Char} {rest : List Char} :
    c :: rest ∈ groupRest ↔
      c = '_' ∧ rest ∈ letterOrDigit * groupRest ∨ isLowerOrDigit c = true ∧ rest ∈ groupRest := by
  have hunderscore : ∀ l : Language Char, c :: rest ∈ between '_' '_' * l ↔ c = '_' ∧ rest ∈ l := by
    intro l
    rw [mem_between_mul_iff]
    constructor
    · rintro ⟨_, _, heq, hlowest, hhighest, hrest⟩
      obtain ⟨rfl, rfl⟩ := List.cons.inj heq
      exact ⟨Char.le_antisymm hhighest hlowest, hrest⟩
    · rintro ⟨rfl, hrest⟩
      exact ⟨'_', rest, rfl, Char.le_refl _, Char.le_refl _, hrest⟩
  conv_lhs => rw [groupRest_eq]
  rw [Language.mem_add, Language.mem_add, Language.mem_one, hunderscore,
    cons_mem_letterOrDigit_mul_iff]
  simp

theorem nil_mem_groupRest : [] ∈ groupRest := by
  rw [groupRest_eq]
  exact .inl (.inl rfl)

theorem nil_notMem_letterOrDigit_mul (l : Language Char) : [] ∉ letterOrDigit * l := by
  rw [letterOrDigit, add_mul, Language.mem_add, mem_between_mul_iff, mem_between_mul_iff]
  simp

/-! ## Reading a name -/

/-- The reader goes through the rest of a group, or through a new group when it has none. -/
theorem isSnakeTail_iff (text : List Char) :
    (isSnakeTail true text = true ↔ text ∈ groupRest) ∧
      (isSnakeTail false text = true ↔ text ∈ letterOrDigit * groupRest) := by
  -- an underscore leads from the first state to the second, a letter or digit back to the first
  induction text with
  | nil => simp [isSnakeTail, nil_mem_groupRest, nil_notMem_letterOrDigit_mul]
  | cons c rest ih =>
    rw [cons_mem_groupRest_iff, cons_mem_letterOrDigit_mul_iff, ← ih.1, ← ih.2, isSnakeTail,
      isSnakeTail]
    by_cases hc : c = '_'
    · subst hc
      have hunderscore : isLowerOrDigit '_' = false := by decide
      simp [hunderscore]
    · simp [hc]

theorem isSnakeCase_iff_mem_snakePattern (name : String) :
    isSnakeCase name = true ↔ name.toList ∈ snakePattern := by
  rw [snakePattern, mul_assoc, mem_between_mul_iff, isSnakeCase, ← groupRest]
  cases name.toList with
  | nil => simp [isSnakeChars]
  | cons c rest =>
    rw [isSnakeChars, Bool.and_eq_true, (isSnakeTail_iff rest).1, isLower_iff]
    simp [and_assoc]

/-! ## Neighbours in a name -/

/-- The text has only lower case letters, digits and underscores, and behind each underscore
comes another character that is none. -/
structure IsSpaced (text : List Char) : Prop where
  characters : ∀ c ∈ text, 'a' ≤ c ∧ c ≤ 'z' ∨ '0' ≤ c ∧ c ≤ '9' ∨ c = '_'
  separate : ¬ ['_', '_'] <:+: text
  closed : text.getLast? ≠ some '_'

/-- A spaced text that begins with a letter. -/
structure IsSnakeWord (name : List Char) : Prop extends IsSpaced name where
  letter : ∃ c rest, name = c :: rest ∧ 'a' ≤ c ∧ c ≤ 'z'

theorem isSpaced_nil : IsSpaced [] := by
  constructor <;> simp

theorem not_isSpaced_underscore : ¬ IsSpaced ['_'] := fun h => h.closed rfl

theorem not_isSpaced_underscores (rest : List Char) : ¬ IsSpaced ('_' :: '_' :: rest) :=
  fun h => h.separate ⟨[], rest, rfl⟩

/-- A character in front that is no underscore has to be a letter or digit. -/
theorem isSpaced_cons_iff {c : Char} (hc : c ≠ '_') (rest : List Char) :
    IsSpaced (c :: rest) ↔ isLowerOrDigit c = true ∧ IsSpaced rest := by
  have hseparate : ['_', '_'] <:+: c :: rest ↔ ['_', '_'] <:+: rest :=
    Text.infix_cons_of_notMem (by simp [hc]) rest
  have hclosed : (c :: rest).getLast? = some '_' ↔ rest.getLast? = some '_' := by
    cases rest with
    | nil => simp [hc]
    | cons d rest => rw [List.getLast?_cons_cons]
  have hcharacter : ('a' ≤ c ∧ c ≤ 'z' ∨ '0' ≤ c ∧ c ≤ '9' ∨ c = '_') ↔
      isLowerOrDigit c = true := by
    rw [isLowerOrDigit_iff, ← or_assoc, or_iff_left hc]
  constructor
  · rintro ⟨hcharacters, hrest, hlast⟩
    obtain ⟨hfirst, hothers⟩ := List.forall_mem_cons.mp hcharacters
    exact ⟨hcharacter.mp hfirst, hothers, mt hseparate.mpr hrest, mt hclosed.mpr hlast⟩
  · rintro ⟨hfirst, hothers, hrest, hlast⟩
    exact ⟨List.forall_mem_cons.mpr ⟨hcharacter.mpr hfirst, hothers⟩, mt hseparate.mp hrest,
      mt hclosed.mp hlast⟩

/-- An underscore in front may stand before any other character. -/
theorem isSpaced_underscore_cons_iff {c : Char} (hc : c ≠ '_') (rest : List Char) :
    IsSpaced ('_' :: c :: rest) ↔ IsSpaced (c :: rest) := by
  have hseparate : ['_', '_'] <:+: '_' :: c :: rest ↔ ['_', '_'] <:+: c :: rest := by
    rw [List.infix_cons_iff, or_iff_right]
    intro hprefix
    obtain ⟨_, hprefix⟩ := List.cons_prefix_cons.mp hprefix
    exact hc (List.cons_prefix_cons.mp hprefix).1.symm
  have hclosed : ('_' :: c :: rest).getLast? = (c :: rest).getLast? := List.getLast?_cons_cons
  constructor
  · rintro ⟨hcharacters, hrest, hlast⟩
    exact ⟨(List.forall_mem_cons.mp hcharacters).2, mt hseparate.mpr hrest, hclosed ▸ hlast⟩
  · rintro ⟨hcharacters, hrest, hlast⟩
    exact ⟨List.forall_mem_cons.mpr ⟨.inr (.inr rfl), hcharacters⟩, mt hseparate.mp hrest,
      hclosed ▸ hlast⟩

/-- What the reader remembers is an underscore in front of the text. -/
theorem isSnakeTail_iff_isSpaced (text : List Char) :
    (isSnakeTail true text = true ↔ IsSpaced text) ∧
      (isSnakeTail false text = true ↔ IsSpaced ('_' :: text)) := by
  induction text with
  | nil => simp [isSnakeTail, isSpaced_nil, not_isSpaced_underscore]
  | cons c rest ih =>
    rw [isSnakeTail, isSnakeTail]
    by_cases hc : c = '_'
    · subst hc
      simp [ih.2, not_isSpaced_underscores]
    · rw [isSpaced_underscore_cons_iff hc, isSpaced_cons_iff hc, ← ih.1]
      simp [hc]

theorem ne_underscore_of_isLower {c : Char} (h : isLower c = true) : c ≠ '_' := by
  rintro rfl
  exact absurd h (by decide)

theorem isSnakeCase_iff_isSnakeWord (name : String) :
    isSnakeCase name = true ↔ IsSnakeWord name.toList := by
  rw [isSnakeCase]
  cases name.toList with
  | nil =>
    refine iff_of_false (by decide) fun h => ?_
    obtain ⟨c, rest, hname, _⟩ := h.letter
    cases hname
  | cons c rest =>
    rw [isSnakeChars, Bool.and_eq_true, (isSnakeTail_iff_isSpaced rest).1]
    constructor
    · rintro ⟨hlower, hrest⟩
      have hletter := (isLower_iff c).mp hlower
      have hfirst : isLowerOrDigit c = true := (isLowerOrDigit_iff c).mpr (.inl hletter)
      have hspaced : IsSpaced (c :: rest) :=
        (isSpaced_cons_iff (ne_underscore_of_isLower hlower) rest).mpr ⟨hfirst, hrest⟩
      exact ⟨hspaced, c, rest, rfl, hletter⟩
    · rintro ⟨hspaced, d, others, hname, hletter⟩
      obtain ⟨rfl, rfl⟩ := List.cons.inj hname
      have hlower := (isLower_iff c).mpr hletter
      exact ⟨hlower, ((isSpaced_cons_iff (ne_underscore_of_isLower hlower) rest).mp hspaced).2⟩

/-- A line feed at the end, a letter or digit of another script, and an underscore at the end. -/
example : ["last_seg\n", "größe", "v١", "v1_"].filter isSnakeCase = [] := by decide

/-- Words that are joined by an underscore are one word. -/
theorem isSnakeCase_join {a b : String} (ha : isSnakeCase a = true) (hb : isSnakeCase b = true) :
    isSnakeCase (a ++ "_" ++ b) = true := by
  have hgroup : isSnakeTail false b.toList = true := by
    rw [isSnakeCase] at hb
    cases hchars : b.toList with
    | nil => simp [hchars, isSnakeChars] at hb
    | cons c rest =>
      rw [hchars, isSnakeChars, Bool.and_eq_true] at hb
      rw [isSnakeTail, if_neg (ne_underscore_of_isLower hb.1), isLowerOrDigit, hb.1, hb.2]
      rfl
  have hunderscore : "_".toList = ['_'] := rfl
  rw [isSnakeCase] at ha
  rw [isSnakeCase, String.toList_append, String.toList_append, hunderscore, List.append_assoc,
    List.singleton_append]
  cases hchars : a.toList with
  | nil => simp [hchars, isSnakeChars] at ha
  | cons c rest =>
    rw [hchars, isSnakeChars, Bool.and_eq_true] at ha
    rw [List.cons_append, isSnakeChars, ha.1, isSnakeTail_append_underscore true rest _ ha.2 hgroup]
    rfl

end ApiLint.Naming
