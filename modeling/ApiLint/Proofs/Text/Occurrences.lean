import ApiLint.Text.Replace
import Mathlib.Data.List.Infix
set_option autoImplicit false

/-!
# Occurrences in texts

Where a pattern occurs in a text that is put together of parts, which of its occurrences is the
first, and what replacing the first one makes of the text.
-/

namespace ApiLint.Text

variable {pattern text : List Char}

/-! ## Occurrences in parts of a text -/

theorem prefix_of_prefix_append_cons {c : Char} (hc : c ∉ pattern) (front rest : List Char)
    (h : pattern <+: front ++ c :: rest) : pattern <+: front := by
  obtain ⟨tail, htail⟩ := h
  rcases List.append_eq_append_iff.mp htail with ⟨more, hfront, _⟩ | ⟨more, hpattern, hrest⟩
  · exact ⟨more, hfront.symm⟩
  · cases more with
    | nil =>
      rw [List.append_nil] at hpattern
      exact hpattern ▸ List.prefix_rfl
    | cons d more =>
      obtain ⟨rfl, _⟩ := List.cons.inj hrest
      exact absurd (hpattern ▸ List.mem_append_right front List.mem_cons_self) hc

/-- A pattern does not reach across a character that it does not have. -/
theorem infix_append_cons_iff {c : Char} (hc : c ∉ pattern) (front rest : List Char) :
    pattern <:+: front ++ c :: rest ↔ pattern <:+: front ∨ pattern <:+: rest := by
  constructor
  · intro h
    rcases List.infix_append_iff_ne_nil.mp h with
      hfront | hrest | ⟨left, right, _, hright, rfl, _, hprefix⟩
    · exact .inl hfront
    · rcases List.infix_cons_iff.mp hrest with hprefix | hrest
      · rcases List.prefix_cons_iff.mp hprefix with rfl | ⟨tail, rfl, _⟩
        · exact .inl List.nil_infix
        · exact absurd List.mem_cons_self hc
      · exact .inr hrest
    · rcases List.prefix_cons_iff.mp hprefix with rfl | ⟨tail, rfl, _⟩
      · exact absurd rfl hright
      · exact absurd (List.mem_append_right left List.mem_cons_self) hc
  · rintro (hfront | hrest)
    · exact List.infix_append_of_infix_left hfront
    · exact List.infix_append_of_infix_right (List.infix_cons hrest)

/-- A character that the pattern does not have may be left out in front. -/
theorem infix_cons_of_notMem {c : Char} (hc : c ∉ pattern) (rest : List Char) :
    pattern <:+: c :: rest ↔ pattern <:+: rest := by
  have h := infix_append_cons_iff hc [] rest
  rw [List.nil_append, List.infix_nil] at h
  rw [h]
  constructor
  · rintro (rfl | hrest)
    · exact List.nil_infix
    · exact hrest
  · exact .inr

/-- A pattern that begins with two blanks does not begin in front of a blank where no two blanks
come together. -/
theorem infix_append_blank_iff {tail : List Char} (hpattern : pattern = ' ' :: ' ' :: tail)
    {front : List Char} (hfront : ¬ [' ', ' '] <:+: front ++ [' ']) (rest : List Char) :
    pattern <:+: front ++ ' ' :: rest ↔ pattern <:+: ' ' :: rest := by
  induction front with
  | nil => rfl
  | cons c front ih =>
    have hinner : ¬ [' ', ' '] <:+: front ++ [' '] := fun h => hfront (List.infix_cons h)
    rw [List.cons_append, List.infix_cons_iff, ih hinner, or_iff_right]
    intro hprefix
    rw [hpattern, List.cons_prefix_cons] at hprefix
    obtain ⟨rfl, hprefix⟩ := hprefix
    refine hfront (List.IsPrefix.isInfix ?_)
    cases front with
    | nil => exact List.prefix_rfl
    | cons d front =>
      rw [List.cons_append, List.cons_prefix_cons] at hprefix
      obtain ⟨rfl, _⟩ := hprefix
      exact ⟨front ++ [' '], rfl⟩

/-! ## First occurrences -/

/-- The pattern occurs in the text between two parts, and nowhere before. -/
structure FirstOccurrence (pattern text before after : List Char) : Prop where
  eq : text = before ++ pattern ++ after
  first : ∀ earlier later, text = earlier ++ pattern ++ later → before.length ≤ earlier.length

theorem FirstOccurrence.here {after : List Char} :
    FirstOccurrence pattern (pattern ++ after) [] after :=
  ⟨rfl, fun _ _ _ => Nat.zero_le _⟩

theorem FirstOccurrence.cons {before after : List Char} {c : Char}
    (hhere : ¬ pattern <+: c :: text) (h : FirstOccurrence pattern text before after) :
    FirstOccurrence pattern (c :: text) (c :: before) after := by
  refine ⟨by rw [h.eq]; rfl, fun earlier later heq => ?_⟩
  cases earlier with
  | nil => exact absurd ⟨later, heq.symm⟩ hhere
  | cons d earlier =>
    obtain ⟨_, heq⟩ := List.cons.inj heq
    exact Nat.succ_le_succ (h.first earlier later heq)

/-- A pattern that occurs has a first occurrence, and this is the one that is replaced. -/
theorem exists_firstOccurrence (hpattern : pattern ≠ []) (h : pattern <:+: text)
    (replacement : List Char) :
    ∃ before after, FirstOccurrence pattern text before after ∧
      replaceFirst pattern replacement text = before ++ replacement ++ after := by
  induction text with
  | nil => exact absurd (List.infix_nil.mp h) hpattern
  | cons c text ih =>
    by_cases hhere : pattern <+: c :: text
    · obtain ⟨after, hafter⟩ := hhere
      rw [← hafter]
      exact ⟨[], after, .here, replaceFirst_eq_append replacement after hpattern⟩
    · obtain ⟨before, after, hfirst, hreplace⟩ :=
        ih ((List.infix_cons_iff.mp h).resolve_left hhere)
      refine ⟨c :: before, after, hfirst.cons hhere, ?_⟩
      rw [replaceFirst, if_neg (mt List.isPrefixOf_iff_prefix.mp hhere), hreplace]
      rfl

/-! ## Replacing in one part of a text -/

/-- When the pattern occurs in the first part, the second part is left as it is. -/
theorem replaceFirst_append_of_infix {front : List Char} (h : pattern <:+: front)
    (replacement rest : List Char) (hpattern : pattern ≠ []) :
    replaceFirst pattern replacement (front ++ rest) =
      replaceFirst pattern replacement front ++ rest := by
  induction front with
  | nil => exact absurd (List.infix_nil.mp h) hpattern
  | cons c front ih =>
    by_cases hhere : pattern <+: c :: front
    · obtain ⟨after, hafter⟩ := hhere
      rw [← hafter, List.append_assoc, replaceFirst_eq_append _ _ hpattern,
        replaceFirst_eq_append _ _ hpattern, List.append_assoc]
    · have hinner := (List.infix_cons_iff.mp h).resolve_left hhere
      have hlonger : ¬ pattern <+: c :: (front ++ rest) := fun hprefix => hhere <|
        List.prefix_of_prefix_length_le hprefix (List.prefix_append (c :: front) rest)
          (hinner.length_le.trans (Nat.le_succ _))
      rw [List.cons_append, replaceFirst, if_neg (mt List.isPrefixOf_iff_prefix.mp hlonger),
        ih hinner, replaceFirst, if_neg (mt List.isPrefixOf_iff_prefix.mp hhere),
        List.cons_append]

/-- When the pattern does not occur in a first part that ends in a character that the pattern does
not have, this part is left as it is. -/
theorem replaceFirst_append_cons {front : List Char} (h : ¬ pattern <:+: front) {c : Char}
    (hc : c ∉ pattern) (replacement rest : List Char) :
    replaceFirst pattern replacement (front ++ c :: rest) =
      front ++ c :: replaceFirst pattern replacement rest := by
  induction front with
  | nil =>
    have hhere : ¬ pattern <+: c :: rest := fun hprefix =>
      h (prefix_of_prefix_append_cons hc [] rest hprefix).isInfix
    rw [List.nil_append, replaceFirst, if_neg (mt List.isPrefixOf_iff_prefix.mp hhere),
      List.nil_append]
  | cons d front ih =>
    have hhere : ¬ pattern <+: d :: (front ++ c :: rest) := fun hprefix =>
      h (prefix_of_prefix_append_cons hc (d :: front) rest hprefix).isInfix
    rw [List.cons_append, replaceFirst, if_neg (mt List.isPrefixOf_iff_prefix.mp hhere),
      ih fun hinner => h (List.infix_cons hinner), List.cons_append]

end ApiLint.Text
