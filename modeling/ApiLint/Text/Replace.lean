set_option autoImplicit false

/-!
# Replacing text
-/

namespace ApiLint.Text

/-- The text with the first occurrence of `pattern` replaced, if there is one. -/
def replaceFirst (pattern replacement : List Char) : List Char → List Char
  | [] => []
  | c :: text =>
    if pattern.isPrefixOf (c :: text) then replacement ++ (c :: text).drop pattern.length
    else c :: replaceFirst pattern replacement text

/-! ## Lemmas -/

theorem replaceFirst_self (pattern text : List Char) : replaceFirst pattern pattern text = text := by
  induction text with
  | nil => rfl
  | cons c text ih =>
    rw [replaceFirst]
    split
    · rename_i h
      obtain ⟨rest, hrest⟩ := List.isPrefixOf_iff_prefix.mp h
      rw [← hrest, List.drop_left]
    · rw [ih]

theorem replaceFirst_eq_append {pattern : List Char} (replacement rest : List Char)
    (h : pattern ≠ []) : replaceFirst pattern replacement (pattern ++ rest) = replacement ++ rest := by
  obtain ⟨c, cs, rfl⟩ := List.exists_cons_of_ne_nil h
  have hp : (c :: cs).isPrefixOf (c :: (cs ++ rest)) = true :=
    List.isPrefixOf_iff_prefix.mpr ⟨rest, by simp⟩
  rw [List.cons_append, replaceFirst, if_pos hp, ← List.cons_append, List.drop_left]

end ApiLint.Text
