import ApiLint.DocPath
set_option autoImplicit false

/-!
# Steps counted from the end of a path

The step `n` places before the last is looked up by taking a word, `n + 1`, off the length of the
path.  Where the word does not overflow, the step is found, or there is none.  For the greatest
`n` the sum is zero, so that the position is the length of the path, where no step is: the lookup
fails, whatever the path.
-/

namespace ApiLint.DocPath

/-- The step at the position `n` before the last one, if the path has more than `n` steps. -/
def fromEnd? (path : DocPath) (n : Nat) : Option Segment :=
  if h : n < path.length then some path[path.length - 1 - n] else none

theorem fromEnd?_eq_reverse (path : DocPath) (n : Nat) : path.fromEnd? n = path.reverse[n]? := by
  rw [fromEnd?]
  split
  · next h => rw [List.getElem?_reverse h, List.getElem?_eq_getElem]
  · next h => rw [List.getElem?_eq_none (by simpa using h)]

theorem fromEnd?_zero (path : DocPath) : path.fromEnd? 0 = path.last? := by
  rw [fromEnd?_eq_reverse, last?, ← List.head?_eq_getElem?, List.head?_reverse]

/-- A step that is appended moves all others one place further from the end. -/
theorem fromEnd?_child (path : DocPath) (segment : Segment) (n : Nat) :
    (path.child segment).fromEnd? (n + 1) = path.fromEnd? n := by
  rw [fromEnd?_eq_reverse, fromEnd?_eq_reverse, child, List.reverse_concat, List.getElem?_cons_succ]

/-! ## Counting with words -/

section Words

variable {n : UInt64}

theorem toNat_add_one_of_lt (h : n.toNat + 1 < Word.limit) : (n + 1).toNat = n.toNat + 1 := by
  rw [UInt64.toNat_add]
  exact Nat.mod_eq_of_lt h

theorem toNat_add_one_of_eq (h : n.toNat + 1 = Word.limit) : (n + 1).toNat = 0 := by
  rw [UInt64.toNat_add]
  exact Nat.mod_eq_zero_of_dvd ⟨1, h⟩

/-- One more than a word fits a word, or is the first number that does not. -/
theorem succ_toNat_lt_or_eq (n : UInt64) : n.toNat + 1 < Word.limit ∨ n.toNat + 1 = Word.limit :=
  Nat.lt_or_eq_of_le n.toNat_lt

variable (path : DocPath)

theorem nthBack_of_lt (h : n.toNat + 1 < Word.limit) :
    path.nthBack n = .ok (path.fromEnd? n.toNat) := by
  rw [nthBack, toNat_add_one_of_lt h, fromEnd?]
  split
  · next hshort => rw [dif_neg (by omega)]
  · next hlong =>
    have hin : path.length - (n.toNat + 1) < path.length := by omega
    have hposition : path.length - (n.toNat + 1) = path.length - 1 - n.toNat := by omega
    rw [dif_pos (by omega), List.getElem?_eq_getElem hin]
    simp only [hposition]

/-- For the greatest word the position counted to is the length of the path. -/
theorem nthBack_of_eq (h : n.toNat + 1 = Word.limit) : path.nthBack n = .error .outOfRange := by
  rw [nthBack, toNat_add_one_of_eq h, if_neg (Nat.not_lt_zero _), Nat.sub_zero,
    List.getElem?_eq_none (Nat.le_refl _)]

theorem nthBack_eq_ok_iff :
    path.nthBack n = .ok (path.fromEnd? n.toNat) ↔ n.toNat + 1 < Word.limit := by
  rcases succ_toNat_lt_or_eq n with hn | hn
  · exact iff_of_true (nthBack_of_lt path hn) hn
  · rw [nthBack_of_eq path hn]
    exact iff_of_false (fun heq => nomatch heq) (hn ▸ Nat.lt_irrefl _)

theorem nthBack_eq_error_iff :
    path.nthBack n = .error .outOfRange ↔ n.toNat + 1 = Word.limit := by
  rcases succ_toNat_lt_or_eq n with hn | hn
  · rw [nthBack_of_lt path hn]
    exact iff_of_false (fun heq => nomatch heq) (Nat.ne_of_lt hn)
  · exact iff_of_true (nthBack_of_eq path hn) hn

/-- The key counted back to is read off the step counted back to. -/
theorem map_nthBack_eq_keyBack? (h : n.toNat + 1 < Word.limit) :
    (path.nthBack n).map (·.bind Segment.key?) = .ok (path.keyBack? n.toNat) := by
  rw [nthBack_of_lt path h, fromEnd?_eq_reverse]
  rfl

theorem nthBack_child_of_lt (segment : Segment) (h : n.toNat + 2 < Word.limit) :
    (path.child segment).nthBack (n + 1) = path.nthBack n := by
  have hn : n.toNat + 1 < Word.limit := by omega
  have hnext : (n + 1).toNat + 1 < Word.limit := by
    rw [toNat_add_one_of_lt hn]
    exact h
  rw [nthBack_of_lt _ hnext, nthBack_of_lt _ hn, toNat_add_one_of_lt hn, fromEnd?_child]

/-- At the greatest word and at the one before it, one of the two lookups fails. -/
theorem nthBack_child_ne (segment : Segment) (h : Word.limit ≤ n.toNat + 2) :
    (path.child segment).nthBack (n + 1) ≠ path.nthBack n := by
  rcases succ_toNat_lt_or_eq n with hn | hn
  · have hnext : (n + 1).toNat + 1 = Word.limit := by
      rw [toNat_add_one_of_lt hn]
      omega
    rw [nthBack_of_eq _ hnext, nthBack_of_lt _ hn]
    exact fun heq => nomatch heq
  · have hnext : (n + 1).toNat + 1 < Word.limit := by
      rw [toNat_add_one_of_eq hn]
      decide
    rw [nthBack_of_lt _ hnext, nthBack_of_eq _ hn]
    exact fun heq => nomatch heq

end Words

/-- For every word but the greatest, the lookup gives the step at the position counted to, or none
when the path is not that long; for the greatest it fails, on every path.  Zero counts to the last
step, and a step that is appended moves the others one place further, as long as both counts are
below the greatest word. -/
theorem nthBack_counts_from_end (path : DocPath) (n : UInt64) :
    (path.nthBack n = .ok (path.fromEnd? n.toNat) ↔ n.toNat + 1 < Word.limit) ∧
      (path.nthBack n = .error .outOfRange ↔ n.toNat + 1 = Word.limit) ∧
      path.nthBack 0 = .ok path.last? ∧
      ∀ segment : Segment,
        (path.child segment).nthBack (n + 1) = path.nthBack n ↔ n.toNat + 2 < Word.limit := by
  refine ⟨nthBack_eq_ok_iff path, nthBack_eq_error_iff path, ?_, fun segment => ⟨?_, ?_⟩⟩
  · rw [← fromEnd?_zero]
    exact nthBack_of_lt path (by decide)
  · intro heq
    exact Nat.lt_of_not_le fun hn => nthBack_child_ne path segment hn heq
  · exact nthBack_child_of_lt path segment

/-- So there are paths and words for which the lookup has no answer. -/
theorem exists_nthBack_outOfRange :
    ¬ ∀ (path : DocPath) (n : UInt64), ∃ segment, path.nthBack n = .ok segment := by
  intro h
  obtain ⟨segment, hsegment⟩ := h (keys [] ["components", "responses"]) 18446744073709551615
  rw [nthBack_of_eq _ (by decide)] at hsegment
  cases hsegment

end ApiLint.DocPath
