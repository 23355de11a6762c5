import ApiLint.Proofs.Lists
import ApiLint.Text.CharClass
set_option autoImplicit false

/-!
# Pieces between separators

A text is split at every separator.  Which pieces come out is said without splitting it: a piece
is a part of the text that has no separator, and on either side of it is an end of the text or a
separator.
-/

namespace ApiLint.Text

variable {separator : Char} {text line rest piece : List Char}

/-! ## Splitting -/

theorem splitList_of_notMem (h : separator ∉ text) : splitList separator text = [text] := by
  induction text with
  | nil => rfl
  | cons c rest ih =>
    obtain ⟨hc, hrest⟩ := not_or.mp (mt List.mem_cons.mpr h)
    rw [splitList, if_neg fun heq => hc heq.symm, ih hrest]

theorem splitList_append (h : separator ∉ line) (rest : List Char) :
    splitList separator (line ++ separator :: rest) = line :: splitList separator rest := by
  induction line with
  | nil => rw [List.nil_append, splitList, if_pos rfl]
  | cons c line ih =>
    obtain ⟨hc, hline⟩ := not_or.mp (mt List.mem_cons.mpr h)
    rw [List.cons_append, splitList, if_neg fun heq => hc heq.symm, ih hline]

/-! ## Pieces -/

/-- The piece has no separator, and on either side of it the text ends or has one. -/
structure IsPiece (separator : Char) (text piece : List Char) : Prop where
  unseparated : separator ∉ piece
  between : ∃ before after, text = before ++ piece ++ after ∧
    (before = [] ∨ ∃ front, before = front ++ [separator]) ∧
    (after = [] ∨ ∃ rest, after = separator :: rest)

/-- A text without separators is its only piece. -/
theorem isPiece_iff_eq (h : separator ∉ text) : IsPiece separator text piece ↔ piece = text := by
  constructor
  · rintro ⟨_, before, after, rfl, hbefore, hafter⟩
    rcases hbefore with rfl | ⟨front, rfl⟩
    · rcases hafter with rfl | ⟨rest, rfl⟩
      · simp
      · exact absurd (by simp) h
    · exact absurd (by simp) h
  · rintro rfl
    exact ⟨h, [], [], by simp, .inl rfl, .inl rfl⟩

/-- In front of its first separator a text has one piece; the others are those behind it. -/
theorem isPiece_append_iff (h : separator ∉ line) :
    IsPiece separator (line ++ separator :: rest) piece ↔
      piece = line ∨ IsPiece separator rest piece := by
  constructor
  · rintro ⟨hpiece, before, after, heq, hbefore, hafter⟩
    rcases hbefore with rfl | ⟨front, rfl⟩
    · rcases hafter with rfl | ⟨others, rfl⟩
      · have hmem : separator ∈ line ++ separator :: rest := by simp
        rw [heq] at hmem
        exact absurd (by simpa using hmem) hpiece
      · exact .inl (eq_of_append_cons_eq h hpiece (by simpa using heq)).1.symm
    · right
      -- the separator in front of the piece is the first one, or comes behind it
      have hsplit : line ++ separator :: rest = front ++ separator :: (piece ++ after) := by
        simpa using heq
      rcases eq_or_exists_of_append_cons_eq hsplit with
        ⟨rfl, rfl⟩ | ⟨more, rfl, rfl⟩ | ⟨more, rfl, _⟩
      · exact ⟨hpiece, [], after, rfl, .inl rfl, hafter⟩
      · exact ⟨hpiece, more ++ [separator], after, by simp, .inr ⟨more, rfl⟩, hafter⟩
      · exact absurd (List.mem_append_right front List.mem_cons_self) h
  · rintro (rfl | ⟨hpiece, before, after, rfl, hbefore, hafter⟩)
    · exact ⟨h, [], separator :: rest, by simp, .inl rfl, .inr ⟨rest, rfl⟩⟩
    · refine ⟨hpiece, line ++ separator :: before, after, by simp, .inr ?_, hafter⟩
      rcases hbefore with rfl | ⟨front, rfl⟩
      · exact ⟨line, rfl⟩
      · exact ⟨line ++ separator :: front, by simp⟩

/-- Splitting a text gives its pieces. -/
theorem mem_splitList_iff : piece ∈ splitList separator text ↔ IsPiece separator text piece := by
  induction hlength : text.length using Nat.strongRecOn generalizing text with
  | ind length ih =>
    by_cases hmem : separator ∈ text
    · obtain ⟨line, rest, rfl, hline⟩ := List.eq_append_cons_of_mem hmem
      have hshorter : rest.length < length := by
        rw [← hlength, List.length_append, List.length_cons]
        omega
      rw [splitList_append hline, List.mem_cons, isPiece_append_iff hline, ih _ hshorter rfl]
    · rw [splitList_of_notMem hmem, List.mem_singleton, isPiece_iff_eq hmem]

theorem mem_split_iff (separator : Char) (s piece : String) :
    piece ∈ split separator s ↔ IsPiece separator s.toList piece.toList := by
  rw [← mem_splitList_iff, split, List.mem_map]
  constructor
  · rintro ⟨chars, hchars, rfl⟩
    rwa [String.toList_ofList]
  · intro h
    exact ⟨piece.toList, h, String.ofList_toList⟩

/-- The pieces between separators have no other characters than the text. -/
theorem mem_of_mem_splitList (h : piece ∈ splitList separator text) {c : Char} (hc : c ∈ piece) :
    c ∈ text := by
  obtain ⟨before, after, rfl, _⟩ := (mem_splitList_iff.mp h).between
  simp [hc]

end ApiLint.Text
