import ApiLint.Proofs.Text.Pieces
import Mathlib.Algebra.GroupWithZero.Nat
import Mathlib.Algebra.Order.BigOperators.Group.List
set_option autoImplicit false

/-!
# Line feeds in texts

The line feeds of a text are counted, and a text without any is one line.  Joining texts adds
up their line feeds; splitting takes a joined text apart where its lines were ended.
-/

namespace ApiLint.Text

/-- The number of line feeds in a text. -/
def lineFeeds (s : String) : Nat := s.toList.count '\n'

/-- The text has no line feed. -/
def OneLine (s : String) : Prop := '\n' ∉ s.toList

instance (s : String) : Decidable (OneLine s) := inferInstanceAs (Decidable ('\n' ∉ s.toList))

theorem oneLine_iff (s : String) : OneLine s ↔ lineFeeds s = 0 := List.count_eq_zero.symm

theorem lineFeeds_append (s t : String) : lineFeeds (s ++ t) = lineFeeds s + lineFeeds t := by
  rw [lineFeeds, String.toList_append, List.count_append, lineFeeds, lineFeeds]

theorem oneLine_append_iff (s t : String) : OneLine (s ++ t) ↔ OneLine s ∧ OneLine t := by
  rw [OneLine, String.toList_append, List.mem_append, not_or, OneLine, OneLine]

/-- A decimal number is written on one line. -/
theorem oneLine_toString (n : Nat) : OneLine (toString n) := by
  intro hmem
  have hdigit := Nat.isDigit_of_mem_toDigits (by decide) (by decide) (Nat.toList_repr ▸ hmem)
  exact absurd hdigit (by decide)

theorem OneLine.of_mem_split {separator : Char} {s piece : String} (h : OneLine s)
    (hpiece : piece ∈ split separator s) : OneLine piece := by
  obtain ⟨chars, hchars, rfl⟩ := List.mem_map.mp hpiece
  intro hmem
  rw [String.toList_ofList] at hmem
  exact h (mem_of_mem_splitList hchars hmem)

/-! ## Joined texts -/

theorem lineFeeds_join (texts : List String) :
    lineFeeds (String.join texts) = (texts.map lineFeeds).sum := by
  rw [lineFeeds, String.toList_join, List.count_flatMap]
  rfl

theorem lineFeeds_intercalate {separator : String} (h : OneLine separator) (texts : List String) :
    lineFeeds (String.intercalate separator texts) = (texts.map lineFeeds).sum := by
  have hseparator : separator.toList.count '\n' = 0 := (oneLine_iff separator).mp h
  rw [lineFeeds, String.toList_intercalate]
  induction texts with
  | nil => rfl
  | cons first rest ih =>
    cases rest with
    | nil => simp [lineFeeds]
    | cons second rest =>
      rw [List.map_cons, List.map_cons, List.intercalate_cons_cons, List.count_append,
        List.count_append, hseparator, Nat.add_zero, ← List.map_cons, ih]
      rfl

/-- Lines that are ended one by one are the pieces between line feeds, and behind the last of
them is nothing. -/
theorem split_join {lines : List String} (h : ∀ line ∈ lines, OneLine line) :
    split '\n' (String.join (lines.map (· ++ "\n"))) = lines ++ [""] := by
  induction lines with
  | nil => rfl
  | cons line rest ih =>
    obtain ⟨hline, hrest⟩ := List.forall_mem_cons.mp h
    have hfeed : "\n".toList = ['\n'] := rfl
    rw [List.map_cons, String.join_cons, List.cons_append, ← ih hrest, split, String.toList_append,
      String.toList_append, hfeed, List.append_assoc, List.singleton_append, splitList_append hline,
      List.map_cons, String.ofList_toList, split]

end ApiLint.Text
