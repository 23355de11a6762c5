import ApiLint.Rule.Basic
set_option autoImplicit false

/-!
# Selecting rules by name

A text denotes a rule by its name, or by its code in any case.  Rules are picked one
after the other out of those that are still available; so no rule is picked twice, and
texts that denote nothing available pass without effect.
-/

namespace ApiLint

/-- A text denotes a rule. -/
def RuleId.isDenotedBy (id : RuleId) (text : String) : Bool :=
  id.name == text || Text.equalIgnoringAsciiCase id.code text

/-- The rules picked so far, in the order of picking, and those that are left. -/
structure RuleSelection where
  picked : List RuleId := []
  available : List RuleId := RuleId.all
  deriving DecidableEq, Repr, Inhabited

namespace RuleSelection

/-- Picks the first available rule that a text denotes. -/
def pick (selection : RuleSelection) (text : String) : RuleSelection :=
  match selection.available.find? (·.isDenotedBy text) with
  | some id =>
    { picked := selection.picked ++ [id],
      available := selection.available.eraseP (·.isDenotedBy text) }
  | none => selection

/-- Picks rules by texts; empty texts are skipped. -/
def pickAll (selection : RuleSelection) (texts : List String) : RuleSelection :=
  (texts.filter fun text => !text.isEmpty).foldl pick selection

/-- The texts of a list with commas, without blank ends. -/
def textsOf (list : String) : List String := (Text.split ',' list).map Text.trim

/-- The rules that texts denote, in the order in which they are first denoted. -/
def rulesOf (texts : List String) : List RuleId := (pickAll {} texts).picked

/-! ## Lemmas -/

theorem pick_of_find?_eq_none {selection : RuleSelection} {text : String}
    (h : selection.available.find? (·.isDenotedBy text) = none) :
    selection.pick text = selection := by
  simp [pick, h]

theorem length_pick (selection : RuleSelection) (text : String) :
    (selection.pick text).picked.length + (selection.pick text).available.length =
      selection.picked.length + selection.available.length := by
  unfold pick
  split
  · rename_i id h
    have hmem := List.mem_of_find?_eq_some h
    have hid := List.find?_some h
    have hlen : (selection.available.eraseP (·.isDenotedBy text)).length =
        selection.available.length - 1 := List.length_eraseP_of_mem hmem hid
    have hpos : 0 < selection.available.length := List.length_pos_of_mem hmem
    simp only [List.length_append, List.length_singleton]
    omega
  · rfl

end RuleSelection

end ApiLint
