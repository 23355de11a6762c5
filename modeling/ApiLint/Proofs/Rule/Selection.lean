import ApiLint.Rule.Selection
import Mathlib.Data.List.Perm.Basic
set_option autoImplicit false

/-!
# The rules that texts denote

No text denotes two rules: names are distinct, codes are distinct also without regard to case, and
no name is a code.  So picking the rules one by one selects those that some text denotes, each
once and in the order of the first texts that denote them; and at every point the rules picked so
far and those still available are all rules between them.
-/

namespace ApiLint

/-! ## Denoting -/

namespace RuleId

theorem isDenotedBy_iff {id : RuleId} {text : String} :
    id.isDenotedBy text = true ↔
      id.name = text ∨ id.code.toList.map Char.toLower = text.toList.map Char.toLower := by
  simp [isDenotedBy, Text.equalIgnoringAsciiCase]

theorem not_isDenotedBy_empty (id : RuleId) : id.isDenotedBy "" = false := by
  cases id <;> decide +kernel

theorem lowerCode_injective {a b : RuleId}
    (h : a.code.toList.map Char.toLower = b.code.toList.map Char.toLower) : a = b := by
  have hall : ∀ a ∈ all, ∀ b ∈ all,
      a.code.toList.map Char.toLower = b.code.toList.map Char.toLower → a = b := by
    decide +kernel
  exact hall a (mem_all a) b (mem_all b) h

theorem lowerCode_ne_name (a b : RuleId) :
    a.code.toList.map Char.toLower ≠ b.name.toList.map Char.toLower := by
  have hall : ∀ a ∈ all, ∀ b ∈ all,
      a.code.toList.map Char.toLower ≠ b.name.toList.map Char.toLower := by
    decide +kernel
  exact hall a (mem_all a) b (mem_all b)

/-- A text denotes one rule at most. -/
theorem eq_of_isDenotedBy {a b : RuleId} {text : String} (ha : a.isDenotedBy text = true)
    (hb : b.isDenotedBy text = true) : a = b := by
  rcases isDenotedBy_iff.mp ha with rfl | ha
  · rcases isDenotedBy_iff.mp hb with hb | hb
    · exact (name_injective hb).symm
    · exact absurd hb (lowerCode_ne_name b a)
  · rcases isDenotedBy_iff.mp hb with rfl | hb
    · exact absurd ha (lowerCode_ne_name a b)
    · exact lowerCode_injective (ha.trans hb.symm)

end RuleId

/-- What is found first is what is taken out. -/
theorem perm_cons_eraseP {α : Type} {p : α → Bool} {xs : List α} {x : α}
    (h : xs.find? p = some x) : (x :: xs.eraseP p).Perm xs := by
  obtain ⟨hx, before, after, rfl, hbefore⟩ := List.find?_eq_some_iff_append.mp h
  have hnone : ∀ y ∈ before, ¬ p y = true := fun y hy => by simpa using hbefore y hy
  rw [List.eraseP_append_right _ hnone, List.eraseP_cons_of_pos hx]
  exact List.perm_middle.symm

namespace RuleSelection

/-! ## One text -/

/-- Takes one text: picks the rule that it denotes unless it is empty. -/
def take (selection : RuleSelection) (text : String) : RuleSelection :=
  if text.isEmpty then selection else selection.pick text

theorem pickAll_eq_foldl (selection : RuleSelection) (texts : List String) :
    selection.pickAll texts = texts.foldl take selection := by
  rw [pickAll, List.foldl_filter]
  congr 1
  funext s text
  cases h : text.isEmpty <;> simp [take, h]

/-- What is so when texts have been taken: the rules are all there, picked or available, those that
a text denotes are picked, and in the order of the first texts that denote them. -/
structure Covers (texts : List String) (selection : RuleSelection) : Prop where
  perm : (selection.picked ++ selection.available).Perm RuleId.all
  mem_iff : ∀ id, id ∈ selection.picked ↔ ∃ text ∈ texts, id.isDenotedBy text = true
  order : selection.picked.Pairwise fun a b =>
    texts.findIdx a.isDenotedBy < texts.findIdx b.isDenotedBy

theorem covers_nil : Covers [] {} := ⟨.refl _, by simp, .nil⟩

variable {texts : List String} {selection : RuleSelection}

/-- A rule that is available has not been picked. -/
theorem Covers.notMem_picked (h : Covers texts selection) {id : RuleId}
    (hid : id ∈ selection.available) : id ∉ selection.picked := by
  have hnodup : (selection.picked ++ selection.available).Nodup :=
    h.perm.nodup_iff.mpr RuleId.nodup_all
  exact fun hpicked => (List.nodup_append.mp hnodup).2.2 id hpicked id hid rfl

/-- The first text that denotes a picked rule stays the first when more texts come. -/
theorem Covers.findIdx_append (h : Covers texts selection) {id : RuleId}
    (hid : id ∈ selection.picked) (more : List String) :
    (texts ++ more).findIdx id.isDenotedBy = texts.findIdx id.isDenotedBy ∧
      texts.findIdx id.isDenotedBy < texts.length := by
  obtain ⟨text, htext, hdenoted⟩ := (h.mem_iff id).mp hid
  have hlt := List.findIdx_lt_length_of_exists ⟨text, htext, hdenoted⟩
  exact ⟨by rw [List.findIdx_append, if_pos hlt], hlt⟩

theorem Covers.order_append (h : Covers texts selection) (more : List String) :
    selection.picked.Pairwise fun a b =>
      (texts ++ more).findIdx a.isDenotedBy < (texts ++ more).findIdx b.isDenotedBy := by
  refine h.order.imp_of_mem fun ha hb hlt => ?_
  rw [(h.findIdx_append ha more).1, (h.findIdx_append hb more).1]
  exact hlt

/-- A text that denotes no rule, or one that is picked, changes nothing. -/
theorem Covers.append_of_picked (h : Covers texts selection) {text : String}
    (hpicked : ∀ id : RuleId, id.isDenotedBy text = true → id ∈ selection.picked) :
    Covers (texts ++ [text]) selection := by
  refine ⟨h.perm, fun id => ?_, h.order_append [text]⟩
  constructor
  · intro hid
    obtain ⟨earlier, hearlier, hdenoted⟩ := (h.mem_iff id).mp hid
    exact ⟨earlier, List.mem_append_left _ hearlier, hdenoted⟩
  · rintro ⟨other, hother, hdenoted⟩
    rcases List.mem_append.mp hother with hother | hother
    · exact (h.mem_iff id).mpr ⟨other, hother, hdenoted⟩
    · exact hpicked id (List.mem_singleton.mp hother ▸ hdenoted)

/-- A text that denotes an available rule has it picked, behind all others. -/
theorem Covers.append_of_found (h : Covers texts selection) {text : String} {id : RuleId}
    (hfind : selection.available.find? (·.isDenotedBy text) = some id) :
    Covers (texts ++ [text])
      { picked := selection.picked ++ [id]
        available := selection.available.eraseP (·.isDenotedBy text) } := by
  have hid : id.isDenotedBy text = true :=
    List.find?_some (p := fun r : RuleId => r.isDenotedBy text) hfind
  have hnew := h.notMem_picked (List.mem_of_find?_eq_some hfind)
  refine ⟨?_, fun other => ?_, ?_⟩
  · rw [List.append_assoc, List.singleton_append]
    exact ((perm_cons_eraseP hfind).append_left _).trans h.perm
  · rw [List.mem_append, h.mem_iff, List.mem_singleton]
    constructor
    · rintro (⟨earlier, hearlier, hdenoted⟩ | rfl)
      · exact ⟨earlier, List.mem_append_left _ hearlier, hdenoted⟩
      · exact ⟨text, List.mem_append_right _ List.mem_cons_self, hid⟩
    · rintro ⟨denoting, hdenoting, hdenoted⟩
      rcases List.mem_append.mp hdenoting with hdenoting | hdenoting
      · exact .inl ⟨denoting, hdenoting, hdenoted⟩
      · obtain rfl := List.mem_singleton.mp hdenoting
        exact .inr (RuleId.eq_of_isDenotedBy hdenoted hid)
  · have hlast : (texts ++ [text]).findIdx id.isDenotedBy = texts.length := by
      have hnone : ¬ texts.findIdx id.isDenotedBy < texts.length := by
        intro hlt
        have hdenoted := List.findIdx_getElem (w := hlt)
        exact hnew ((h.mem_iff id).mpr ⟨_, List.getElem_mem hlt, hdenoted⟩)
      rw [List.findIdx_append, if_neg hnone, List.findIdx_cons, hid, cond_true, Nat.zero_add]
    refine List.pairwise_append.mpr ⟨h.order_append [text], List.pairwise_singleton _ _, ?_⟩
    intro a ha b hb
    obtain rfl := List.mem_singleton.mp hb
    rw [hlast, (h.findIdx_append ha [text]).1]
    exact (h.findIdx_append ha [text]).2

theorem Covers.take_eq_self (h : Covers texts selection) {text : String}
    (hpicked : ∀ id : RuleId, id.isDenotedBy text = true → id ∈ selection.picked) :
    selection.take text = selection := by
  have hnone : selection.available.find? (·.isDenotedBy text) = none := by
    rw [List.find?_eq_none]
    exact fun id hid hdenoted => h.notMem_picked hid (hpicked id hdenoted)
  rw [take, pick_of_find?_eq_none hnone, ite_self]

/-- Taking a text keeps what is so. -/
theorem Covers.take (h : Covers texts selection) (text : String) :
    Covers (texts ++ [text]) (selection.take text) := by
  cases hfind : selection.available.find? (·.isDenotedBy text) with
  | none =>
    have hpicked : ∀ id : RuleId, id.isDenotedBy text = true → id ∈ selection.picked := by
      intro id hdenoted
      rcases List.mem_append.mp (h.perm.mem_iff.mpr id.mem_all) with hid | hid
      · exact hid
      · exact absurd hdenoted (List.find?_eq_none.mp hfind id hid)
    rw [h.take_eq_self hpicked]
    exact h.append_of_picked hpicked
  | some id =>
    have hid : id.isDenotedBy text = true :=
      List.find?_some (p := fun r : RuleId => r.isDenotedBy text) hfind
    have hne : text.isEmpty = false := by
      cases hempty : text.isEmpty with
      | false => rfl
      | true =>
        rw [String.isEmpty_iff.mp hempty, id.not_isDenotedBy_empty] at hid
        exact absurd hid Bool.false_ne_true
    have htake : selection.take text =
        { picked := selection.picked ++ [id]
          available := selection.available.eraseP (·.isDenotedBy text) } := by
      rw [RuleSelection.take, hne, if_neg Bool.false_ne_true, pick, hfind]
    rw [htake]
    exact h.append_of_found hfind

/-! ## All texts -/

theorem Covers.foldl_take (h : Covers texts selection) (more : List String) :
    Covers (texts ++ more) (more.foldl RuleSelection.take selection) := by
  induction more generalizing texts selection with
  | nil => rwa [List.append_nil]
  | cons text rest ih =>
    rw [List.append_cons]
    exact ih (h.take text)

/-- At every point of picking by texts, what is so of the texts taken so far. -/
theorem covers_pickAll (texts : List String) : Covers texts (pickAll {} texts) := by
  rw [pickAll_eq_foldl]
  exact covers_nil.foldl_take texts

theorem pickAll_append (selection : RuleSelection) (texts more : List String) :
    selection.pickAll (texts ++ more) = (selection.pickAll texts).pickAll more := by
  rw [pickAll, pickAll, pickAll, List.filter_append, List.foldl_append]

/-- The rules that texts denote, by name or by code in any case, are selected once each, in the
order of the first texts that denote them; a text that denotes none, or one that an earlier text
denotes, might as well not be there; and whichever texts have been taken, the rules picked and the
rules still available are all rules in some order. -/
theorem rulesOf_selects (texts : List String) :
    (∀ id, id ∈ rulesOf texts ↔ ∃ text ∈ texts, text ≠ "" ∧
      (id.name = text ∨ id.code.toList.map Char.toLower = text.toList.map Char.toLower)) ∧
    (rulesOf texts).Nodup ∧
    (rulesOf texts).Pairwise
      (fun a b => texts.findIdx a.isDenotedBy < texts.findIdx b.isDenotedBy) ∧
    (∀ before text after, texts = before ++ text :: after →
      (∀ id : RuleId, id.isDenotedBy text = true →
        ∃ earlier ∈ before, id.isDenotedBy earlier = true) →
      rulesOf texts = rulesOf (before ++ after)) ∧
    ∀ before after, texts = before ++ after →
      ((pickAll {} before).picked ++ (pickAll {} before).available).Perm RuleId.all ∧
        rulesOf texts = ((pickAll {} before).pickAll after).picked := by
  have hcovers := covers_pickAll texts
  refine ⟨fun id => ?_, ?_, hcovers.order, ?_, ?_⟩
  · rw [rulesOf, hcovers.mem_iff]
    refine exists_congr fun text => and_congr_right fun _ => ?_
    rw [← RuleId.isDenotedBy_iff]
    refine ⟨fun hid => ⟨?_, hid⟩, And.right⟩
    rintro rfl
    rw [id.not_isDenotedBy_empty] at hid
    exact Bool.false_ne_true hid
  · exact (List.nodup_append.mp (hcovers.perm.nodup_iff.mpr RuleId.nodup_all)).1
  · rintro before text after rfl hearlier
    have hbefore := covers_pickAll before
    have htake := hbefore.take_eq_self fun id hid => (hbefore.mem_iff id).mpr (hearlier id hid)
    rw [rulesOf, rulesOf, pickAll_append, pickAll_append, pickAll_eq_foldl _ (text :: after),
      pickAll_eq_foldl _ after, List.foldl_cons, htake]
  · rintro before after rfl
    exact ⟨(covers_pickAll before).perm, congrArg picked (pickAll_append {} before after)⟩

/-- A name, a code in lower case, a text that denotes nothing, an empty one, and the code of the
rule that was named: the first two are what counts. -/
theorem rulesOf_repeatedTexts :
    rulesOf ["path-parameters", "oas001", "no-such-rule", "", "OAS002"] =
        [.pathParameters, .inlineResponseSchema] ∧
      rulesOf ["path-parameters", "oas001", "no-such-rule", "", "OAS002"] =
        rulesOf ["path-parameters", "oas001", "no-such-rule", ""] := by
  obtain ⟨_, _, _, hskip, _⟩ :=
    rulesOf_selects ["path-parameters", "oas001", "no-such-rule", "", "OAS002"]
  refine ⟨by decide +kernel, ?_⟩
  refine hskip ["path-parameters", "oas001", "no-such-rule", ""] "OAS002" [] rfl fun id hid => ?_
  obtain rfl : id = .pathParameters := RuleId.eq_of_isDenotedBy hid (by decide +kernel)
  exact ⟨"path-parameters", List.mem_cons_self, by decide +kernel⟩

end RuleSelection

end ApiLint
