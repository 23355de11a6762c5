import ApiLint.Text.CharClass
import Mathlib.Data.List.Basic
set_option autoImplicit false

/-!
# Case

Only the capital letters of ASCII are changed by lower case, so what holds of them holds of all
characters.  A caseless occurrence of a literal is a text that is folded to it; folding leads two
characters beyond ASCII to letters of ASCII.
-/

namespace ApiLint.Text

/-! ## Lower case -/

/-- The capital letters of ASCII. -/
def capitals : List Char := (List.range' 65 26).map Char.ofNat

theorem toLower_eq_self_or_mem_capitals (c : Char) : c.toLower = c ∨ c ∈ capitals := by
  unfold Char.toLower
  split
  · next h =>
    right
    have hlow : 65 ≤ c.toNat := h.1
    have hhigh : c.toNat ≤ 90 := h.2
    refine List.mem_map.mpr ⟨c.toNat, ?_, Char.ofNat_toNat c⟩
    rw [List.mem_range'_1]
    omega
  · exact .inl rfl

/-- What lower case does not change of capital letters it does not change of any character. -/
theorem toLower_invariant {β : Type} {f : Char → β}
    (h : capitals.map (fun c => f c.toLower) = capitals.map f) (c : Char) : f c.toLower = f c :=
  (toLower_eq_self_or_mem_capitals c).elim (congrArg f) (List.map_inj_left.mp h c)

theorem eq_of_toLower_eq {c d : Char} (hd : d ∉ capitals.map Char.toLower) (h : c.toLower = d) :
    c = d := by
  rcases toLower_eq_self_or_mem_capitals c with hself | hcapital
  · exact hself.symm.trans h
  · exact absurd (List.mem_map.mpr ⟨c, hcapital, h⟩) hd

/-- The texts differ in the case of ASCII letters only. -/
def SameLetters (text other : List Char) : Prop := text.map Char.toLower = other.map Char.toLower

/-- What lower case does not change holds of all characters of both texts or of neither. -/
theorem SameLetters.forall_mem {text other : List Char} (h : SameLetters text other)
    {p : Char → Bool} (hp : capitals.map (fun c => p c.toLower) = capitals.map p)
    (htext : ∀ c ∈ text, p c = true) : ∀ c ∈ other, p c = true := by
  intro c hc
  have hlower : c.toLower ∈ text.map Char.toLower := h ▸ List.mem_map_of_mem hc
  obtain ⟨d, hd, hcd⟩ := List.mem_map.mp hlower
  rw [← toLower_invariant hp c, ← hcd, toLower_invariant hp d, htext d hd]

theorem SameLetters.exists_append {front back other : List Char}
    (h : SameLetters (front ++ back) other) :
    ∃ front' back', other = front' ++ back' ∧ SameLetters front front' ∧ SameLetters back back' := by
  rw [SameLetters, List.map_append, eq_comm, List.map_eq_append_iff] at h
  obtain ⟨front', back', rfl, hfront, hback⟩ := h
  exact ⟨front', back', rfl, hfront.symm, hback.symm⟩

/-- A character that is no letter stands in both texts. -/
theorem SameLetters.exists_cons {d : Char} (hcapital : d ∉ capitals)
    (hlower : d ∉ capitals.map Char.toLower) {rest other : List Char}
    (h : SameLetters (d :: rest) other) :
    ∃ rest', other = d :: rest' ∧ SameLetters rest rest' := by
  rw [SameLetters, List.map_cons, eq_comm, List.map_eq_cons_iff] at h
  obtain ⟨c, rest', rfl, hc, hrest⟩ := h
  have hself : d.toLower = d :=
    (toLower_eq_self_or_mem_capitals d).resolve_right hcapital
  obtain rfl := eq_of_toLower_eq hlower (hc.trans hself)
  exact ⟨rest', rfl, hrest.symm⟩

/-! ## Folding -/

/-- The character that case folding leads to, as far as it is one of ASCII. -/
def foldCase (c : Char) : Char :=
  if c = '\u017f' then 's' else if c = '\u212a' then 'k' else c.toLower

/-- What holds of a character after folding holds of it before, if that is so of the characters that
folding changes. -/
theorem foldCase_invariant {β : Type} {f : Char → β}
    (h : capitals.map (fun c => f c.toLower) = capitals.map f) (hlongS : f 's' = f '\u017f')
    (hKelvin : f 'k' = f '\u212a') (c : Char) : f (foldCase c) = f c := by
  unfold foldCase
  split
  · next hc => rw [hc, hlongS]
  · split
    · next hc => rw [hc, hKelvin]
    · exact toLower_invariant h c

theorem foldCase_toLower (c : Char) : foldCase c.toLower = foldCase c :=
  toLower_invariant (by decide) c

/-- The literal, written in some case. -/
def IsCaseOf (literal text : List Char) : Prop := text.map foldCase = literal

theorem SameLetters.isCaseOf {literal text other : List Char} (h : SameLetters text other)
    (htext : IsCaseOf literal text) : IsCaseOf literal other := by
  have hfold : ∀ xs : List Char, (xs.map Char.toLower).map foldCase = xs.map foldCase := fun xs => by
    rw [List.map_map]
    exact List.map_congr_left fun c _ => foldCase_toLower c
  rw [IsCaseOf, ← hfold, ← h, hfold, htext]

theorem isCaseFormOf_iff {literal : Char} (h : literal.toNat < 128) (c : Char) :
    isCaseFormOf literal c = true ↔ foldCase c = literal := by
  have hascii : ∀ d : Char, 128 ≤ d.toNat → d ≠ literal := by
    rintro d hd rfl
    omega
  unfold isCaseFormOf foldCase
  by_cases hs : c = '\u017f'
  · subst hs
    have hlower : Char.toLower '\u017f' ≠ literal := hascii _ (by decide)
    simp only [hlower, beq_iff_eq, beq_self_eq_true, Bool.or_eq_true, Bool.and_eq_true, if_pos,
      and_true, false_or]
    rw [or_iff_left fun h => absurd h.2 (by decide)]
    exact eq_comm
  · by_cases hk : c = '\u212a'
    · subst hk
      have hself : '\u212a' ≠ literal := hascii _ (by decide)
      simpa [hself] using eq_comm
    · simp [hs, hk]

theorem dropCaseless_eq_some_iff {literal : List Char}
    (h : literal.all (fun c => c.toNat < 128) = true) {text rest : List Char} :
    dropCaseless literal text = some rest ↔
      ∃ front, text = front ++ rest ∧ IsCaseOf literal front := by
  induction literal generalizing text with
  | nil =>
    rw [dropCaseless_nil, Option.some_inj]
    constructor
    · rintro rfl
      exact ⟨[], rfl, rfl⟩
    · rintro ⟨front, rfl, hfront⟩
      rw [List.map_eq_nil_iff.mp hfront, List.nil_append]
  | cons l literal ih =>
    rw [List.all_cons, Bool.and_eq_true, decide_eq_true_iff] at h
    obtain ⟨hl, hliteral⟩ := h
    cases text with
    | nil =>
      rw [dropCaseless]
      refine iff_of_false nofun ?_
      rintro ⟨front, heq, hfront⟩
      obtain ⟨rfl, _⟩ := List.append_eq_nil_iff.mp heq.symm
      cases hfront
    | cons c text =>
      rw [dropCaseless]
      constructor
      · intro hdrop
        split at hdrop
        · next hc =>
          obtain ⟨front, rfl, hfront⟩ := (ih hliteral).mp hdrop
          refine ⟨c :: front, rfl, ?_⟩
          rw [IsCaseOf, List.map_cons, (isCaseFormOf_iff hl c).mp hc, hfront]
        · cases hdrop
      · rintro ⟨front, heq, hfront⟩
        cases front with
        | nil => cases hfront
        | cons d front =>
          obtain ⟨rfl, rfl⟩ := List.cons.inj heq
          obtain ⟨hc, hfront⟩ := List.cons.inj hfront
          rw [if_pos ((isCaseFormOf_iff hl c).mpr hc)]
          exact (ih hliteral).mpr ⟨front, rfl, hfront⟩

end ApiLint.Text
