import ApiLint.OpenApi.Naming
import Mathlib.Data.List.Basic
set_option autoImplicit false

/-!
# Parameters of path templates

The parameters of a template are read from left to right: the first opening brace that is closed
on its line takes the text up to the next closing brace, and reading goes on behind that brace.
So a template that is put together of texts without opening braces and of names in braces has
these names as its parameters, and every template can be taken apart into its parameters and the
texts between them.
-/

namespace ApiLint.Naming

/-- A text that can stand in braces: it has no closing brace and no line feed. -/
structure IsName (name : List Char) : Prop where
  unclosed : '\x7d' ∉ name
  oneLine : '\n' ∉ name

theorem isName_iff (name : List Char) : IsName name ↔ '\x7d' ∉ name ∧ '\n' ∉ name :=
  ⟨fun h => ⟨h.unclosed, h.oneLine⟩, fun h => ⟨h.1, h.2⟩⟩

/-- A text, and behind it names in braces with a text behind each. -/
def assembleChars (first : List Char) (pieces : List (List Char × List Char)) : List Char :=
  first ++ pieces.flatMap fun piece => '\x7b' :: piece.1 ++ '\x7d' :: piece.2

/-! ## The first placeholder -/

/-- An opening brace of the text, behind a part of it, is closed on its line. -/
def ClosedBehind (text before : List Char) : Prop :=
  ∃ inside after, text = before ++ '\x7b' :: inside ++ '\x7d' :: after ∧ '\n' ∉ inside

/-- The first opening brace that is closed on its line stands behind `before`, encloses `name` up to
the next closing brace, and is followed by `after`. -/
structure FirstPlaceholder (text before name after : List Char) : Prop where
  eq : text = before ++ '\x7b' :: name ++ '\x7d' :: after
  isName : IsName name
  first : ∀ earlier, ClosedBehind text earlier → before.length ≤ earlier.length

/-- The placeholders of a text, one after the other: each is the first one behind the one before. -/
inductive Placeholders : List Char → List (List Char) → Prop
  | none {text : List Char} (h : ∀ before, ¬ ClosedBehind text before) : Placeholders text []
  | next {text before name after : List Char} {names : List (List Char)}
    (h : FirstPlaceholder text before name after) (rest : Placeholders after names) :
    Placeholders text (name :: names)

theorem closedBehind_cons_iff {c : Char} {text before : List Char} :
    ClosedBehind (c :: text) before ↔
      before = [] ∧ ClosedBehind (c :: text) [] ∨
        ∃ rest, before = c :: rest ∧ ClosedBehind text rest := by
  constructor
  · intro h
    cases before with
    | nil => exact .inl ⟨rfl, h⟩
    | cons d rest =>
      obtain ⟨inside, after, heq, hinside⟩ := h
      obtain ⟨rfl, htext⟩ := List.cons.inj heq
      exact .inr ⟨rest, rfl, inside, after, htext, hinside⟩
  · rintro (⟨rfl, h⟩ | ⟨rest, rfl, inside, after, rfl, hinside⟩)
    · exact h
    · exact ⟨inside, after, rfl, hinside⟩

/-- A character where no placeholder begins is passed over. -/
theorem Placeholders.cons {c : Char} {text : List Char} {names : List (List Char)}
    (hc : ¬ ClosedBehind (c :: text) []) (h : Placeholders text names) :
    Placeholders (c :: text) names := by
  cases h with
  | none h =>
    refine .none fun before hbefore => ?_
    rcases closedBehind_cons_iff.mp hbefore with ⟨_, hhere⟩ | ⟨rest, _, hrest⟩
    · exact hc hhere
    · exact h rest hrest
  | @next _ before name after names h rest =>
    have heq : c :: text = (c :: before) ++ '\x7b' :: name ++ '\x7d' :: after := by
      rw [h.eq]
      rfl
    refine .next ⟨heq, h.isName, fun earlier hearlier => ?_⟩ rest
    rcases closedBehind_cons_iff.mp hearlier with ⟨_, hhere⟩ | ⟨others, rfl, hothers⟩
    · exact absurd hhere hc
    · exact Nat.succ_le_succ (h.first others hothers)

/-! ## Reading -/

theorem untilClose_eq_some_iff {text name rest : List Char} :
    untilClose text = some (name, rest) ↔ text = name ++ '\x7d' :: rest ∧ IsName name := by
  induction text generalizing name with
  | nil => simp [untilClose]
  | cons c tail ih =>
    rw [untilClose]
    split
    · next hc =>
      constructor
      · intro h
        obtain ⟨rfl, rfl⟩ := Prod.mk.inj (Option.some.inj h)
        exact ⟨by rw [hc]; rfl, List.not_mem_nil, List.not_mem_nil⟩
      · rintro ⟨heq, hname⟩
        cases name with
        | nil => rw [(List.cons.inj heq).2]
        | cons d name =>
          obtain ⟨rfl, _⟩ := List.cons.inj heq
          exact absurd (hc ▸ List.mem_cons_self) hname.unclosed
    · next hc =>
      -- behind a character that does not close, the rest of the name is read
      have hcons : (c ≠ '\n' ∧ ∃ inner, name = c :: inner ∧ untilClose tail = some (inner, rest)) ↔
          c :: tail = name ++ '\x7d' :: rest ∧ IsName name := by
        constructor
        · rintro ⟨hline, inner, rfl, hinner⟩
          obtain ⟨rfl, hname⟩ := ih.mp hinner
          refine ⟨rfl, ?_, ?_⟩
          · exact not_or.mpr ⟨fun heq => hc heq.symm, hname.unclosed⟩ ∘ List.mem_cons.mp
          · exact not_or.mpr ⟨fun heq => hline heq.symm, hname.oneLine⟩ ∘ List.mem_cons.mp
        · rintro ⟨heq, hname⟩
          cases name with
          | nil => exact absurd (List.cons.inj heq).1 hc
          | cons d inner =>
            obtain ⟨rfl, htail⟩ := List.cons.inj heq
            obtain ⟨hunclosed, hline⟩ := hname
            have hinner : IsName inner := ⟨fun h => hunclosed (List.mem_cons_of_mem _ h),
              fun h => hline (List.mem_cons_of_mem _ h)⟩
            exact ⟨fun hc => hline (hc ▸ List.mem_cons_self), inner, rfl, ih.mpr ⟨htail, hinner⟩⟩
      rw [← hcons]
      split
      · next hline => simp [hline]
      · next hline =>
        cases huntil : untilClose tail with
        | none => simp
        | some read =>
          obtain ⟨inner, others⟩ := read
          constructor
          · intro h
            obtain ⟨rfl, rfl⟩ := Prod.mk.inj (Option.some.inj h)
            exact ⟨hline, inner, rfl, rfl⟩
          · rintro ⟨_, _, rfl, h⟩
            obtain ⟨rfl, rfl⟩ := Prod.mk.inj (Option.some.inj h)
            rfl

/-- Up to a closing brace on the line, the text can be read to the next one. -/
theorem exists_untilClose {inside : List Char} (h : '\n' ∉ inside) (after : List Char) :
    ∃ read, untilClose (inside ++ '\x7d' :: after) = some read := by
  induction inside with
  | nil => exact ⟨_, rfl⟩
  | cons c inside ih =>
    obtain ⟨hc, hinside⟩ := not_or.mp (mt List.mem_cons.mpr h)
    obtain ⟨⟨name, rest⟩, hread⟩ := ih hinside
    rw [List.cons_append, untilClose, hread]
    split
    · exact ⟨_, rfl⟩
    · rw [if_neg fun heq => hc heq.symm]
      exact ⟨_, rfl⟩

/-- A brace is closed on its line when the text up to a closing brace can be read. -/
theorem closedBehind_nil_iff {text : List Char} :
    ClosedBehind ('\x7b' :: text) [] ↔ ∃ read, untilClose text = some read := by
  constructor
  · rintro ⟨inside, after, heq, hinside⟩
    obtain ⟨_, rfl⟩ := List.cons.inj heq
    exact exists_untilClose hinside after
  · rintro ⟨⟨name, rest⟩, h⟩
    obtain ⟨rfl, hname⟩ := untilClose_eq_some_iff.mp h
    exact ⟨name, rest, rfl, hname.oneLine⟩

/-- What is read are the placeholders, provided there are enough turns. -/
theorem placeholders_scanParameters {fuel : Nat} {text : List Char} (h : text.length ≤ fuel) :
    Placeholders text (scanParameters fuel text) := by
  induction fuel generalizing text with
  | zero =>
    obtain rfl := List.length_eq_zero_iff.mp (Nat.le_zero.mp h)
    rw [scanParameters]
    exact .none fun before ⟨_, _, heq, _⟩ => by simp at heq
  | succ fuel ih =>
    cases text with
    | nil =>
      rw [scanParameters]
      · exact .none fun before ⟨_, _, heq, _⟩ => by simp at heq
      · simp
    | cons c rest =>
      have hrest : rest.length ≤ fuel := Nat.le_of_succ_le_succ h
      rw [scanParameters]
      split
      · next hc =>
        subst hc
        split
        · next name others huntil =>
          obtain ⟨rfl, hname⟩ := untilClose_eq_some_iff.mp huntil
          have hfirst : FirstPlaceholder ('\x7b' :: (name ++ '\x7d' :: others)) [] name others :=
            ⟨rfl, hname, fun _ _ => Nat.zero_le _⟩
          refine .next hfirst (ih ?_)
          simp only [List.length_append, List.length_cons] at hrest
          omega
        · next huntil =>
          refine (ih hrest).cons fun hclosed => ?_
          obtain ⟨read, hread⟩ := closedBehind_nil_iff.mp hclosed
          rw [huntil] at hread
          cases hread
      · next hc =>
        refine (ih hrest).cons fun ⟨_, _, heq, _⟩ => ?_
        exact hc (List.cons.inj heq).1

/-! ## Placeholders of a text -/

theorem FirstPlaceholder.closedBehind {text before name after : List Char}
    (h : FirstPlaceholder text before name after) : ClosedBehind text before :=
  ⟨name, after, h.eq, h.isName.oneLine⟩

theorem FirstPlaceholder.unique {text before name after before' name' after' : List Char}
    (h : FirstPlaceholder text before name after)
    (h' : FirstPlaceholder text before' name' after') : name = name' ∧ after = after' := by
  have hlength : before.length = before'.length :=
    Nat.le_antisymm (h.first _ h'.closedBehind) (h'.first _ h.closedBehind)
  have heq : before ++ ('\x7b' :: (name ++ '\x7d' :: after)) =
      before' ++ ('\x7b' :: (name' ++ '\x7d' :: after')) := by
    simpa using h.eq.symm.trans h'.eq
  obtain ⟨_, hinside⟩ := List.append_inj heq hlength
  have hread := untilClose_eq_some_iff.mpr ⟨(List.cons.inj hinside).2, h'.isName⟩
  rw [untilClose_eq_some_iff.mpr ⟨rfl, h.isName⟩] at hread
  exact Prod.mk.inj (Option.some.inj hread)

/-- A text has one list of placeholders. -/
theorem Placeholders.unique {text : List Char} {names others : List (List Char)}
    (h : Placeholders text names) (h' : Placeholders text others) : names = others := by
  induction h generalizing others with
  | none hnone =>
    cases h' with
    | none _ => rfl
    | next hfirst _ => exact absurd hfirst.closedBehind (hnone _)
  | next hfirst _ ih =>
    cases h' with
    | none hnone => exact absurd hfirst.closedBehind (hnone _)
    | next hfirst' hrest' =>
      obtain ⟨rfl, rfl⟩ := hfirst.unique hfirst'
      rw [ih hrest']

theorem placeholders_assembleChars {first : List Char} {pieces : List (List Char × List Char)}
    (hfirst : '\x7b' ∉ first)
    (hpieces : ∀ piece ∈ pieces, IsName piece.1 ∧ '\x7b' ∉ piece.2) :
    Placeholders (assembleChars first pieces) (pieces.map Prod.fst) := by
  induction pieces generalizing first with
  | nil =>
    refine .none fun before ⟨inside, after, heq, _⟩ => hfirst ?_
    simp only [assembleChars, List.flatMap_nil, List.append_nil] at heq
    simp [heq]
  | cons piece pieces ih =>
    obtain ⟨name, literal⟩ := piece
    obtain ⟨⟨hname, hliteral⟩, hrest⟩ := List.forall_mem_cons.mp hpieces
    have hassembled : assembleChars first ((name, literal) :: pieces) =
        first ++ '\x7b' :: name ++ '\x7d' :: assembleChars literal pieces := by
      simp [assembleChars]
    refine .next ⟨hassembled, hname, fun earlier hearlier => ?_⟩ (ih hliteral hrest)
    -- no brace is opened within the first text
    obtain ⟨inside, after, heq, _⟩ := hearlier
    rw [hassembled, List.append_assoc, List.append_assoc] at heq
    rcases List.append_eq_append_iff.mp heq with ⟨more, rfl, _⟩ | ⟨more, rfl, hmore⟩
    · simp
    · cases more with
      | nil => simp
      | cons c more =>
        obtain ⟨rfl, _⟩ := List.cons.inj hmore
        exact absurd (List.mem_append_right earlier List.mem_cons_self) hfirst

theorem Placeholders.exists_eq_assembleChars {text : List Char} {names : List (List Char)}
    (h : Placeholders text names) :
    (∀ name ∈ names, IsName name) ∧
      ∃ first pieces, text = assembleChars first pieces ∧ pieces.map Prod.fst = names := by
  induction h with
  | @none text _ =>
    refine ⟨fun _ h => absurd h List.not_mem_nil, text, [], ?_, rfl⟩
    simp [assembleChars]
  | @next text before name after names hfirst _ ih =>
    obtain ⟨hnames, first, pieces, rfl, rfl⟩ := ih
    refine ⟨List.forall_mem_cons.mpr ⟨hfirst.isName, hnames⟩, before, (name, first) :: pieces, ?_,
      rfl⟩
    rw [hfirst.eq]
    simp [assembleChars]

/-! ## Parameters of templates -/

/-- A template that is put together of a text, and of names in braces with a text behind each. -/
def assemble (first : String) (pieces : List (String × String)) : String :=
  first ++ String.join (pieces.map fun piece => "\x7b" ++ piece.1 ++ "\x7d" ++ piece.2)

theorem toList_assemble (first : String) (pieces : List (String × String)) :
    (assemble first pieces).toList = assembleChars first.toList
      (pieces.map fun piece => (piece.1.toList, piece.2.toList)) := by
  rw [assemble, assembleChars, String.toList_append, String.toList_join, List.flatMap_map,
    List.flatMap_map]
  simp

/-- The parameters of a template are its placeholders. -/
theorem placeholders_iff (template : String) (names : List String) :
    Placeholders template.toList (names.map String.toList) ↔
      templateParameters template = names := by
  have hread := placeholders_scanParameters (Nat.le_refl template.toList.length)
  constructor
  · intro h
    rw [templateParameters, hread.unique h, List.map_map]
    simp [Function.comp_def]
  · rintro rfl
    rw [templateParameters, List.map_map]
    simpa [Function.comp_def] using hread

/-- A template is put together of its parameters, which can stand in braces, and of texts. -/
theorem exists_eq_assemble (template : String) :
    (∀ name ∈ templateParameters template, IsName name.toList) ∧
      ∃ first pieces, template = assemble first pieces ∧
        pieces.map Prod.fst = templateParameters template := by
  obtain ⟨hnames, first, pieces, htext, hpieces⟩ :=
    ((placeholders_iff template _).mpr rfl).exists_eq_assembleChars
  refine ⟨fun name hname => hnames _ (List.mem_map_of_mem hname), String.ofList first,
    pieces.map fun piece => (String.ofList piece.1, String.ofList piece.2), ?_, ?_⟩
  · refine String.toList_inj.mp ?_
    rw [toList_assemble, htext, List.map_map]
    simp [Function.comp_def]
  · have hofList := congrArg (List.map String.ofList) hpieces
    simpa [Function.comp_def] using hofList

/-- A template that is put together of texts without opening braces, and of names without closing
braces and line feeds in braces, has these names as its parameters.  And the parameters of any
template are such names, the template is put together of them and of texts between them, and they
are its placeholders: each is enclosed by the first opening brace, behind the placeholder before,
that is closed on its line, and by the next closing brace. -/
theorem templateParameters_of_assemble :
    (∀ (first : String) (pieces : List (String × String)), '\x7b' ∉ first.toList →
      (∀ piece ∈ pieces, IsName piece.1.toList ∧ '\x7b' ∉ piece.2.toList) →
        templateParameters (assemble first pieces) = pieces.map Prod.fst) ∧
    ∀ template : String,
      (∀ name ∈ templateParameters template, IsName name.toList) ∧
      (∃ first pieces, template = assemble first pieces ∧
        pieces.map Prod.fst = templateParameters template) ∧
      ∀ names : List String, Placeholders template.toList (names.map String.toList) ↔
        templateParameters template = names := by
  refine ⟨fun first pieces hfirst hpieces => ?_, fun template => ?_⟩
  · have hchars : ∀ piece ∈ pieces.map fun piece => (piece.1.toList, piece.2.toList),
        IsName piece.1 ∧ '\x7b' ∉ piece.2 :=
      List.forall_mem_map.mpr hpieces
    have hplaceholders := placeholders_assembleChars hfirst hchars
    rw [← toList_assemble, List.map_map] at hplaceholders
    refine (placeholders_iff _ _).mp ?_
    rwa [List.map_map]
  · obtain ⟨hnames, hassembled⟩ := exists_eq_assemble template
    exact ⟨hnames, hassembled, placeholders_iff template⟩

/-- Braces in names and texts, an empty name, and a text with a line feed. -/
theorem templateParameters_of_nestedBraces :
    templateParameters "\x7d/\x7b\x7bid\x7d\n\x7d\x7b\x7d" = ["\x7bid", ""] :=
  templateParameters_of_assemble.1 "\x7d/" [("\x7bid", "\n\x7d"), ("", "")] (by decide)
    (by simp [isName_iff])

/-- A brace that is not closed on its line opens nothing. -/
example : templateParameters "\x7ba\n\x7bb\x7d\x7bc" = ["b"] := by decide +kernel

end ApiLint.Naming
