import ApiLint.OpenApi.MediaType
import ApiLint.Proofs.Lists
import ApiLint.Proofs.Text.Case
import Mathlib.Data.List.TakeWhile
set_option autoImplicit false

/-!
# Recognition of JSON media types

A JSON type is `application/json` or a type and a subtype with the suffix `+json`; what is
recognized is a JSON type with a trailer.  Blanks at the end, parameters and the case of ASCII
letters make no difference.
-/

namespace ApiLint.MediaType

open Text (IsCaseOf foldCase)

/-! ## What is recognized -/

/-- The name of a type or subtype: word characters of any script, dots and hyphens. -/
def IsToken (name : List Char) : Prop :=
  name ≠ [] ∧ ∀ c ∈ name, Text.isWordChar c = true ∨ c = '.' ∨ c = '-'

/-- A media type that stands for JSON, with nothing behind it. -/
inductive IsJsonType : List Char → Prop
  | application {text : List Char} (h : IsCaseOf "application/json".toList text) : IsJsonType text
  | suffixed {mainType subtype suffix : List Char} (hmain : IsToken mainType)
    (hsub : IsToken subtype) (hsuffix : IsCaseOf "+json".toList suffix) :
    IsJsonType (mainType ++ '/' :: (subtype ++ suffix))

/-- Blanks, or blanks and parameters behind a semicolon on one line. -/
inductive IsTrailer : List Char → Prop
  | blanks {blanks : List Char} (h : ∀ c ∈ blanks, Text.isWhiteSpace c = true) : IsTrailer blanks
  | parameters {blanks parameters : List Char} (h : ∀ c ∈ blanks, Text.isWhiteSpace c = true)
    (hline : '\n' ∉ parameters) : IsTrailer (blanks ++ ';' :: parameters)

/-- A JSON type and a trailer. -/
def IsJsonText (text : List Char) : Prop :=
  ∃ bare trailer, text = bare ++ trailer ∧ IsJsonType bare ∧ IsTrailer trailer

theorem isTokenChar_iff (c : Char) :
    isTokenChar c = true ↔ Text.isWordChar c = true ∨ c = '.' ∨ c = '-' := by
  simp [isTokenChar, or_assoc]

theorem isToken_iff (name : List Char) :
    IsToken name ↔ name ≠ [] ∧ ∀ c ∈ name, isTokenChar c = true := by
  simp only [IsToken, isTokenChar_iff]

theorem isTokenChar_foldCase (c : Char) : isTokenChar (foldCase c) = isTokenChar c :=
  Text.foldCase_invariant (by decide) (by decide +kernel) (by decide +kernel) c

theorem isWhiteSpace_foldCase (c : Char) : Text.isWhiteSpace (foldCase c) = Text.isWhiteSpace c :=
  Text.foldCase_invariant (by decide) (by decide) (by decide) c

/-! ## The matcher -/

theorem isTrailer_iff (text : List Char) : isTrailer text = true ↔ IsTrailer text := by
  constructor
  · intro h
    have htext := List.takeWhile_append_dropWhile (p := Text.isWhiteSpace) (l := text)
    have hblanks : ∀ c ∈ text.takeWhile Text.isWhiteSpace, Text.isWhiteSpace c = true :=
      fun c hc => List.mem_takeWhile_imp hc
    unfold isTrailer at h
    split at h
    · next parameters hdrop =>
      have hline : '\n' ∉ parameters := fun hmem => by simpa using List.all_eq_true.mp h _ hmem
      rw [← htext, hdrop]
      exact .parameters hblanks hline
    · rw [← htext, List.isEmpty_iff.mp h, List.append_nil]
      exact .blanks hblanks
  · intro h
    cases h with
    | blanks hblanks =>
      rw [isTrailer, List.dropWhile_eq_nil_iff.mpr hblanks]
      rfl
    | @parameters blanks parameters hblanks hline =>
      have hall : parameters.all (· ≠ '\n') = true :=
        List.all_eq_true.mpr fun c hc => decide_eq_true (ne_of_mem_of_not_mem hc hline)
      have hsemicolon : ¬ Text.isWhiteSpace ';' = true := by decide
      rw [isTrailer, List.dropWhile_append_of_pos hblanks, List.dropWhile_cons_of_neg hsemicolon]
      exact hall

theorem isApplicationJson_iff (text : List Char) :
    isApplicationJson text = true ↔
      ∃ bare trailer, text = bare ++ trailer ∧ IsCaseOf "application/json".toList bare ∧
        IsTrailer trailer := by
  have hdrop : ∀ trailer, Text.dropCaseless "application/json".toList text = some trailer ↔ _ :=
    fun _ => Text.dropCaseless_eq_some_iff (by decide)
  unfold isApplicationJson
  constructor
  · intro h
    split at h
    · next trailer hrest =>
      obtain ⟨bare, htext, hbare⟩ := (hdrop trailer).mp hrest
      exact ⟨bare, trailer, htext, hbare, (isTrailer_iff trailer).mp h⟩
    · cases h
  · rintro ⟨bare, trailer, htext, hbare, htrailer⟩
    rw [(hdrop trailer).mpr ⟨bare, htext, hbare⟩]
    exact (isTrailer_iff trailer).mpr htrailer

/-- A suffix begins where the subtype ends. -/
theorem exists_eq_cons_of_isCaseOf_suffix {suffix : List Char}
    (h : IsCaseOf "+json".toList suffix) :
    ∃ c rest, suffix = c :: rest ∧ ¬ isTokenChar c = true := by
  obtain ⟨c, rest, rfl, hc, _⟩ := List.map_eq_cons_iff.mp h
  refine ⟨c, rest, rfl, ?_⟩
  rw [← isTokenChar_foldCase, hc]
  decide

theorem isSuffixed_iff (text : List Char) :
    isSuffixed text = true ↔
      ∃ mainType subtype suffix trailer,
        text = mainType ++ '/' :: (subtype ++ (suffix ++ trailer)) ∧ IsToken mainType ∧
          IsToken subtype ∧ IsCaseOf "+json".toList suffix ∧ IsTrailer trailer := by
  have hdrop : ∀ rest trailer, Text.dropCaseless "+json".toList rest = some trailer ↔ _ :=
    fun _ _ => Text.dropCaseless_eq_some_iff (by decide)
  constructor
  · intro h
    unfold isSuffixed at h
    split at h
    · next rest hrest =>
      split at h
      · next trailer htrailer =>
        obtain ⟨suffix, hsplit, hsuffix⟩ := (hdrop _ trailer).mp htrailer
        simp only [Bool.and_eq_true, Bool.not_eq_true', List.isEmpty_eq_false_iff] at h
        obtain ⟨⟨hmain, hsub⟩, htrailer⟩ := h
        refine ⟨text.takeWhile isTokenChar, rest.takeWhile isTokenChar, suffix, trailer, ?_,
          (isToken_iff _).mpr ⟨hmain, fun c hc => List.mem_takeWhile_imp hc⟩,
          (isToken_iff _).mpr ⟨hsub, fun c hc => List.mem_takeWhile_imp hc⟩, hsuffix,
          (isTrailer_iff trailer).mp htrailer⟩
        rw [← hsplit, List.takeWhile_append_dropWhile, ← hrest, List.takeWhile_append_dropWhile]
      · cases h
    · cases h
  · rintro ⟨mainType, subtype, suffix, trailer, rfl, hmain, hsub, hsuffix, htrailer⟩
    obtain ⟨hmain, hmainChars⟩ := (isToken_iff _).mp hmain
    obtain ⟨hsub, hsubChars⟩ := (isToken_iff _).mp hsub
    have hslash : ¬ isTokenChar '/' = true := by decide
    have hrest := (hdrop (suffix ++ trailer) trailer).mpr ⟨suffix, rfl, hsuffix⟩
    obtain ⟨c, rest, rfl, hc⟩ := exists_eq_cons_of_isCaseOf_suffix hsuffix
    rw [List.cons_append] at hrest ⊢
    rw [isSuffixed, List.takeWhile_append_of_pos hmainChars, List.dropWhile_append_of_pos hmainChars,
      List.takeWhile_cons_of_neg hslash, List.dropWhile_cons_of_neg hslash]
    simp only [List.takeWhile_append_of_pos hsubChars, List.dropWhile_append_of_pos hsubChars,
      List.takeWhile_cons_of_neg hc, List.dropWhile_cons_of_neg hc, hrest, List.append_nil]
    simp [hmain, hsub, (isTrailer_iff trailer).mpr htrailer]

theorem isJson_iff (mediaType : String) :
    isJson mediaType = true ↔ IsJsonText mediaType.toList := by
  rw [isJson, Bool.or_eq_true, isApplicationJson_iff, isSuffixed_iff]
  constructor
  · rintro (⟨bare, trailer, htext, hbare, htrailer⟩ |
      ⟨mainType, subtype, suffix, trailer, htext, hmain, hsub, hsuffix, htrailer⟩)
    · exact ⟨bare, trailer, htext, .application hbare, htrailer⟩
    · exact ⟨_, trailer, by simp [htext], .suffixed hmain hsub hsuffix, htrailer⟩
  · rintro ⟨bare, trailer, htext, hbare, htrailer⟩
    cases hbare with
    | application hbare => exact .inl ⟨bare, trailer, htext, hbare, htrailer⟩
    | @suffixed mainType subtype suffix hmain hsub hsuffix =>
      exact .inr ⟨mainType, subtype, suffix, trailer, by simp [htext], hmain, hsub, hsuffix,
        htrailer⟩

/-! ## Parts of a JSON type -/

theorem semicolon_notMem_of_isCaseOf {literal text : List Char} (h : IsCaseOf literal text)
    (hliteral : ';' ∉ literal) : ';' ∉ text := by
  intro hmem
  have hfolded : foldCase ';' ∈ text.map foldCase := List.mem_map_of_mem hmem
  rw [h] at hfolded
  exact hliteral hfolded

theorem semicolon_notMem_of_isToken {name : List Char} (h : IsToken name) : ';' ∉ name := by
  intro hmem
  rcases h.2 ';' hmem with h | h | h <;> revert h <;> decide

theorem semicolon_notMem_of_blanks {blanks : List Char}
    (h : ∀ c ∈ blanks, Text.isWhiteSpace c = true) : ';' ∉ blanks := by
  intro hmem
  exact absurd (h ';' hmem) (by decide)

theorem IsJsonType.semicolon_notMem {text : List Char} (h : IsJsonType text) : ';' ∉ text := by
  cases h with
  | application h => exact semicolon_notMem_of_isCaseOf h (by decide)
  | suffixed hmain hsub hsuffix =>
    simp [semicolon_notMem_of_isToken hmain, semicolon_notMem_of_isToken hsub,
      semicolon_notMem_of_isCaseOf hsuffix (by decide)]

theorem IsJsonType.getLast?_map_foldCase {text : List Char} (h : IsJsonType text) :
    text.getLast?.map foldCase = some 'n' := by
  cases h with
  | application h =>
    rw [← List.getLast?_map, h]
    rfl
  | @suffixed mainType subtype suffix _ _ hsuffix =>
    have hlast : suffix.getLast?.map foldCase = some 'n' := by
      rw [← List.getLast?_map, hsuffix]
      rfl
    obtain ⟨c, hc, hfold⟩ := Option.map_eq_some_iff.mp hlast
    simp [List.getLast?_cons, hc, hfold]

/-- A JSON type does not end in a blank. -/
theorem IsJsonType.last_not_blank {text : List Char} (h : IsJsonType text) {c : Char}
    (hc : text.getLast? = some c) : Text.isWhiteSpace c = false := by
  have hfold := h.getLast?_map_foldCase
  rw [hc] at hfold
  rw [← isWhiteSpace_foldCase, Option.some.inj hfold]
  decide

/-- There are no blanks behind a text that does not end in one. -/
theorem eq_nil_of_blanks {front blanks : List Char}
    (hlast : ∀ c, (front ++ blanks).getLast? = some c → Text.isWhiteSpace c = false)
    (hblanks : ∀ c ∈ blanks, Text.isWhiteSpace c = true) : blanks = [] := by
  cases hend : blanks.getLast? with
  | none => exact List.getLast?_eq_none_iff.mp hend
  | some c =>
    have hblank := hblanks c (List.mem_of_getLast? hend)
    rw [hlast c (by rw [List.getLast?_append, hend]; rfl)] at hblank
    cases hblank

/-! ## Blanks and parameters -/

theorem isJsonText_iff_of_semicolon_notMem {text : List Char} (h : ';' ∉ text) :
    IsJsonText text ↔
      ∃ bare blanks, text = bare ++ blanks ∧ IsJsonType bare ∧
        ∀ c ∈ blanks, Text.isWhiteSpace c = true := by
  constructor
  · rintro ⟨bare, trailer, rfl, hbare, htrailer⟩
    cases htrailer with
    | blanks hblanks => exact ⟨bare, trailer, rfl, hbare, hblanks⟩
    | parameters _ _ => simp at h
  · rintro ⟨bare, blanks, rfl, hbare, hblanks⟩
    exact ⟨bare, blanks, rfl, hbare, .blanks hblanks⟩

theorem isJsonText_append_blanks {text blanks : List Char} (h : ';' ∉ text)
    (hblanks : ∀ c ∈ blanks, Text.isWhiteSpace c = true) :
    IsJsonText (text ++ blanks) ↔ IsJsonText text := by
  have hlonger : ';' ∉ text ++ blanks := by
    simp [h, semicolon_notMem_of_blanks hblanks]
  rw [isJsonText_iff_of_semicolon_notMem h, isJsonText_iff_of_semicolon_notMem hlonger]
  constructor
  · rintro ⟨bare, others, heq, hbare, hothers⟩
    rcases List.append_eq_append_iff.mp heq with ⟨more, rfl, rfl⟩ | ⟨more, rfl, rfl⟩
    · -- the type would reach into the blanks
      have hmore : more = [] := eq_nil_of_blanks (fun _ hc => hbare.last_not_blank hc)
        fun c hc => hblanks c (List.mem_append_left _ hc)
      subst hmore
      exact ⟨text, [], by simp, by simpa using hbare, by simp⟩
    · exact ⟨bare, more, rfl, hbare, fun c hc => hothers c (List.mem_append_left _ hc)⟩
  · rintro ⟨bare, others, rfl, hbare, hothers⟩
    exact ⟨bare, others ++ blanks, by simp, hbare,
      fun c hc => (List.mem_append.mp hc).elim (hothers c) (hblanks c)⟩

theorem isJsonText_append_parameters {text parameters : List Char} (h : ';' ∉ text)
    (hline : '\n' ∉ parameters) :
    IsJsonText (text ++ ';' :: parameters) ↔ IsJsonText text := by
  rw [isJsonText_iff_of_semicolon_notMem h]
  constructor
  · rintro ⟨bare, trailer, heq, hbare, htrailer⟩
    have hsemicolon : ';' ∈ bare ++ trailer := heq ▸ by simp
    cases htrailer with
    | blanks hblanks =>
      exact absurd hsemicolon (by simp [hbare.semicolon_notMem, semicolon_notMem_of_blanks hblanks])
    | @parameters blanks others hblanks _ =>
      have hfront : ';' ∉ bare ++ blanks := by
        simp [hbare.semicolon_notMem, semicolon_notMem_of_blanks hblanks]
      rw [← List.append_assoc] at heq
      exact ⟨bare, blanks, (eq_of_append_cons_eq h hfront heq).1, hbare, hblanks⟩
  · rintro ⟨bare, blanks, rfl, hbare, hblanks⟩
    exact ⟨bare, blanks ++ ';' :: parameters, by simp, hbare, .parameters hblanks hline⟩

/-! ## Case of letters -/

theorem IsToken.of_sameLetters {name other : List Char} (h : IsToken name)
    (hsame : Text.SameLetters name other) : IsToken other := by
  obtain ⟨hne, hchars⟩ := (isToken_iff name).mp h
  refine (isToken_iff other).mpr ⟨?_, hsame.forall_mem (by decide) hchars⟩
  rintro rfl
  exact hne (List.map_eq_nil_iff.mp hsame)

theorem IsJsonType.of_sameLetters {text other : List Char} (h : IsJsonType text)
    (hsame : Text.SameLetters text other) : IsJsonType other := by
  cases h with
  | application h => exact .application (hsame.isCaseOf h)
  | suffixed hmain hsub hsuffix =>
    obtain ⟨mainType, _, rfl, hsameMain, hslash⟩ := hsame.exists_append
    obtain ⟨_, rfl, hrest⟩ := hslash.exists_cons (by decide) (by decide)
    obtain ⟨subtype, suffix, rfl, hsameSub, hsameSuffix⟩ := hrest.exists_append
    exact .suffixed (hmain.of_sameLetters hsameMain) (hsub.of_sameLetters hsameSub)
      (hsameSuffix.isCaseOf hsuffix)

theorem IsTrailer.of_sameLetters {text other : List Char} (h : IsTrailer text)
    (hsame : Text.SameLetters text other) : IsTrailer other := by
  cases h with
  | blanks hblanks => exact .blanks (hsame.forall_mem (by decide) hblanks)
  | parameters hblanks hline =>
    obtain ⟨blanks, _, rfl, hsameBlanks, hsemicolon⟩ := hsame.exists_append
    obtain ⟨parameters, rfl, hsameParameters⟩ := hsemicolon.exists_cons (by decide) (by decide)
    have hchars := hsameParameters.forall_mem (p := (· ≠ '\n')) (by decide) fun c hc =>
      decide_eq_true (ne_of_mem_of_not_mem hc hline)
    exact .parameters (hsameBlanks.forall_mem (by decide) hblanks) fun hmem =>
      of_decide_eq_true (hchars _ hmem) rfl

theorem IsJsonText.of_sameLetters {text other : List Char} (h : IsJsonText text)
    (hsame : Text.SameLetters text other) : IsJsonText other := by
  obtain ⟨bare, trailer, rfl, hbare, htrailer⟩ := h
  obtain ⟨bare', trailer', rfl, hsameBare, hsameTrailer⟩ := hsame.exists_append
  exact ⟨bare', trailer', rfl, hbare.of_sameLetters hsameBare,
    htrailer.of_sameLetters hsameTrailer⟩

/-! ## JSON media types -/

theorem isJson_eq_of_equalIgnoringAsciiCase {mediaType other : String}
    (h : Text.equalIgnoringAsciiCase mediaType other = true) : isJson other = isJson mediaType := by
  have hsame : Text.SameLetters mediaType.toList other.toList := eq_of_beq h
  rw [Bool.eq_iff_iff, isJson_iff, isJson_iff]
  exact ⟨fun h => h.of_sameLetters (Eq.symm hsame), fun h => h.of_sameLetters hsame⟩

/-- Without a semicolon and blanks at the end, what is recognized is a JSON type. -/
theorem isJson_iff_isJsonType {mediaType : String} (h : ';' ∉ mediaType.toList)
    (hlast : ∀ c, mediaType.toList.getLast? = some c → Text.isWhiteSpace c = false) :
    isJson mediaType = true ↔ IsJsonType mediaType.toList := by
  rw [isJson_iff, isJsonText_iff_of_semicolon_notMem h]
  constructor
  · rintro ⟨bare, blanks, heq, hbare, hblanks⟩
    have hnil : blanks = [] := eq_nil_of_blanks (heq ▸ hlast) hblanks
    rwa [heq, hnil, List.append_nil]
  · intro hjson
    exact ⟨mediaType.toList, [], by simp, hjson, by simp⟩

/-- A media type without semicolon is answered alike with blanks at its end, with parameters on one
line behind these, and with its ASCII letters in any case.  And if it does not end in a blank, it
is accepted exactly when it is a JSON type. -/
theorem isJson_ignores_parameters :
    (∀ mediaType blanks parameters other : String, ';' ∉ mediaType.toList →
      (∀ c ∈ blanks.toList, Text.isWhiteSpace c = true) → '\n' ∉ parameters.toList →
      Text.equalIgnoringAsciiCase mediaType other = true →
        isJson (mediaType ++ blanks) = isJson mediaType ∧
        isJson (mediaType ++ blanks ++ ";" ++ parameters) = isJson mediaType ∧
        isJson other = isJson mediaType) ∧
    ∀ mediaType : String, ';' ∉ mediaType.toList →
      (∀ c, mediaType.toList.getLast? = some c → Text.isWhiteSpace c = false) →
        (isJson mediaType = true ↔ IsJsonType mediaType.toList) := by
  refine ⟨fun mediaType blanks parameters other h hblanks hline hcase => ?_,
    fun mediaType h hlast => isJson_iff_isJsonType h hlast⟩
  have hfront : ';' ∉ (mediaType ++ blanks).toList := by
    simp [h, semicolon_notMem_of_blanks hblanks]
  have happend : isJson (mediaType ++ blanks) = isJson mediaType := by
    rw [Bool.eq_iff_iff, isJson_iff, isJson_iff, String.toList_append,
      isJsonText_append_blanks h hblanks]
  have hparameters : isJson (mediaType ++ blanks ++ ";" ++ parameters) =
      isJson (mediaType ++ blanks) := by
    have htext : (mediaType ++ blanks ++ ";" ++ parameters).toList =
        (mediaType ++ blanks).toList ++ ';' :: parameters.toList := by
      simp
    rw [Bool.eq_iff_iff, isJson_iff, isJson_iff, htext, isJsonText_append_parameters hfront hline]
  exact ⟨happend, hparameters.trans happend, isJson_eq_of_equalIgnoringAsciiCase hcase⟩

/-- A type in Greek letters, whose suffix has a long s, with an ideographic blank and a second
semicolon behind it. -/
theorem isJson_greekType :
    isJson "τύπος/v1.α+J\u017fON" = true ∧
    isJson ("τύπος/v1.α+J\u017fON" ++ "\u3000" ++ ";" ++ "q=\"; x") = true ∧
    IsJsonType "τύπος/v1.α+J\u017fON".toList := by
  have hjson : isJson "τύπος/v1.α+J\u017fON" = true := by decide +kernel
  have hblank : "\u3000".toList.all Text.isWhiteSpace = true := by decide
  have hlast : "τύπος/v1.α+J\u017fON".toList.getLast? = some 'N' := by decide
  obtain ⟨_, hparameters, _⟩ := isJson_ignores_parameters.1 "τύπος/v1.α+J\u017fON" "\u3000"
    "q=\"; x" "τύπος/V1.α+j\u017fON" (by decide) (List.all_eq_true.mp hblank) (by decide) (by decide)
  refine ⟨hjson, hparameters.trans hjson,
    (isJson_ignores_parameters.2 "τύπος/v1.α+J\u017fON" (by decide) fun c hc => ?_).mp hjson⟩
  obtain rfl := Option.some.inj (hlast.symm.trans hc)
  decide

/-- A plus sign is in no name. -/
example : isJson "application/a+b+json" = false := by decide +kernel

end ApiLint.MediaType
