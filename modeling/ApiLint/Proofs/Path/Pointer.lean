import ApiLint.Proofs.Node.Steps
import ApiLint.Proofs.Text.Lines
set_option autoImplicit false

/-!
# Pointers

A pointer is read without knowing the path that it was made from: it is split at its slashes,
in each token `~1` becomes a slash and after that `~0` becomes a tilde, and a token is followed
as the name of a member or as the decimal number of an element.  The pointer of a path is read
back to the texts of its steps.  These do not tell a key from an index, but the node that a step
is taken from does; so in one document a pointer leads where its path does, and no two paths
that lead somewhere have the same pointer.
-/

namespace ApiLint

namespace Pointer

/-! ## Reading a pointer -/

/-- Every `~` of the token is followed by `0` or `1`. -/
def isEscaped : List Char → Bool
  | [] => true
  | '~' :: '0' :: rest => isEscaped rest
  | '~' :: '1' :: rest => isEscaped rest
  | c :: rest => c ≠ '~' && isEscaped rest

/-- The text with one character in place of every occurrence of two. -/
def replacePair (first second replacement : Char) : List Char → List Char
  | [] => []
  | [c] => [c]
  | c :: d :: rest =>
    if c = first ∧ d = second then replacement :: replacePair first second replacement rest
    else c :: replacePair first second replacement (d :: rest)

/-- The text that a token stands for: `~1` is decoded first, so that `~01` is read as `~1`. -/
def decodeToken (token : List Char) : List Char :=
  replacePair '~' '0' '~' (replacePair '~' '1' '/' token)

/-- The decoded tokens of a pointer: each begins with a slash, and the empty pointer has none. -/
def tokens? (pointer : String) : Option (List String) :=
  match Text.splitList '/' pointer.toList with
  | [] :: tokens =>
    if tokens.all isEscaped then some (tokens.map fun token => String.ofList (decodeToken token))
    else none
  | _ => none

/-- The number of an element, in decimal digits of which the first is no needless zero. -/
def position? (token : String) : Option Nat :=
  match token.toList with
  | [] => none
  | ['0'] => some 0
  | first :: rest =>
    if first ≠ '0' ∧ (first :: rest).all Char.isDigit then
      some (Nat.ofDigitChars 10 (first :: rest) 0)
    else none

/-- The node that a token leads to: the member of its name, provided there is only one, or the
element of its number. -/
def follow (node : Node) (token : String) : Option Node :=
  match node with
  | .object fields =>
    match fields.filter (·.1 = token) with
    | [field] => some field.2
    | _ => none
  | .array items => (position? token).bind fun position => items[position]?
  | _ => none

/-- The node of a document that a pointer leads to. -/
def evaluate (pointer : String) (document : Node) : Option Node :=
  (tokens? pointer).bind fun tokens => tokens.foldlM follow document

/-! ## Decoding what was escaped -/

theorem escapePointer_cons_of_ne {c : Char} (htilde : c ≠ '~') (hslash : c ≠ '/')
    (rest : List Char) :
    DocPath.escapePointer (c :: rest) = c :: DocPath.escapePointer rest := by
  rw [DocPath.escapePointer]
  · exact htilde
  · exact hslash

theorem isEscaped_cons_of_ne {c : Char} (h : c ≠ '~') (rest : List Char) :
    isEscaped (c :: rest) = isEscaped rest := by
  rw [isEscaped]
  · simp [h]
  · exact fun _ heq => absurd heq h
  · exact fun _ heq => absurd heq h

theorem replacePair_cons_of_ne {first c : Char} (h : c ≠ first) (second replacement : Char)
    (rest : List Char) :
    replacePair first second replacement (c :: rest) =
      c :: replacePair first second replacement rest := by
  cases rest with
  | nil => rfl
  | cons d rest => rw [replacePair, if_neg fun hpair => h hpair.1]

theorem isEscaped_escapePointer (text : List Char) :
    isEscaped (DocPath.escapePointer text) = true := by
  induction text with
  | nil => rfl
  | cons c rest ih =>
    by_cases htilde : c = '~'
    · subst htilde
      simpa [DocPath.escapePointer, isEscaped] using ih
    · by_cases hslash : c = '/'
      · subst hslash
        simpa [DocPath.escapePointer, isEscaped] using ih
      · rw [escapePointer_cons_of_ne htilde hslash, isEscaped_cons_of_ne htilde, ih]

theorem slash_notMem_escapePointer (text : List Char) :
    '/' ∉ DocPath.escapePointer text := by
  induction text with
  | nil => exact List.not_mem_nil
  | cons c rest ih =>
    by_cases htilde : c = '~'
    · subst htilde
      simpa [DocPath.escapePointer] using ih
    · by_cases hslash : c = '/'
      · subst hslash
        simpa [DocPath.escapePointer] using ih
      · rw [escapePointer_cons_of_ne htilde hslash, List.mem_cons, not_or]
        exact ⟨fun heq => hslash heq.symm, ih⟩

/-- A text in which every tilde is written `~0`, and slashes stand for themselves. -/
def escapeTildes (text : List Char) : List Char :=
  text.flatMap fun c => if c = '~' then ['~', '0'] else [c]

/-- The first pass gives back the slashes and leaves the tildes escaped: a tilde and a one were
written `~01`, in which there is no `~1`. -/
theorem replacePair_escapePointer (text : List Char) :
    replacePair '~' '1' '/' (DocPath.escapePointer text) = escapeTildes text := by
  induction text with
  | nil => rfl
  | cons c rest ih =>
    rw [escapeTildes, List.flatMap_cons, ← escapeTildes, ← ih]
    by_cases htilde : c = '~'
    · subst htilde
      rw [DocPath.escapePointer, replacePair, if_neg (by decide),
        replacePair_cons_of_ne (by decide), if_pos rfl]
      rfl
    · rw [if_neg htilde]
      by_cases hslash : c = '/'
      · subst hslash
        rw [DocPath.escapePointer, replacePair, if_pos ⟨rfl, rfl⟩]
        rfl
      · rw [escapePointer_cons_of_ne htilde hslash, replacePair_cons_of_ne htilde]
        rfl

theorem replacePair_escapeTildes (text : List Char) :
    replacePair '~' '0' '~' (escapeTildes text) = text := by
  induction text with
  | nil => rfl
  | cons c rest ih =>
    rw [escapeTildes, List.flatMap_cons, ← escapeTildes]
    by_cases htilde : c = '~'
    · subst htilde
      rw [if_pos rfl, List.cons_append, List.singleton_append, replacePair, if_pos ⟨rfl, rfl⟩, ih]
    · rw [if_neg htilde, List.singleton_append, replacePair_cons_of_ne htilde, ih]

theorem decodeToken_escapePointer (text : List Char) :
    decodeToken (DocPath.escapePointer text) = text := by
  rw [decodeToken, replacePair_escapePointer, replacePair_escapeTildes]

/-! ## Tokens of a path -/

/-- The slashes of a pointer are those in front of its steps. -/
theorem splitList_pointer (path : DocPath) :
    Text.splitList '/' path.pointer.toList =
      [] :: path.map fun segment => DocPath.escapePointer segment.text.toList := by
  rw [DocPath.pointer, String.toList_ofList]
  -- what stands in front of the first slash is kept open, so that the induction can go on
  have hfront : ∀ (front : List Char), '/' ∉ front →
      Text.splitList '/' (front ++ path.flatMap fun segment =>
        '/' :: DocPath.escapePointer segment.text.toList) =
        front :: path.map fun segment => DocPath.escapePointer segment.text.toList := by
    induction path with
    | nil =>
      intro front h
      rw [List.flatMap_nil, List.append_nil, Text.splitList_of_notMem h]
      rfl
    | cons segment rest ih =>
      intro front h
      rw [List.flatMap_cons, List.cons_append, Text.splitList_append h,
        ih _ (slash_notMem_escapePointer _)]
      rfl
  exact hfront [] List.not_mem_nil

/-- The tokens of the pointer of a path are the texts of its steps. -/
theorem tokens?_pointer (path : DocPath) :
    tokens? path.pointer = some (path.map Segment.text) := by
  have hall : (path.map fun segment => DocPath.escapePointer segment.text.toList).all isEscaped =
      true := by
    simp [isEscaped_escapePointer]
  rw [tokens?, splitList_pointer]
  dsimp only
  rw [if_pos hall, List.map_map]
  refine congrArg some (List.map_congr_left fun segment _ => ?_)
  rw [Function.comp_apply, decodeToken_escapePointer, String.ofList_toList]

/-! ## Numbers of elements -/

theorem exists_toDigits_eq_cons {n : Nat} (h : 0 < n) :
    ∃ first rest, Nat.toDigits 10 n = first :: rest ∧ first ≠ '0' := by
  induction n using Nat.strongRecOn with
  | ind n ih =>
    by_cases hlt : n < 10
    · refine ⟨n.digitChar, [], Nat.toDigits_of_lt_base hlt, ?_⟩
      rw [ne_eq, Nat.digitChar_eq_zero]
      omega
    · obtain ⟨first, rest, hdigits, hfirst⟩ := ih (n / 10) (by omega) (by omega)
      refine ⟨first, rest ++ [(n % 10).digitChar], ?_, hfirst⟩
      rw [Nat.toDigits_of_base_le (by decide) (by omega), hdigits, List.cons_append]

/-- The text of a position is read as the position. -/
theorem position?_toString (n : Nat) : position? (toString n) = some n := by
  have htext : (toString n).toList = Nat.toDigits 10 n := Nat.toList_repr
  rcases Nat.eq_zero_or_pos n with rfl | hpos
  · rfl
  · obtain ⟨first, rest, hdigits, hfirst⟩ := exists_toDigits_eq_cons hpos
    have hall : (first :: rest).all Char.isDigit = true := by
      rw [← hdigits, List.all_eq_true]
      exact fun c hc => Nat.isDigit_of_mem_toDigits (by decide) (by decide) hc
    rw [position?, htext, hdigits]
    split
    · next heq => simp at heq
    · next heq => exact absurd (List.cons.inj heq).1 hfirst
    · next heq =>
      rw [← heq, if_pos ⟨(List.cons.inj heq).1 ▸ hfirst, hall⟩, ← hdigits,
        Nat.ofDigitChars_ten_toDigits]

theorem toString_injective {m n : Nat} (h : toString m = toString n) : m = n := by
  have hm := position?_toString m
  rw [h, position?_toString n] at hm
  exact (Option.some.inj hm).symm

/-! ## Following the tokens of a path -/

/-- With distinct keys, the field under a key is the only one of its name. -/
theorem filter_key_eq_singleton {fields : Fields} (hnodup : (Fields.keys fields).Nodup)
    {key : String} {value : Node} (h : Fields.get? fields key = some value) :
    fields.filter (·.1 = key) = [(key, value)] := by
  induction fields with
  | nil => simp [Fields.get?] at h
  | cons field rest ih =>
    obtain ⟨k, v⟩ := field
    obtain ⟨hk, hrest⟩ := List.nodup_cons.mp hnodup
    rw [Fields.get?] at h
    split at h
    · next hkey =>
      subst hkey
      obtain rfl := Option.some.inj h
      have hothers : rest.filter (·.1 = k) = [] := by
        refine List.filter_eq_nil_iff.mpr fun other hother heq => hk ?_
        have hmem : other.1 ∈ Fields.keys rest := List.mem_map_of_mem hother
        exact of_decide_eq_true heq ▸ hmem
      rw [List.filter_cons_of_pos (by simp), hothers]
    · next hkey => rw [List.filter_cons_of_neg (by simp [hkey]), ih hrest h]

/-- The text of a step leads where the step does. -/
theorem follow_text {node next : Node} (h : node.WellFormed) {segment : Segment}
    (hstep : DocPath.step? node segment = some next) :
    follow node segment.text = some next := by
  cases segment with
  | index position =>
    cases node with
    | array items =>
      have hitem : items[position]? = some next := hstep
      rw [Segment.text, follow, position?_toString, Option.bind_some, hitem]
    | _ => simp [DocPath.step?, Node.items?] at hstep
  | key name =>
    cases node with
    | object fields =>
      have hget : Fields.get? fields name = some next := hstep
      have hnodup : (Fields.keys fields).Nodup := h.nodup_keys
      rw [Segment.text, follow, filter_key_eq_singleton hnodup hget]
    | _ => simp [DocPath.step?, Node.get?] at hstep

theorem foldlM_follow_of_resolve {path : DocPath} {root node : Node} (h : root.WellFormed)
    (hresolve : path.resolve root = some node) :
    (path.map Segment.text).foldlM follow root = some node := by
  induction path generalizing root with
  | nil => exact hresolve
  | cons segment rest ih =>
    obtain ⟨next, hnext, hrest⟩ := Option.bind_eq_some_iff.mp hresolve
    rw [List.map_cons, List.foldlM_cons, follow_text h hnext]
    exact ih (h.of_mem_steps (h.mem_steps_iff.mpr hnext)) hrest

end Pointer

namespace DocPath

/-! ## Paths told apart by their texts -/

/-- Steps from one node have different texts: a key needs an object and an index an array. -/
theorem eq_of_text_eq {node a b : Node} {s t : Segment} (hs : step? node s = some a)
    (ht : step? node t = some b) (htext : s.text = t.text) : s = t := by
  cases s with
  | index m =>
    cases t with
    | index n => rw [Pointer.toString_injective htext]
    | key name => cases node <;> simp [step?, Node.items?, Node.get?] at hs ht
  | key name =>
    cases t with
    | index n => cases node <;> simp [step?, Node.items?, Node.get?] at hs ht
    | key other => exact congrArg Segment.key htext

/-- Paths through one document have different texts. -/
theorem eq_of_texts_eq {p q : DocPath} {root a b : Node} (hp : p.resolve root = some a)
    (hq : q.resolve root = some b) (htexts : p.map Segment.text = q.map Segment.text) : p = q := by
  induction p generalizing q root with
  | nil => exact (List.map_eq_nil_iff.mp htexts.symm).symm
  | cons s rest ih =>
    cases q with
    | nil => simp at htexts
    | cons t others =>
      obtain ⟨htext, hrests⟩ := List.cons.inj htexts
      obtain ⟨next, hs, hrest⟩ := Option.bind_eq_some_iff.mp hp
      obtain ⟨other, ht, hothers⟩ := Option.bind_eq_some_iff.mp hq
      obtain rfl := eq_of_text_eq hs ht htext
      obtain rfl : next = other := Option.some.inj (hs.symm.trans ht)
      rw [ih hrest hothers hrests]

/-- In a document whose objects have distinct keys, a pointer leads to the node that its path
leads to, and different paths that lead somewhere have different pointers; the tokens of any
pointer are the texts of the steps of its path, whether or not the path leads somewhere. -/
theorem pointer_identifies {root : Node} (h : root.WellFormed) :
    (∀ (path : DocPath) (node : Node), path.resolve root = some node →
      Pointer.evaluate path.pointer root = some node) ∧
    (∀ p q : DocPath, (p.resolve root).isSome → (q.resolve root).isSome → p ≠ q →
      p.pointer ≠ q.pointer) ∧
    ∀ path : DocPath, Pointer.tokens? path.pointer = some (path.map Segment.text) := by
  refine ⟨?_, ?_, Pointer.tokens?_pointer⟩
  · intro path node hresolve
    rw [Pointer.evaluate, Pointer.tokens?_pointer, Option.bind_some]
    exact Pointer.foldlM_follow_of_resolve h hresolve
  · intro p q hp hq hne heq
    obtain ⟨a, ha⟩ := Option.isSome_iff_exists.mp hp
    obtain ⟨b, hb⟩ := Option.isSome_iff_exists.mp hq
    have htokens := Pointer.tokens?_pointer p
    rw [heq, Pointer.tokens?_pointer q] at htokens
    exact hne (eq_of_texts_eq ha hb (Option.some.inj htokens).symm)

/-- A document with keys that look like escapes and positions, and an empty one. -/
def disguisedDocument : Node :=
  .object [("~1", .object [("/", .string "slash"), ("0", .array [.null, .string "element"])]),
    ("/", .object [("", .string "nameless")]), ("~01", .bool true)]

/-- A tilde and a one are not a slash, a zero is a key and a one an index, and a key may be
empty. -/
theorem pointer_disguisedDocument :
    disguisedDocument.WellFormed ∧
      Pointer.evaluate "/~01/0/1" disguisedDocument = some (.string "element") ∧
      Pointer.evaluate "/~1/" disguisedDocument = some (.string "nameless") ∧
      pointer [.key "~1", .key "/"] ≠ pointer [.key "/", .key ""] ∧
      Pointer.tokens? (pointer [.key "~1", .index 7]) = some ["~1", "7"] := by
  have hwf : disguisedDocument.WellFormed := by
    simp [disguisedDocument, Node.WellFormed, Node.WellFormedFields, Node.WellFormedItems]
  obtain ⟨hleads, hdiffer, htokens⟩ := pointer_identifies hwf
  refine ⟨hwf, ?_, ?_, ?_, htokens _⟩
  · exact hleads [.key "~1", .key "0", .index 1] _ rfl
  · exact hleads [.key "/", .key ""] _ rfl
  · exact hdiffer _ _ rfl rfl (by decide)

end DocPath

end ApiLint
