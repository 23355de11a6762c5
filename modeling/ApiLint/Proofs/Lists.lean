import Mathlib.Data.List.Count
import Mathlib.Data.List.Forall2
import Mathlib.Data.List.Nodup
import Mathlib.Data.List.Pairwise
set_option autoImplicit false

/-!
# Lists through a view

Two lists are compared by what a view shows of their elements.  Lists that are made piece
by piece from elements that look alike are alike themselves, in their order or up to it.
And how often an element occurs in a list that is made piece by piece is read off its pieces.
-/

namespace ApiLint

/-- Choosing and mapping is done element by element. -/
theorem map_filter_eq_flatMap {α β : Type} (p : α → Bool) (f : α → β) (xs : List α) :
    (xs.filter p).map f = xs.flatMap fun x => if p x then [f x] else [] := by
  induction xs with
  | nil => rfl
  | cons x rest ih =>
    rw [List.filter_cons, List.flatMap_cons, ← ih]
    split <;> rfl

/-- A list that is split at an element in two ways is split at one place, or one of the two places
is behind the other. -/
theorem eq_or_exists_of_append_cons_eq {α : Type} {x : α} {front back front' back' : List α}
    (h : front ++ x :: back = front' ++ x :: back') :
    front = front' ∧ back = back' ∨
      (∃ middle, front' = front ++ x :: middle ∧ back = middle ++ x :: back') ∨
        ∃ middle, front = front' ++ x :: middle ∧ back' = middle ++ x :: back := by
  rcases List.append_eq_append_iff.mp h with ⟨more, hfront, hback⟩ | ⟨more, hfront, hback⟩
  · cases more with
    | nil => exact .inl ⟨(List.append_nil front ▸ hfront).symm, (List.cons.inj hback).2⟩
    | cons y middle =>
      obtain ⟨rfl, htail⟩ := List.cons.inj hback
      exact .inr (.inl ⟨middle, hfront, htail⟩)
  · cases more with
    | nil => exact .inl ⟨List.append_nil front' ▸ hfront, (List.cons.inj hback).2.symm⟩
    | cons y middle =>
      obtain ⟨rfl, htail⟩ := List.cons.inj hback
      exact .inr (.inr ⟨middle, hfront, htail⟩)

/-- The part of a list before the first occurrence of an element. -/
theorem eq_of_append_cons_eq {α : Type} {x : α} {front rest front' rest' : List α}
    (h : x ∉ front) (h' : x ∉ front') (heq : front ++ x :: rest = front' ++ x :: rest') :
    front = front' ∧ rest = rest' := by
  rcases eq_or_exists_of_append_cons_eq heq with hsame | ⟨middle, rfl, _⟩ | ⟨middle, rfl, _⟩
  · exact hsame
  · exact absurd (List.mem_append_right front List.mem_cons_self) h'
  · exact absurd (List.mem_append_right front' List.mem_cons_self) h

/-- Elements that contribute nothing may be left out. -/
theorem flatMap_filter_of_nil {α β : Type} {p : α → Bool} {f : α → List β} {xs : List α}
    (h : ∀ x ∈ xs, p x = false → f x = []) : (xs.filter p).flatMap f = xs.flatMap f := by
  induction xs with
  | nil => rfl
  | cons x rest ih =>
    obtain ⟨hx, hrest⟩ := List.forall_mem_cons.mp h
    rw [List.filter_cons, List.flatMap_cons, ← ih hrest]
    split
    · rfl
    · next hp => rw [hx (by simpa using hp), List.nil_append]

/-- The positions in a list are distinct. -/
theorem nodup_positions {α : Type} (xs : List α) : (xs.zipIdx.map Prod.snd).Nodup := by
  rw [List.zipIdx_map_snd]
  exact List.nodup_range'

/-- Every element of the first of two lists that are related one by one is related to one of the
second. -/
theorem exists_mem_of_forall₂ {α β : Type} {related : α → β → Prop} {xs : List α} {ys : List β}
    (h : List.Forall₂ related xs ys) {x : α} (hx : x ∈ xs) : ∃ y ∈ ys, related x y := by
  induction h with
  | nil => exact absurd hx List.not_mem_nil
  | @cons a b as bs hfirst _ ih =>
    rcases List.mem_cons.mp hx with rfl | hx
    · exact ⟨b, List.mem_cons_self, hfirst⟩
    · obtain ⟨y, hy, hrelated⟩ := ih hx
      exact ⟨y, List.mem_cons_of_mem _ hy, hrelated⟩

/-- The first position of an element that is looked for. -/
theorem findIdx?_eq_some_iff_first {α : Type} {xs : List α} {p : α → Bool} {position : Nat} :
    xs.findIdx? p = some position ↔
      (∃ x, xs[position]? = some x ∧ p x = true) ∧
        ∀ earlier < position, ∀ x, ¬ (xs[earlier]? = some x ∧ p x = true) := by
  rw [List.findIdx?_eq_some_iff_getElem]
  constructor
  · intro h
    obtain ⟨hlt, hfound, hfirst⟩ := h
    refine ⟨⟨_, List.getElem?_eq_getElem hlt, hfound⟩, ?_⟩
    intro earlier hearlier x hx
    obtain ⟨_, rfl⟩ := List.getElem?_eq_some_iff.mp hx.1
    exact hfirst earlier hearlier hx.2
  · intro h
    obtain ⟨⟨x, hx, hfound⟩, hfirst⟩ := h
    obtain ⟨hlt, rfl⟩ := List.getElem?_eq_some_iff.mp hx
    refine ⟨hlt, hfound, fun earlier hearlier hother => ?_⟩
    exact hfirst earlier hearlier _ ⟨List.getElem?_eq_getElem (Nat.lt_trans hearlier hlt), hother⟩

section Keys

variable {α κ : Type} {xs : List α}

/-- A list without repetition has two elements when it has different ones. -/
theorem two_le_length_iff_of_nodup (h : xs.Nodup) :
    2 ≤ xs.length ↔ ∃ x ∈ xs, ∃ y ∈ xs, x ≠ y := by
  cases xs with
  | nil => simp
  | cons x rest =>
    cases rest with
    | nil => simp
    | cons y others =>
      have hne : x ≠ y := fun heq => (List.nodup_cons.mp h).1 (heq ▸ List.mem_cons_self)
      refine iff_of_true (by simp) ⟨x, List.mem_cons_self, y, ?_, hne⟩
      exact List.mem_cons_of_mem _ List.mem_cons_self

/-- Elements with distinct keys are related pairwise by a symmetric relation when any two with
different keys are. -/
theorem pairwise_iff_of_nodup_keys {key : α → κ} {related : α → α → Prop}
    (hsymm : ∀ x y, related x y → related y x) (hkeys : (xs.map key).Nodup) :
    xs.Pairwise related ↔ ∀ x ∈ xs, ∀ y ∈ xs, key x ≠ key y → related x y := by
  constructor
  · intro hpairwise x hx y hy hne
    have : Std.Symm related := ⟨hsymm⟩
    exact hpairwise.forall hx hy fun heq => hne (congrArg key heq)
  · intro hall
    apply (List.pairwise_map.mp hkeys).imp_of_mem
    intro x y hx hy hne
    exact hall x hx y hy hne

end Keys

section Counts

variable {α β κ : Type} [BEq β] [LawfulBEq β] [DecidableEq κ] {key : α → κ} {piece : α → List β}
  {xs : List α}

/-- What occurs in the pieces of one key only, and equally often in each of them, occurs that
often for every occurrence of the key. -/
theorem count_flatMap_of_key {k : κ} {b : β} {n : Nat}
    (hown : ∀ x ∈ xs, key x = k → (piece x).count b = n)
    (hother : ∀ x ∈ xs, b ∈ piece x → key x = k) :
    (xs.flatMap piece).count b = (xs.map key).count k * n := by
  induction xs with
  | nil => simp
  | cons x rest ih =>
    obtain ⟨hx, hrest⟩ := List.forall_mem_cons.mp hown
    obtain ⟨hfirst, hothers⟩ := List.forall_mem_cons.mp hother
    rw [List.flatMap_cons, List.count_append, ih hrest hothers, List.map_cons]
    by_cases hkey : key x = k
    · rw [hx hkey, hkey, List.count_cons_self, Nat.succ_mul, Nat.add_comm]
    · have hnone : (piece x).count b = 0 := List.count_eq_zero.mpr fun hmem => hkey (hfirst hmem)
      rw [hnone, List.count_cons_of_ne hkey, Nat.zero_add]

/-- What occurs once in the piece of one element, and in no other one, occurs as often as the
element. -/
theorem count_flatMap_of_eq [DecidableEq α] {x : α} {b : β} (hown : (piece x).count b = 1)
    (hother : ∀ y ∈ xs, b ∈ piece y → y = x) : (xs.flatMap piece).count b = xs.count x := by
  have hpieces : ∀ y ∈ xs, id y = x → (piece y).count b = 1 := by
    intro y _ hy
    obtain rfl : y = x := hy
    exact hown
  rw [count_flatMap_of_key hpieces hother, List.map_id, Nat.mul_one]

/-- What occurs in the piece of one element only occurs as often as in this piece, when no two
elements have one key. -/
theorem count_flatMap_of_nodup (hkeys : (xs.map key).Nodup) {x : α} (hx : x ∈ xs) {b : β}
    (hother : ∀ y ∈ xs, b ∈ piece y → key y = key x) :
    (xs.flatMap piece).count b = (piece x).count b := by
  have hown : ∀ y ∈ xs, key y = key x → (piece y).count b = (piece x).count b := by
    intro y hy hkey
    rw [List.inj_on_of_nodup_map hkeys hy hx hkey]
  rw [count_flatMap_of_key hown hother,
    List.count_eq_one_of_mem hkeys (List.mem_map_of_mem hx), Nat.one_mul]

/-- What is made from a chosen element occurs as often as the element. -/
theorem count_map_filter [DecidableEq α] {f : α → β} (hf : f.Injective) {p : α → Bool} {x : α}
    (hx : p x = true) : ((xs.filter p).map f).count (f x) = xs.count x := by
  rw [List.count_map_of_injective _ f hf, List.count_filter hx]

/-- Elements that are added unless they are there are added in order of first appearance. -/
theorem foldl_append_new (xs added : List κ) :
    added.foldl (fun xs x => if xs.contains x then xs else xs ++ [x]) xs =
      xs ++ (added.removeAll xs).eraseDups := by
  induction added generalizing xs with
  | nil => simp [List.removeAll]
  | cons x rest ih =>
    rw [List.foldl_cons, ih, List.cons_removeAll]
    cases hcontains : xs.contains x with
    | true => simp
    | false =>
      have hrest : rest.removeAll (xs ++ [x]) =
          (rest.removeAll xs).filter fun other => !other == x := by
        rw [List.removeAll, List.removeAll, List.filter_filter]
        refine List.filter_congr fun other _ => ?_
        by_cases hother : other = x <;> simp [hother]
      simp [List.eraseDups_cons, hrest]

theorem nodup_eraseDups (xs : List κ) : xs.eraseDups.Nodup := by
  cases xs with
  | nil => simp
  | cons x rest =>
    rw [List.eraseDups_cons, List.nodup_cons]
    refine ⟨?_, nodup_eraseDups (rest.filter fun y => !y == x)⟩
    rw [List.mem_eraseDups]
    simp
termination_by xs.length
decreasing_by exact Nat.lt_succ_of_le (List.length_filter_le _ _)

end Counts

section Views

variable {α β γ : Type} {view : α → β} {xs ys : List α}

/-- Elements that look alike one by one are related one by one. -/
theorem forall₂_of_view {related : α → α → Prop} (hview : xs.map view = ys.map view)
    (hrelated : ∀ x ∈ xs, ∀ y ∈ ys, view x = view y → related x y) :
    List.Forall₂ related xs ys := by
  induction xs generalizing ys with
  | nil =>
    obtain rfl : ys = [] := List.map_eq_nil_iff.mp hview.symm
    exact .nil
  | cons x rest ih =>
    cases ys with
    | nil => simp at hview
    | cons y others =>
      obtain ⟨hfirst, hrest⟩ := List.cons.inj hview
      refine .cons (hrelated x List.mem_cons_self y List.mem_cons_self hfirst) (ih hrest ?_)
      exact fun z hz w hw =>
        hrelated z (List.mem_cons_of_mem _ hz) w (List.mem_cons_of_mem _ hw)

theorem map_eq_of_view {f g : α → γ} (hview : xs.map view = ys.map view)
    (himage : ∀ x ∈ xs, ∀ y ∈ ys, view x = view y → f x = g y) : xs.map f = ys.map g := by
  rw [← List.forall₂_eq_eq_eq, List.forall₂_map_left_iff, List.forall₂_map_right_iff]
  exact forall₂_of_view hview himage

theorem filterMap_eq_of_view {f : α → Option γ} (hview : xs.map view = ys.map view)
    (himage : ∀ x ∈ xs, ∀ y ∈ ys, view x = view y → f x = f y) :
    xs.filterMap f = ys.filterMap f := by
  have himages := congrArg (List.filterMap id) (map_eq_of_view hview himage)
  rwa [List.filterMap_map, List.filterMap_map] at himages

/-- From elements that look alike up to their order, alike pieces make permutations. -/
theorem perm_flatMap_of_view {f g : α → List γ} (hview : (xs.map view).Perm (ys.map view))
    (hpiece : ∀ x ∈ xs, ∀ y ∈ ys, view x = view y → (f x).Perm (g y)) :
    (xs.flatMap f).Perm (ys.flatMap g) := by
  induction xs generalizing ys with
  | nil =>
    obtain rfl : ys = [] := by simpa using hview.symm.eq_nil
    exact .nil
  | cons x rest ih =>
    have hmem : view x ∈ ys.map view := hview.subset List.mem_cons_self
    obtain ⟨y, hy, hyx⟩ := List.mem_map.mp hmem
    obtain ⟨before, after, rfl⟩ := List.append_of_mem hy
    have hmiddle : (before ++ y :: after).Perm (y :: (before ++ after)) := List.perm_middle
    have hrest : (rest.map view).Perm ((before ++ after).map view) := by
      have hcons := hview.trans (hmiddle.map view)
      rw [List.map_cons, List.map_cons, hyx] at hcons
      exact hcons.cons_inv
    have hothers := ih hrest fun z hz w hw => hpiece z (List.mem_cons_of_mem _ hz) w
      (hmiddle.symm.subset (List.mem_cons_of_mem _ hw))
    have hfirst := hpiece x List.mem_cons_self y hy hyx.symm
    exact (hfirst.append hothers).trans (hmiddle.symm.flatMap_right g)

/-- Elements that are chosen by what they look like look alike up to their order again, through
any view that the first one decides. -/
theorem perm_map_filter_of_view {p : α → Bool} {f : α → γ}
    (hview : (xs.map view).Perm (ys.map view))
    (hchoice : ∀ x ∈ xs, ∀ y ∈ ys, view x = view y → p x = p y ∧ f x = f y) :
    ((xs.filter p).map f).Perm ((ys.filter p).map f) := by
  rw [map_filter_eq_flatMap, map_filter_eq_flatMap]
  refine perm_flatMap_of_view hview fun x hx y hy hxy => ?_
  obtain ⟨hp, hf⟩ := hchoice x hx y hy hxy
  rw [hp, hf]

end Views

end ApiLint
