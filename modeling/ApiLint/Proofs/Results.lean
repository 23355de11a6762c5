set_option autoImplicit false

/-!
# Results of steps that can fail

When steps that follow one another have a result and when they fail, and what is known of a
result if there is one.
-/

namespace ApiLint

variable {ε δ α β : Type}

/-- Two steps have a result when the first has one and the second has one with it. -/
theorem bind_eq_ok_iff {x : Except ε α} {f : α → Except ε β} {b : β} :
    (x >>= f) = .ok b ↔ ∃ a, x = .ok a ∧ f a = .ok b := by
  cases x <;> simp [bind, Except.bind]

/-- Two steps fail when the first does, or the second does with the result of the first. -/
theorem bind_eq_error_iff {x : Except ε α} {f : α → Except ε β} {e : ε} :
    (x >>= f) = .error e ↔ x = .error e ∨ ∃ a, x = .ok a ∧ f a = .error e := by
  cases x <;> simp [bind, Except.bind]

theorem mapError_eq_ok_iff {x : Except ε α} {f : ε → δ} {a : α} :
    x.mapError f = .ok a ↔ x = .ok a := by
  cases x with
  | ok b =>
    show (Except.ok b : Except δ α) = .ok a ↔ _
    simp
  | error e => exact iff_of_false nofun nofun

theorem mapError_eq_error_iff {x : Except ε α} {f : ε → δ} {d : δ} :
    x.mapError f = .error d ↔ ∃ e, x = .error e ∧ f e = d := by
  cases x with
  | ok a => exact iff_of_false nofun nofun
  | error e =>
    show (Except.error (f e) : Except δ α) = .error d ↔ _
    simp

theorem eq_ok_of_toOption_eq_some {x : Except ε α} {a : α} (h : x.toOption = some a) :
    x = .ok a := by
  cases x with
  | ok b => exact congrArg Except.ok (Option.some.inj h)
  | error e => exact absurd h nofun

/-- A step that has no result fails. -/
theorem exists_eq_error_iff {x : Except ε α} : (∃ e, x = .error e) ↔ ¬ ∃ a, x = .ok a := by
  cases x <;> simp

/-! ## What is known of a result -/

/-- If there is a result, it has the property. -/
def Gives (p : α → Prop) (result : Except ε α) : Prop := ∀ a, result = .ok a → p a

namespace Gives

variable {p : α → Prop} {q : β → Prop}

theorem error (fault : ε) : Gives p (.error fault : Except ε α) := nofun

theorem ok {a : α} (h : p a) : Gives p (.ok a : Except ε α) :=
  fun _ heq => Except.ok.inj heq ▸ h

theorem bind {first : Except ε α} {next : α → Except ε β} (hfirst : Gives p first)
    (hnext : ∀ a, p a → Gives q (next a)) : Gives q (first >>= next) := by
  cases first with
  | error fault => exact error fault
  | ok a => exact hnext a (hfirst a rfl)

theorem map {result : Except ε α} {f : α → β} (h : Gives p result) (hf : ∀ a, p a → q (f a)) :
    Gives q (result.map f) := by
  cases result with
  | error fault => exact error fault
  | ok a => exact ok (hf a (h a rfl))

theorem ite {c : Prop} [Decidable c] {first second : Except ε α} (hfirst : Gives p first)
    (hsecond : Gives p second) : Gives p (if c then first else second) := by
  split
  · exact hfirst
  · exact hsecond

theorem trivial (result : Except ε α) : Gives (fun _ => True) result := fun _ _ => True.intro

end Gives

end ApiLint
