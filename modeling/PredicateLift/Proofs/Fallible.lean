/-!
# Computations that may fail

When a sequence of two computations succeeds, and when it fails. `WhenOk` states a property of the result of a
computation if it succeeds, `WhenError` one of its error if it fails, and `WhenBoth` a relation between the results of
two computations if both succeed. `EndAlike` also relates their failures.
-/

namespace PredicateLift

variable {ε ε' α β : Type}

theorem ok_bind {a : α} {f : α → Except ε β} : (Except.ok a >>= f) = f a := rfl

theorem bind_eq_ok_iff {x : Except ε α} {f : α → Except ε β} {b : β} :
    (x >>= f) = .ok b ↔ ∃ a, x = .ok a ∧ f a = .ok b := by
  cases x <;> simp [bind, Except.bind]

theorem bind_eq_error_iff {x : Except ε α} {f : α → Except ε β} {e : ε} :
    (x >>= f) = .error e ↔ x = .error e ∨ ∃ a, x = .ok a ∧ f a = .error e := by
  cases x <;> simp [bind, Except.bind]

theorem pure_eq_ok_iff {a b : α} : (pure a : Except ε α) = .ok b ↔ a = b := by
  simp [pure, Except.pure]

theorem pure_ne_error {a : α} {e : ε} : (pure a : Except ε α) ≠ .error e := by
  simp [pure, Except.pure]

theorem bind_return_eq_error_iff {x : Except ε α} {f : α → β} {e : ε} :
    (do return f (← x)) = .error e ↔ x = .error e := by
  rw [bind_eq_error_iff]
  exact ⟨fun h => h.resolve_right fun ⟨_, _, h⟩ => pure_ne_error h, .inl⟩

theorem mapError_ok {a : α} {f : ε → ε'} : (Except.ok a).mapError f = .ok a := rfl

theorem mapError_eq_ok_iff {x : Except ε α} {f : ε → ε'} {a : α} :
    x.mapError f = .ok a ↔ x = .ok a := by
  cases x with
  | ok b =>
      constructor
      · intro h
        cases h
        rfl
      · intro h
        cases h
        rfl
  | error e => exact ⟨nofun, nofun⟩

theorem mapError_bind {x : Except ε α} {f : α → Except ε β} {g : ε → ε'} :
    (x >>= f).mapError g = x.mapError g >>= fun a => (f a).mapError g := by
  cases x <;> rfl

theorem mapError_eq_error_iff {x : Except ε α} {f : ε → ε'} {e : ε'} :
    x.mapError f = .error e ↔ ∃ d, x = .error d ∧ f d = e := by
  cases x with
  | ok b => exact ⟨nofun, nofun⟩
  | error d =>
      constructor
      · intro h
        cases h
        exact ⟨d, rfl, rfl⟩
      · rintro ⟨_, h, rfl⟩
        cases h
        rfl

/-- If the computation succeeds, its result has the property. -/
def WhenOk (x : Except ε α) (P : α → Prop) : Prop :=
  ∀ a, x = .ok a → P a

namespace WhenOk

theorem ok {a : α} {P : α → Prop} (h : P a) : WhenOk (.ok a : Except ε α) P := by
  intro b hb
  cases hb
  exact h

theorem error {e : ε} {P : α → Prop} : WhenOk (.error e : Except ε α) P := by
  intro b hb
  cases hb

theorem bind {x : Except ε α} {f : α → Except ε β} {P : α → Prop} {Q : β → Prop} (hx : WhenOk x P)
    (hf : ∀ a, P a → WhenOk (f a) Q) : WhenOk (x >>= f) Q := by
  intro b hb
  obtain ⟨a, ha, hb⟩ := bind_eq_ok_iff.mp hb
  exact hf a (hx a ha) b hb

end WhenOk

/-- If the computation fails, its error has the property. -/
def WhenError (x : Except ε α) (P : ε → Prop) : Prop :=
  ∀ e, x = .error e → P e

namespace WhenError

theorem ok {a : α} {P : ε → Prop} : WhenError (.ok a) P := by
  intro e he
  cases he

theorem error {e : ε} {P : ε → Prop} (h : P e) : WhenError (.error e : Except ε α) P := by
  intro e' he
  cases he
  exact h

theorem bind {x : Except ε α} {f : α → Except ε β} {P : ε → Prop} (hx : WhenError x P)
    (hf : ∀ a, WhenError (f a) P) : WhenError (x >>= f) P := by
  intro e he
  rcases bind_eq_error_iff.mp he with he | ⟨a, _, he⟩
  · exact hx e he
  · exact hf a e he

end WhenError

/-- If both computations succeed, their results are related. -/
def WhenBoth (x : Except ε α) (y : Except ε β) (R : α → β → Prop) : Prop :=
  ∀ a b, x = .ok a → y = .ok b → R a b

namespace WhenBoth

variable {γ δ : Type}

theorem ok {a : α} {b : β} {R : α → β → Prop} (h : R a b) : WhenBoth (.ok a : Except ε α) (.ok b) R := by
  intro a' b' ha hb
  cases ha
  cases hb
  exact h

theorem error {e : ε} {y : Except ε β} {R : α → β → Prop} : WhenBoth (.error e) y R := by
  intro a b ha
  cases ha

theorem bind {x : Except ε α} {y : Except ε β} {f : α → Except ε γ} {g : β → Except ε δ} {R : α → β → Prop}
    {S : γ → δ → Prop} (hxy : WhenBoth x y R) (hfg : ∀ a b, R a b → WhenBoth (f a) (g b) S) :
    WhenBoth (x >>= f) (y >>= g) S := by
  intro c d hc hd
  obtain ⟨a, ha, hc⟩ := bind_eq_ok_iff.mp hc
  obtain ⟨b, hb, hd⟩ := bind_eq_ok_iff.mp hd
  exact hfg a b (hxy a b ha hb) c d hc hd

theorem of_whenOk {x : Except ε α} {y : Except ε β} {P : α → Prop} {Q : β → Prop} {R : α → β → Prop}
    (hx : WhenOk x P) (hy : WhenOk y Q) (h : ∀ a b, P a → Q b → R a b) : WhenBoth x y R :=
  fun a b ha hb => h a b (hx a ha) (hy b hb)

end WhenBoth

/-- Both computations fail with the same error, or both succeed with related results. Nothing is said of the second one
if the first fails with an excused error. -/
inductive EndAlike (excused : ε → Prop) (R : α → β → Prop) : Except ε α → Except ε β → Prop where
  | ok {a b} : R a b → EndAlike excused R (.ok a) (.ok b)
  | error {e} : EndAlike excused R (.error e) (.error e)
  | excused {e y} : excused e → EndAlike excused R (.error e) y

namespace EndAlike

variable {γ δ : Type} {excused : ε → Prop} {R : α → β → Prop} {S : γ → δ → Prop} {x : Except ε α} {y : Except ε β}

theorem bind {f : α → Except ε γ} {g : β → Except ε δ} (hxy : EndAlike excused R x y)
    (hfg : ∀ a b, R a b → EndAlike excused S (f a) (g b)) : EndAlike excused S (x >>= f) (y >>= g) := by
  cases hxy with
  | ok h => exact hfg _ _ h
  | error => exact .error
  | excused h => exact .excused h

/-- Two computations with the same beginning. -/
theorem bind_same {f : α → Except ε γ} {g : α → Except ε δ} (hfg : ∀ a, EndAlike excused S (f a) (g a)) :
    EndAlike excused S (x >>= f) (x >>= g) := by
  cases x with
  | ok a => exact hfg a
  | error e => exact .error

theorem of_whenOk {P : α → Prop} {R : α → α → Prop} (hx : WhenOk x P) (hR : ∀ a, P a → R a a) :
    EndAlike excused R x x := by
  cases x with
  | ok a => exact .ok (hR a (hx a rfl))
  | error e => exact .error

theorem mapError {excused' : ε' → Prop} {f : ε → ε'} (h : EndAlike excused R x y)
    (hf : ∀ e, excused e → excused' (f e)) : EndAlike excused' R (x.mapError f) (y.mapError f) := by
  cases h with
  | ok h => exact .ok h
  | error => exact .error
  | excused h => exact .excused (hf _ h)

theorem exists_of_ok {b : β} (h : EndAlike (fun _ => False) R x y) (hy : y = .ok b) : ∃ a, x = .ok a ∧ R a b := by
  cases h with
  | ok hab =>
      cases hy
      exact ⟨_, rfl, hab⟩
  | error => cases hy
  | excused h => exact h.elim

theorem eq_map {f : α → β} (h : EndAlike excused R x y) (hR : ∀ a b, R a b → b = f a)
    (hx : ∀ e, x = .error e → ¬ excused e) : y = x.map f := by
  cases h with
  | ok h => exact congrArg Except.ok (hR _ _ h)
  | error => rfl
  | excused h => exact absurd h (hx _ rfl)

theorem eq {x y : Except ε α} (h : EndAlike (fun _ => False) Eq x y) : x = y := by
  cases h with
  | ok h => rw [h]
  | error => rfl
  | excused h => exact h.elim

end EndAlike

end PredicateLift
