import Mathlib.Tactic.Common

/-!
# Two programs side by side

Programs over a state that may throw and keep what they wrote when they do. Two of them run
alike when, from related states, both return related values or both throw related errors,
and related states are left behind. The rules follow the way programs are put together, so
that two copies of one program are compared line by line.
-/

universe u

/-- Both return related values, or both throw related errors. -/
inductive Outcomes {ε ε' α α' : Type u} (E : ε → ε' → Prop) (R : α → α' → Prop) :
    Except ε α → Except ε' α' → Prop
  | ok {a : α} {a' : α'} (h : R a a') : Outcomes E R (.ok a) (.ok a')
  | error {e : ε} {e' : ε'} (h : E e e') : Outcomes E R (.error e) (.error e')

/-- From related states the outcomes are related, and so are the states left behind. -/
def RunsAlike {σ σ' ε ε' α α' : Type u} (S : σ → σ' → Prop) (E : ε → ε' → Prop) (R : α → α' → Prop)
    (x : ExceptT ε (StateM σ) α) (x' : ExceptT ε' (StateM σ') α') : Prop :=
  ∀ ⦃s : σ⦄ ⦃s' : σ'⦄, S s s' →
    Outcomes E R (x.run s).1 (x'.run s').1 ∧ S (x.run s).2 (x'.run s').2

section

variable {σ σ' ε ε' α α' β β' : Type u} {S : σ → σ' → Prop} {E : ε → ε' → Prop}
  {R : α → α' → Prop} {T : β → β' → Prop}

/-- Outcomes are the same when values and errors are. -/
theorem Outcomes.refl {x : Except ε α} : Outcomes Eq Eq x x := by
  cases x with
  | ok a => exact .ok rfl
  | error e => exact .error rfl

theorem Outcomes.mono {F : ε → ε' → Prop} {Q : α → α' → Prop} {x : Except ε α}
    {x' : Except ε' α'} (h : Outcomes E R x x') (hE : ∀ e e', E e e' → F e e')
    (hR : ∀ a a', R a a' → Q a a') : Outcomes F Q x x' := by
  cases h with
  | ok h => exact .ok (hR _ _ h)
  | error h => exact .error (hE _ _ h)

/-- Related values, with the outcomes that they come from. -/
theorem Outcomes.and_eq {x : Except ε α} {x' : Except ε' α'} (h : Outcomes E R x x') :
    Outcomes E (fun a a' => R a a' ∧ x = .ok a ∧ x' = .ok a') x x' := by
  cases h with
  | ok h => exact .ok ⟨h, rfl, rfl⟩
  | error h => exact .error h

theorem Outcomes.bind {x : Except ε α} {x' : Except ε' α'} {f : α → Except ε β}
    {f' : α' → Except ε' β'} (hx : Outcomes E R x x')
    (hf : ∀ a a', R a a' → Outcomes E T (f a) (f' a')) : Outcomes E T (x >>= f) (x' >>= f') := by
  cases hx with
  | ok h => exact hf _ _ h
  | error h => exact .error h

theorem RunsAlike.pure {a : α} {a' : α'} (h : R a a') :
    RunsAlike S E R (Pure.pure a) (Pure.pure a') :=
  fun _ _ hs => ⟨.ok h, hs⟩

theorem RunsAlike.throw {e : ε} {e' : ε'} (h : E e e') :
    RunsAlike S E R (throw e) (throw e') :=
  fun _ _ hs => ⟨.error h, hs⟩

/-- What is computed outside the state. -/
theorem RunsAlike.lift {x : Except ε α} {x' : Except ε' α'} (h : Outcomes E R x x') :
    RunsAlike S E R (liftM x) (liftM x') := by
  cases h with
  | ok h => exact fun _ _ hs => ⟨.ok h, hs⟩
  | error h => exact fun _ _ hs => ⟨.error h, hs⟩

/-- **Sequencing:** related values are handed on, related errors end both programs. -/
theorem RunsAlike.bind {x : ExceptT ε (StateM σ) α} {x' : ExceptT ε' (StateM σ') α'}
    {f : α → ExceptT ε (StateM σ) β} {f' : α' → ExceptT ε' (StateM σ') β'}
    (hx : RunsAlike S E R x x') (hf : ∀ a a', R a a' → RunsAlike S E T (f a) (f' a')) :
    RunsAlike S E T (x >>= f) (x' >>= f') := by
  intro s s' hs
  obtain ⟨houtcomes, hstates⟩ := hx hs
  have hrun : (x >>= f).run s = ExceptT.bindCont f (x.run s).1 (x.run s).2 := rfl
  have hrun' : (x' >>= f').run s' = ExceptT.bindCont f' (x'.run s').1 (x'.run s').2 := rfl
  rw [hrun, hrun']
  generalize (x.run s).1 = outcome at houtcomes ⊢
  generalize (x'.run s').1 = outcome' at houtcomes ⊢
  cases houtcomes with
  | ok h => exact hf _ _ h hstates
  | error h => exact ⟨.error h, hstates⟩

/-- Reading the state hands the states on. -/
theorem RunsAlike.get : RunsAlike S E S (get : ExceptT ε (StateM σ) σ)
    (get : ExceptT ε' (StateM σ') σ') :=
  fun _ _ hs => ⟨.ok hs, hs⟩

/-- Writing related states. -/
theorem RunsAlike.set {s : σ} {s' : σ'} (h : S s s') :
    RunsAlike S E (fun _ _ => True) (set s : ExceptT ε (StateM σ) PUnit)
      (set s' : ExceptT ε' (StateM σ') PUnit) :=
  fun _ _ _ => ⟨.ok trivial, h⟩

/-- A case distinction on which both agree. -/
theorem RunsAlike.ite {p p' : Prop} [Decidable p] [Decidable p'] {x y : ExceptT ε (StateM σ) α}
    {x' y' : ExceptT ε' (StateM σ') α'} (h : p ↔ p') (hx : RunsAlike S E R x x')
    (hy : RunsAlike S E R y y') : RunsAlike S E R (if p then x else y) (if p' then x' else y') := by
  by_cases hp : p
  · rw [if_pos hp, if_pos (h.mp hp)]
    exact hx
  · rw [if_neg hp, if_neg (fun hp' => hp (h.mpr hp'))]
    exact hy

end
