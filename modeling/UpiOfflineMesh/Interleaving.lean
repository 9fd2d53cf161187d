import UpiOfflineMesh.Machine

/-!
# Interleavings

Events use resources, and events with no common resource commute. Two runs that agree, in
order, on the events of every single resource are then interleavings of one another: they
reach the same state, and every resource sees the same answers in the same order.
-/

universe u v w x

namespace Machine

variable {σ : Type u} {ε : Type v} {ο : Type w} {ρ : Type x}

/-- The answers of a run, each with its event. -/
def answers (m : Machine σ ε ο) (s : σ) (events : List ε) : List (ε × ο) :=
  (m.transitions s events).map fun t => (t.event, t.output)

@[simp] theorem answers_nil (m : Machine σ ε ο) (s : σ) : m.answers s [] = [] := rfl

@[simp] theorem answers_cons (m : Machine σ ε ο) (s : σ) (e : ε) (events : List ε) :
    m.answers s (e :: events) = (e, (m.step s e).1) :: m.answers (m.next s e) events := rfl

/-- The two events have no resource in common. -/
def Apart (uses : ε → ρ → Bool) (e e' : ε) : Prop := ∀ r, uses e r = true → uses e' r = false

/-- The resources separate the events: every event uses one, and of two events that are
apart neither changes the answer to the other, nor does their order change the state. -/
structure Separated (m : Machine σ ε ο) (uses : ε → ρ → Bool) : Prop where
  uses_some : ∀ e, ∃ r, uses e r = true
  output : ∀ s e e', Apart uses e e' → (m.step (m.next s e) e').1 = (m.step s e').1
  commute : ∀ s e e', Apart uses e e' → m.next (m.next s e) e' = m.next (m.next s e') e

section

variable {m : Machine σ ε ο} {uses : ε → ρ → Bool} {e : ε} {before : List ε}

theorem Apart.symm {e e' : ε} (h : Apart uses e e') : Apart uses e' e := by
  intro r huses
  by_contra hused
  rw [Bool.not_eq_false] at hused
  rw [h r hused] at huses
  cases huses

/-- An event may be moved to the front past events that are apart from it. -/
theorem Separated.pull (h : m.Separated uses) (hapart : ∀ e' ∈ before, Apart uses e' e)
    (after : List ε) (s : σ) :
    m.final s (before ++ e :: after) = m.final s (e :: (before ++ after)) ∧
      ∀ r, (m.answers s (before ++ e :: after)).filter (fun answer => uses answer.1 r) =
        (m.answers s (e :: (before ++ after))).filter fun answer => uses answer.1 r := by
  induction before generalizing s with
  | nil => exact ⟨rfl, fun _ => rfl⟩
  | cons e' before ih =>
    have hhead : Apart uses e' e := hapart e' (by simp)
    obtain ⟨hfinal, hanswers⟩ := ih (fun e'' hmem => hapart e'' (by simp [hmem])) (m.next s e')
    constructor
    · rw [List.cons_append, final_cons, hfinal, final_cons, h.commute s e' e hhead]
      rfl
    · intro r
      rw [List.cons_append, answers_cons, List.filter_cons, hanswers r]
      simp only [List.cons_append, answers_cons, h.output s e' e hhead,
        h.output s e e' hhead.symm, h.commute s e' e hhead, List.filter_cons]
      cases hused : uses e' r with
      | true => simp [hhead r hused]
      | false => simp

/-- When two runs have the same events on every resource, the first event of one stands in
the other past events that are apart from it, and the rests have the same events again. -/
theorem Separated.exists_split (h : m.Separated uses) {events events' : List ε}
    (hsame : ∀ r, (e :: events).filter (fun e => uses e r) = events'.filter fun e => uses e r) :
    ∃ before after, events' = before ++ e :: after ∧ (∀ e' ∈ before, Apart uses e' e) ∧
      ∀ r, events.filter (fun e => uses e r) = (before ++ after).filter fun e => uses e r := by
  obtain ⟨r₀, hused₀⟩ := h.uses_some e
  have hmem : e ∈ events' := by
    have hfilter : e ∈ events'.filter fun e => uses e r₀ := by
      rw [← hsame r₀, List.filter_cons, if_pos hused₀]
      exact List.mem_cons_self
    exact (List.mem_filter.mp hfilter).1
  obtain ⟨before, after, rfl, hfirst⟩ := List.eq_append_cons_of_mem hmem
  -- On a resource of `e` the other run starts with `e` as well, so nothing before it uses one.
  have hnone : ∀ r, uses e r = true → before.filter (fun e => uses e r) = [] := by
    intro r hused
    have hcut := hsame r
    rw [List.filter_cons, if_pos hused, List.filter_append] at hcut
    cases hfilter : before.filter fun e => uses e r with
    | nil => rfl
    | cons e' rest =>
      rw [hfilter, List.cons_append] at hcut
      obtain ⟨rfl, -⟩ := List.cons.inj hcut
      have hmem' : e ∈ before.filter fun e => uses e r := by
        rw [hfilter]
        exact List.mem_cons_self
      exact absurd (List.mem_filter.mp hmem').1 hfirst
  refine ⟨before, after, rfl, ?_, ?_⟩
  · intro e' hmem' r hused'
    by_contra hused
    rw [Bool.not_eq_false] at hused
    have hfilter : e' ∈ before.filter fun e => uses e r := List.mem_filter.mpr ⟨hmem', hused'⟩
    rw [hnone r hused] at hfilter
    cases hfilter
  · intro r
    have hcut := hsame r
    rw [List.filter_append] at hcut ⊢
    cases hused : uses e r with
    | true =>
      rw [hnone r hused, List.nil_append, List.filter_cons, if_pos hused, List.filter_cons,
        if_pos hused] at hcut
      rw [hnone r hused, List.nil_append]
      exact List.tail_eq_of_cons_eq hcut
    | false => simpa [List.filter_cons, hused] using hcut

/-- **Interleavings agree.** Runs with the same events on every resource reach the same
state and give every resource the same answers. -/
theorem Separated.agree (h : m.Separated uses) {events events' : List ε}
    (hsame : ∀ r, events.filter (fun e => uses e r) = events'.filter fun e => uses e r) (s : σ) :
    m.final s events = m.final s events' ∧
      ∀ r, (m.answers s events).filter (fun answer => uses answer.1 r) =
        (m.answers s events').filter fun answer => uses answer.1 r := by
  induction events generalizing s events' with
  | nil =>
    have hnone : events' = [] := by
      rw [List.eq_nil_iff_forall_not_mem]
      intro e hmem
      obtain ⟨r, hused⟩ := h.uses_some e
      have hfilter : e ∈ events'.filter fun e => uses e r := List.mem_filter.mpr ⟨hmem, hused⟩
      rw [← hsame r] at hfilter
      cases hfilter
    rw [hnone]
    exact ⟨rfl, fun _ => rfl⟩
  | cons e events ih =>
    obtain ⟨before, after, rfl, hapart, hrest⟩ := h.exists_split hsame
    obtain ⟨hfinal, hanswers⟩ := ih hrest (m.next s e)
    obtain ⟨hpulled, hpulledAnswers⟩ := h.pull hapart after s
    constructor
    · rw [final_cons, hpulled, final_cons, hfinal]
    · intro r
      rw [hpulledAnswers r, answers_cons, answers_cons, List.filter_cons, List.filter_cons,
        hanswers r]

end

end Machine
