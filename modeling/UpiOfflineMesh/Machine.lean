import Mathlib.Algebra.BigOperators.Group.List.Basic
import Mathlib.Algebra.Ring.Nat
import Mathlib.Data.List.Induction
import Mathlib.Tactic.Common

/-!
# Runs of a deterministic machine

A machine reads events, moves its state and answers each event. A property of
all reachable states is an invariant of one step; a property of a whole run is
about its list of transitions. The rules here are the inductions over runs that
results about servers need, once each, for any states, events and answers.
-/

universe u v w

/-- A deterministic machine: an event yields an answer and the next state. -/
structure Machine (σ : Type u) (ε : Type v) (ο : Type w) where
  /-- One step. -/
  step : σ → ε → ο × σ

/-- One step of a run with the states around it. -/
structure Transition (σ : Type u) (ε : Type v) (ο : Type w) where
  before : σ
  event : ε
  output : ο
  after : σ

namespace Machine

variable {σ : Type u} {ε : Type v} {ο : Type w}

/-- The state after one event. -/
def next (m : Machine σ ε ο) (s : σ) (e : ε) : σ := (m.step s e).2

/-- The state after a list of events. -/
def final (m : Machine σ ε ο) (s : σ) (events : List ε) : σ := events.foldl m.next s

/-- The transition that an event causes in a state. -/
def transition (m : Machine σ ε ο) (s : σ) (e : ε) : Transition σ ε ο :=
  ⟨s, e, (m.step s e).1, m.next s e⟩

/-- The transitions of a run, in order. -/
def transitions (m : Machine σ ε ο) (s : σ) : List ε → List (Transition σ ε ο)
  | [] => []
  | e :: events => m.transition s e :: m.transitions (m.next s e) events

@[simp] theorem final_nil (m : Machine σ ε ο) (s : σ) : m.final s [] = s := rfl

@[simp] theorem final_cons (m : Machine σ ε ο) (s : σ) (e : ε) (events : List ε) :
    m.final s (e :: events) = m.final (m.next s e) events := rfl

/-- A run continues where its first part ended. -/
theorem final_append (m : Machine σ ε ο) (s : σ) (first second : List ε) :
    m.final s (first ++ second) = m.final (m.final s first) second :=
  List.foldl_append

@[simp] theorem transitions_nil (m : Machine σ ε ο) (s : σ) : m.transitions s [] = [] := rfl

@[simp] theorem transitions_cons (m : Machine σ ε ο) (s : σ) (e : ε) (events : List ε) :
    m.transitions s (e :: events) = m.transition s e :: m.transitions (m.next s e) events := rfl

theorem transitions_append (m : Machine σ ε ο) (s : σ) (first second : List ε) :
    m.transitions s (first ++ second) =
      m.transitions s first ++ m.transitions (m.final s first) second := by
  induction first generalizing s with
  | nil => rfl
  | cons e first ih => simp [ih]

@[simp] theorem before_transition (m : Machine σ ε ο) (s : σ) (e : ε) :
    (m.transition s e).before = s := rfl

@[simp] theorem event_transition (m : Machine σ ε ο) (s : σ) (e : ε) :
    (m.transition s e).event = e := rfl

@[simp] theorem output_transition (m : Machine σ ε ο) (s : σ) (e : ε) :
    (m.transition s e).output = (m.step s e).1 := rfl

@[simp] theorem after_transition (m : Machine σ ε ο) (s : σ) (e : ε) :
    (m.transition s e).after = m.next s e := rfl

/-- **Invariant rule:** what each allowed event preserves holds after every run
of allowed events. -/
theorem invariant {m : Machine σ ε ο} {allowed : ε → Prop} {I : σ → Prop}
    (hstep : ∀ s e, allowed e → I s → I (m.next s e)) {s : σ} (hinit : I s) {events : List ε}
    (hallowed : ∀ e ∈ events, allowed e) : I (m.final s events) := by
  induction events generalizing s with
  | nil => exact hinit
  | cons e events ih =>
    exact ih (hstep s e (hallowed e (by simp)) hinit) (fun e' h => hallowed e' (by simp [h]))

/-- What every event preserves holds after every run. -/
theorem invariant_all {m : Machine σ ε ο} {I : σ → Prop} (hstep : ∀ s e, I s → I (m.next s e))
    {s : σ} (hinit : I s) (events : List ε) : I (m.final s events) :=
  invariant (fun s e (_ : True) hI => hstep s e hI) hinit (fun _ _ => trivial)

/-- **Counting rule:** an invariant that each event may push up by one level, as long as a
bound is not reached, is pushed up by at most the length of the run. -/
theorem invariant_counted {m : Machine σ ε ο} {I : ℕ → σ → Prop} {bound : ℕ}
    (hstep : ∀ k s e, k < bound → I k s → I (k + 1) (m.next s e)) {k : ℕ} {s : σ} (hinit : I k s)
    {events : List ε} (hlength : k + events.length ≤ bound) :
    I (k + events.length) (m.final s events) := by
  induction events generalizing k s with
  | nil => exact hinit
  | cons e events ih =>
    rw [List.length_cons, ← add_assoc, add_right_comm] at hlength ⊢
    exact ih (hstep k s e (by omega) hinit) hlength

/-- Each transition of a run happens in the state that the events before it reach. -/
theorem eq_transition_of_mem {m : Machine σ ε ο} {s : σ} {events : List ε}
    {t : Transition σ ε ο} (h : t ∈ m.transitions s events) :
    ∃ earlier later, events = earlier ++ t.event :: later ∧
      t = m.transition (m.final s earlier) t.event := by
  induction events generalizing s with
  | nil => simp at h
  | cons e events ih =>
    rw [transitions_cons, List.mem_cons] at h
    rcases h with rfl | h
    · exact ⟨[], events, rfl, rfl⟩
    · obtain ⟨earlier, later, rfl, ht⟩ := ih h
      exact ⟨e :: earlier, later, rfl, ht⟩

/-- **Invariant rule for transitions:** every transition of a run of allowed
events is an allowed step from a state satisfying the invariant. -/
theorem invariant_transition {m : Machine σ ε ο} {allowed : ε → Prop} {I : σ → Prop}
    (hstep : ∀ s e, allowed e → I s → I (m.next s e)) {s : σ} (hinit : I s) {events : List ε}
    (hallowed : ∀ e ∈ events, allowed e) {t : Transition σ ε ο}
    (h : t ∈ m.transitions s events) :
    I t.before ∧ allowed t.event ∧ t = m.transition t.before t.event := by
  obtain ⟨earlier, later, rfl, ht⟩ := eq_transition_of_mem h
  have hbefore : t.before = m.final s earlier := congrArg Transition.before ht
  refine ⟨?_, hallowed _ (by simp), by rw [hbefore]; exact ht⟩
  rw [hbefore]
  exact invariant hstep hinit (fun e he => hallowed e (by simp [he]))

/-- **Agreement rule:** machines that agree on allowed steps from the states of an invariant
have the same runs of allowed events. -/
theorem agreement {m m' : Machine σ ε ο} {allowed : ε → Prop} {I : σ → Prop}
    (hkeep : ∀ s e, allowed e → I s → I (m.next s e))
    (hstep : ∀ s e, allowed e → I s → m'.step s e = m.step s e) {s : σ} (hinit : I s)
    {events : List ε} (hallowed : ∀ e ∈ events, allowed e) :
    m'.transitions s events = m.transitions s events ∧ m'.final s events = m.final s events := by
  induction events generalizing s with
  | nil => exact ⟨rfl, rfl⟩
  | cons e events ih =>
    have hhead : allowed e := hallowed e (by simp)
    have hnext : m'.next s e = m.next s e := congrArg Prod.snd (hstep s e hhead hinit)
    obtain ⟨htransitions, hfinal⟩ :=
      ih (hkeep s e hhead hinit) fun e' h => hallowed e' (by simp [h])
    rw [transitions_cons, transitions_cons, final_cons, final_cons, transition, transition, hnext,
      hstep s e hhead hinit, htransitions, hfinal]
    exact ⟨rfl, rfl⟩

/-- **Last cause:** a property that the start lacks and that only firing brings about
goes back, wherever it holds, to a last firing of the run. -/
theorem exists_last_firing {m : Machine σ ε ο} {P : σ → Prop} {fires : Transition σ ε ο → Bool}
    (hcause : ∀ s e, P (m.next s e) → ¬P s → fires (m.transition s e) = true)
    {s : σ} (hinit : ¬P s) {events : List ε} (h : P (m.final s events)) :
    ∃ earlier e later, events = earlier ++ e :: later ∧
      fires (m.transition (m.final s earlier) e) = true ∧
      ∀ t ∈ m.transitions (m.next (m.final s earlier) e) later, fires t = false := by
  induction events using List.reverseRecOn with
  | nil => exact absurd h hinit
  | append_singleton events e ih =>
    rw [final_append] at h
    cases hfires : fires (m.transition (m.final s events) e) with
    | true => exact ⟨events, e, [], rfl, hfires, by simp⟩
    | false =>
      have hbefore : P (m.final s events) := by
        by_contra hnone
        simp [hcause _ e h hnone] at hfires
      obtain ⟨earlier, cause, later, rfl, hcaused, hquiet⟩ := ih hbefore
      refine ⟨earlier, cause, later ++ [e], by simp, hcaused, ?_⟩
      rw [final_append, final_cons] at hfires
      rw [transitions_append]
      simpa [or_imp, forall_and] using ⟨hquiet, hfires⟩

/-- **First cause:** what the start lacks and the end has, some event of the run has
brought about. -/
theorem exists_cause {m : Machine σ ε ο} {P : σ → Prop} {s : σ} {events : List ε} (hinit : ¬P s)
    (h : P (m.final s events)) :
    ∃ earlier e later, events = earlier ++ e :: later ∧ ¬P (m.final s earlier) ∧
      P (m.next (m.final s earlier) e) := by
  induction events using List.reverseRecOn with
  | nil => exact absurd h hinit
  | append_singleton events e ih =>
    by_cases hbefore : P (m.final s events)
    · obtain ⟨earlier, cause, later, rfl, hcause⟩ := ih hbefore
      exact ⟨earlier, cause, later ++ [e], by simp, hcause⟩
    · rw [final_append] at h
      exact ⟨events, e, [], rfl, hbefore, h⟩

/-- **Balance rule:** when every allowed step pays for the change of a level by what it
gains and loses, every run does. -/
theorem balance {M : Type*} [AddCommMonoid M] {m : Machine σ ε ο} {allowed : ε → Prop}
    {I : σ → Prop} (level : σ → M) (gain loss : Transition σ ε ο → M)
    (hkeep : ∀ s e, allowed e → I s → I (m.next s e))
    (hstep : ∀ s e, allowed e → I s →
      level s + gain (m.transition s e) = level (m.next s e) + loss (m.transition s e))
    {s : σ} (hinit : I s) {events : List ε} (hallowed : ∀ e ∈ events, allowed e) :
    level s + ((m.transitions s events).map gain).sum =
      level (m.final s events) + ((m.transitions s events).map loss).sum := by
  induction events generalizing s with
  | nil => rfl
  | cons e events ih =>
    have hhead : allowed e := hallowed e (by simp)
    have htail := ih (hkeep s e hhead hinit) fun e' h => hallowed e' (by simp [h])
    rw [transitions_cons, List.map_cons, List.sum_cons, List.map_cons, List.sum_cons, final_cons,
      ← add_assoc, hstep s e hhead hinit, add_right_comm, htail, add_assoc, add_comm (List.sum _)]

/-- **Log rule:** when every step appends to a log what it reports, the log of a whole run
is that of its start with all reports in their order. -/
theorem log_final {α : Type*} {m : Machine σ ε ο} {log : σ → List α}
    {report : Transition σ ε ο → List α}
    (hstep : ∀ s e, log (m.next s e) = log s ++ report (m.transition s e)) (s : σ)
    (events : List ε) :
    log (m.final s events) = log s ++ (m.transitions s events).flatMap report := by
  induction events generalizing s with
  | nil => simp
  | cons e events ih =>
    rw [final_cons, ih, hstep, transitions_cons, List.flatMap_cons, List.append_assoc]

/-- Counting transitions is adding up one for each. -/
theorem countP_eq_sum {τ : Type*} (p : τ → Bool) (l : List τ) :
    l.countP p = (l.map fun t => if p t then 1 else 0).sum := by
  induction l with
  | nil => rfl
  | cons t l ih => rw [List.countP_cons, List.map_cons, List.sum_cons, ih, add_comm]

/-- **Simulation rule:** when related states answer related events with related
outputs and move to related states, two runs of related events do so throughout. -/
theorem simulation {σ' : Type*} {ε' : Type*} {ο' : Type*} {m : Machine σ ε ο}
    {m' : Machine σ' ε' ο'} {R : σ → σ' → Prop} {E : ε → ε' → Prop} {O : ο → ο' → Prop}
    (hstep : ∀ s s' e e', R s s' → E e e' →
      O (m.step s e).1 (m'.step s' e').1 ∧ R (m.next s e) (m'.next s' e'))
    {s : σ} {s' : σ'} (h : R s s') {events : List ε} {events' : List ε'}
    (hevents : List.Forall₂ E events events') :
    List.Forall₂ O ((m.transitions s events).map Transition.output)
      ((m'.transitions s' events').map Transition.output) ∧
    R (m.final s events) (m'.final s' events') := by
  induction hevents generalizing s s' with
  | nil => exact ⟨.nil, h⟩
  | cons hevent _ ih =>
    obtain ⟨houtput, hnext⟩ := hstep _ _ _ _ h hevent
    obtain ⟨houtputs, hfinal⟩ := ih hnext
    exact ⟨.cons houtput houtputs, hfinal⟩

/-- **Projection rule:** when a part of the state follows another machine in each step,
it does so over whole runs. -/
theorem projection {σ' : Type*} {ε' : Type*} {ο' : Type*} {m : Machine σ ε ο}
    {m' : Machine σ' ε' ο'} {part : σ → σ'} {seen : ε → List ε'}
    (hstep : ∀ s e, part (m.next s e) = m'.final (part s) (seen e)) (s : σ) (events : List ε) :
    part (m.final s events) = m'.final (part s) (events.flatMap seen) := by
  induction events generalizing s with
  | nil => rfl
  | cons e events ih => rw [final_cons, ih, hstep, List.flatMap_cons, final_append]

/-- **Projection rule for answers:** when each step tells what the other machine tells of it,
whole runs do. -/
theorem projection_answers {σ' : Type*} {ε' : Type*} {ο' : Type*} {α : Type*} {m : Machine σ ε ο}
    {m' : Machine σ' ε' ο'} {part : σ → σ'} {seen : ε → List ε'} {told : ο → List α}
    {told' : ο' → List α}
    (hstep : ∀ s e, part (m.next s e) = m'.final (part s) (seen e))
    (hanswer : ∀ s e, told (m.step s e).1 =
      (m'.transitions (part s) (seen e)).flatMap fun t => told' t.output)
    (s : σ) (events : List ε) :
    (m.transitions s events).flatMap (fun t => told t.output) =
      (m'.transitions (part s) (events.flatMap seen)).flatMap fun t => told' t.output := by
  induction events generalizing s with
  | nil => rfl
  | cons e events ih =>
    rw [transitions_cons, List.flatMap_cons, ih, List.flatMap_cons, transitions_append,
      List.flatMap_append, output_transition, hanswer, hstep]

/-- The events that a part of the machine sees of a run, where what it sees of an event may
depend on the state in which it happens. -/
def trace {ε' : Type*} (m : Machine σ ε ο) (seen : σ → ε → List ε') (s : σ) : List ε → List ε'
  | [] => []
  | e :: events => seen s e ++ m.trace seen (m.next s e) events

section

variable {σ' : Type*} {ε' : Type*} {ο' : Type*} {m : Machine σ ε ο} {m' : Machine σ' ε' ο'}
  {part : σ → σ'} {seen : σ → ε → List ε'}

@[simp] theorem trace_nil (s : σ) : m.trace seen s [] = [] := rfl

@[simp] theorem trace_cons (s : σ) (e : ε) (events : List ε) :
    m.trace seen s (e :: events) = seen s e ++ m.trace seen (m.next s e) events := rfl

theorem trace_append (s : σ) (first second : List ε) :
    m.trace seen s (first ++ second) =
      m.trace seen s first ++ m.trace seen (m.final s first) second := by
  induction first generalizing s with
  | nil => rfl
  | cons e first ih => simp [ih]

/-- What the part sees is what it sees of one of the events, in the state before it. -/
theorem mem_trace_iff {s : σ} {events : List ε} {e' : ε'} :
    e' ∈ m.trace seen s events ↔
      ∃ earlier e later, events = earlier ++ e :: later ∧ e' ∈ seen (m.final s earlier) e := by
  constructor
  · intro h
    induction events generalizing s with
    | nil => simp at h
    | cons e events ih =>
      rw [trace_cons, List.mem_append] at h
      rcases h with h | h
      · exact ⟨[], e, events, rfl, h⟩
      · obtain ⟨earlier, e₀, later, rfl, hseen⟩ := ih h
        exact ⟨e :: earlier, e₀, later, rfl, hseen⟩
  · rintro ⟨earlier, e, later, rfl, hseen⟩
    rw [trace_append, trace_cons]
    exact List.mem_append_right _ (List.mem_append_left _ hseen)

/-- The part goes through the run of what it sees. -/
theorem final_trace (hstep : ∀ s e, part (m.next s e) = m'.final (part s) (seen s e)) (s : σ)
    (events : List ε) : part (m.final s events) = m'.final (part s) (m.trace seen s events) := by
  induction events generalizing s with
  | nil => rfl
  | cons e events ih => rw [final_cons, ih, hstep, trace_cons, final_append]

end

/-- **Expansion rule:** when, in the states of an invariant, a list of events does what an
allowed event does, with the same reports, then the run with all events expanded does what
the run does. -/
theorem final_expand {α : Type*} {m : Machine σ ε ο} {allowed : ε → Prop} {I : σ → Prop}
    {expand : σ → ε → List ε} {report : ο → List α}
    (hkeep : ∀ s e, allowed e → I s → I (m.next s e))
    (hstep : ∀ s e, allowed e → I s → m.final s (expand s e) = m.next s e ∧
      (m.transitions s (expand s e)).flatMap (fun t => report t.output) = report (m.step s e).1)
    {s : σ} (hinit : I s) {events : List ε} (hallowed : ∀ e ∈ events, allowed e) :
    m.final s (m.trace expand s events) = m.final s events ∧
      (m.transitions s (m.trace expand s events)).flatMap (fun t => report t.output) =
        (m.transitions s events).flatMap fun t => report t.output := by
  induction events generalizing s with
  | nil => exact ⟨rfl, rfl⟩
  | cons e events ih =>
    have hhead : allowed e := hallowed e (by simp)
    obtain ⟨hnext, hreport⟩ := hstep s e hhead hinit
    obtain ⟨hfinal, hreports⟩ :=
      ih (hkeep s e hhead hinit) fun e' h => hallowed e' (by simp [h])
    constructor
    · rw [trace_cons, final_append, hnext, hfinal, final_cons]
    · rw [trace_cons, transitions_append, List.flatMap_append, hnext, hreports, hreport,
        transitions_cons, List.flatMap_cons, output_transition]

/-- The events of a run without those of idle transitions. -/
def busy (m : Machine σ ε ο) (idle : Transition σ ε ο → Bool) (s : σ) (events : List ε) : List ε :=
  ((m.transitions s events).filter fun t => !idle t).map Transition.event

/-- **Idle rule:** when idle transitions leave the state as it is, a run without them has all
its other transitions, and the same end. -/
theorem transitions_busy {m : Machine σ ε ο} {idle : Transition σ ε ο → Bool}
    (hidle : ∀ s e, idle (m.transition s e) = true → m.next s e = s) (s : σ) (events : List ε) :
    m.transitions s (m.busy idle s events) =
        (m.transitions s events).filter (fun t => !idle t) ∧
      m.final s (m.busy idle s events) = m.final s events := by
  induction events generalizing s with
  | nil => exact ⟨rfl, rfl⟩
  | cons e events ih =>
    obtain ⟨htransitions, hfinal⟩ := ih (m.next s e)
    rw [transitions_cons, busy, transitions_cons, List.filter_cons]
    cases hquiet : idle (m.transition s e) with
    | true =>
      rw [hidle s e hquiet] at htransitions hfinal
      simp only [Bool.not_true, Bool.false_eq_true, if_false, final_cons, hidle s e hquiet]
      exact ⟨htransitions, hfinal⟩
    | false =>
      simp only [Bool.not_false, if_true, List.map_cons, event_transition, transitions_cons,
        final_cons]
      exact ⟨congrArg _ htransitions, hfinal⟩

/-- **At most once:** if firing marks the state, the mark stays, and a marked
state does not fire, then every run of allowed events fires at most once. -/
theorem countP_transitions_le_one {m : Machine σ ε ο} {allowed : ε → Prop} {marked : σ → Prop}
    {fires : Transition σ ε ο → Bool}
    (hmark : ∀ s e, allowed e → fires (m.transition s e) = true → marked (m.next s e))
    (hstay : ∀ s e, allowed e → marked s → marked (m.next s e))
    (hquiet : ∀ s e, allowed e → marked s → fires (m.transition s e) = false)
    (s : σ) {events : List ε} (hallowed : ∀ e ∈ events, allowed e) :
    (m.transitions s events).countP fires ≤ 1 := by
  have hnone : ∀ s, marked s → ∀ events : List ε, (∀ e ∈ events, allowed e) →
      (m.transitions s events).countP fires = 0 := by
    intro s hs events hevents
    rw [List.countP_eq_zero]
    intro t ht
    obtain ⟨hbefore, hevent, heq⟩ := invariant_transition hstay hs hevents ht
    rw [heq, hquiet _ _ hevent hbefore]
    exact Bool.false_ne_true
  induction events generalizing s with
  | nil => simp
  | cons e events ih =>
    have htail : ∀ e' ∈ events, allowed e' := fun e' h => hallowed e' (by simp [h])
    rw [transitions_cons, List.countP_cons]
    split
    case isTrue hfires =>
      have hzero := hnone _ (hmark s e (hallowed e (by simp)) hfires) events htail
      omega
    case isFalse => simpa using ih (m.next s e) htail

end Machine
