import Mathlib.Logic.Basic
import Mathlib.Data.Option.Basic
import Mathlib.Data.List.Basic

/-!
# Event-Driven Step Systems

A **step system** is a deterministic transition function driven by events: all the
nondeterminism of an environment is packed into the event, and `none` says that the event
cannot occur in the state. A run is a list of events, executed by `run`; a property of the
steps of a run is `EachStep`, which sees the state before, the event and the state after.

## Main results

* `run_invariant`: an invariant kept by every step holds wherever a run ends.
* `run_guarded`: the same for runs all of whose steps meet a condition — the invariant
  needs to be kept by those steps only.
* `eachStep_of_invariant`: under an invariant, a property of single steps is a property of
  every step of a run.
* `eachStep_iff`: under an invariant that the good steps keep, two step properties that
  agree step by step agree on whole runs.
* `Reaches.of_rank`: a goal that can always be reached or come closer can be reached.
* `run_simulated`: a system each of whose steps another one can follow is followed by it in
  whole runs.
-/

/-- A deterministic system driven by events: `step s e` is the state after the event `e`,
or `none` when `e` cannot occur in `s`. -/
structure StepSystem (σ ε : Type*) where
  step : σ → ε → Option σ

namespace StepSystem

variable {σ ε : Type*} {m : StepSystem σ ε}

/-- The state a list of events leads to, when every event can occur in its turn. -/
def run (m : StepSystem σ ε) : σ → List ε → Option σ
  | s, [] => some s
  | s, e :: es =>
      match m.step s e with
      | some s' => run m s' es
      | none => none

/-- A run of a nonempty list is a first step followed by a run. -/
theorem run_cons_eq_some {s t : σ} {e : ε} {es : List ε} :
    m.run s (e :: es) = some t ↔ ∃ s', m.step s e = some s' ∧ m.run s' es = some t := by
  rw [run]
  cases m.step s e <;> simp

/-- A run of a nonempty list is a run followed by a last step. -/
theorem run_concat_eq_some {s t : σ} {e : ε} {es : List ε} :
    m.run s (es ++ [e]) = some t ↔ ∃ s', m.run s es = some s' ∧ m.step s' e = some t := by
  induction es generalizing s with
  | nil =>
      rw [List.nil_append, run_cons_eq_some]
      simp [run]
  | cons e₁ es ih =>
      rw [List.cons_append, run_cons_eq_some]
      simp only [ih, run_cons_eq_some]
      constructor
      · rintro ⟨s₁, hs₁, s', hrun, hstep⟩
        exact ⟨s', ⟨s₁, hs₁, hrun⟩, hstep⟩
      · rintro ⟨s', ⟨s₁, hs₁, hrun⟩, hstep⟩
        exact ⟨s₁, hs₁, s', hrun, hstep⟩

/-- Every step that the events take, from `s` on, satisfies `P` of the state before, the
event and the state after. -/
def EachStep (m : StepSystem σ ε) (P : σ → ε → σ → Prop) : σ → List ε → Prop
  | _, [] => True
  | s, e :: es =>
      match m.step s e with
      | some s' => P s e s' ∧ EachStep m P s' es
      | none => True

/-- The step property of a nonempty list, read at its first step. -/
theorem eachStep_cons {P : σ → ε → σ → Prop} {s s' : σ} {e : ε} {es : List ε}
    (h : m.step s e = some s') :
    m.EachStep P s (e :: es) ↔ P s e s' ∧ m.EachStep P s' es := by
  rw [EachStep, h]

/-- A step property of concrete events is decided by running them. -/
instance decidableEachStep (P : σ → ε → σ → Prop) [∀ s e s', Decidable (P s e s')] :
    ∀ (s : σ) (es : List ε), Decidable (m.EachStep P s es)
  | _, [] => isTrue trivial
  | s, e :: es =>
      match h : m.step s e with
      | some s' =>
          have := decidableEachStep P s' es
          decidable_of_iff (P s e s' ∧ m.EachStep P s' es) (eachStep_cons h).symm
      | none => isTrue (by rw [EachStep, h]; trivial)

/-! ### Invariants of runs -/

/-- **Invariants.** What holds at the start and is kept by every step holds at the end. -/
theorem run_invariant {I : σ → Prop} (hstep : ∀ s e s', I s → m.step s e = some s' → I s')
    {s t : σ} {es : List ε} (hI : I s) (hrun : m.run s es = some t) : I t := by
  induction es generalizing s with
  | nil =>
      obtain rfl : s = t := Option.some.inj hrun
      exact hI
  | cons e es ih =>
      obtain ⟨s', hs, hrun'⟩ := run_cons_eq_some.mp hrun
      exact ih (hstep s e s' hI hs) hrun'

/-- **Guarded invariants.** What holds at the start and is kept by every step that meets
the condition `C` holds at the end of a run all of whose steps meet it. -/
theorem run_guarded {I : σ → Prop} {C : σ → ε → σ → Prop}
    (hstep : ∀ s e s', I s → C s e s' → m.step s e = some s' → I s')
    {s t : σ} {es : List ε} (hI : I s) (hC : m.EachStep C s es)
    (hrun : m.run s es = some t) : I t := by
  induction es generalizing s with
  | nil =>
      obtain rfl : s = t := Option.some.inj hrun
      exact hI
  | cons e es ih =>
      obtain ⟨s', hs, hrun'⟩ := run_cons_eq_some.mp hrun
      obtain ⟨hc, hC'⟩ := (eachStep_cons hs).mp hC
      exact ih (hstep s e s' hI hc hs) hC' hrun'

/-- A property of single steps, proved under an invariant, is a property of every step. -/
theorem eachStep_of_invariant {I : σ → Prop} {P : σ → ε → σ → Prop}
    (hstep : ∀ s e s', I s → m.step s e = some s' → P s e s' ∧ I s')
    {s : σ} {es : List ε} (hI : I s) : m.EachStep P s es := by
  induction es generalizing s with
  | nil => exact trivial
  | cons e es ih =>
      cases hs : m.step s e with
      | none => rw [EachStep, hs]; trivial
      | some s' =>
          obtain ⟨hP, hI'⟩ := hstep s e s' hI hs
          exact (eachStep_cons hs).mpr ⟨hP, ih hI'⟩

/-- **Agreement of step properties.** If two step properties agree at every step from a
state with `I`, and the steps that satisfy the first keep `I`, they agree on whole runs. -/
theorem eachStep_iff {I : σ → Prop} {P Q : σ → ε → σ → Prop}
    (hiff : ∀ s e s', I s → m.step s e = some s' → (P s e s' ↔ Q s e s'))
    (hkeep : ∀ s e s', I s → m.step s e = some s' → P s e s' → I s')
    {s : σ} {es : List ε} (hI : I s) : m.EachStep P s es ↔ m.EachStep Q s es := by
  induction es generalizing s with
  | nil => exact Iff.rfl
  | cons e es ih =>
      cases hs : m.step s e with
      | none => simp [EachStep, hs]
      | some s' =>
          rw [eachStep_cons hs, eachStep_cons hs, ← hiff s e s' hI hs]
          exact and_congr_right fun hP => ih (hkeep s e s' hI hs hP)

/-! ### Reachability and simulation -/

/-- Some events lead from `s` to `t`. -/
def Reaches (m : StepSystem σ ε) (s t : σ) : Prop := ∃ es, m.run s es = some t

/-- Every state reaches itself. -/
theorem Reaches.refl (m : StepSystem σ ε) (s : σ) : m.Reaches s s := ⟨[], rfl⟩

/-- A step, and what can be reached after it. -/
theorem Reaches.head {s t u : σ} {e : ε} (h : m.step s e = some t) (h' : m.Reaches t u) :
    m.Reaches s u := by
  obtain ⟨es, hrun⟩ := h'
  exact ⟨e :: es, run_cons_eq_some.mpr ⟨t, h, hrun⟩⟩

/-- What can be reached in turn can be reached. -/
theorem Reaches.trans {s t u : σ} (h : m.Reaches s t) (h' : m.Reaches t u) : m.Reaches s u := by
  obtain ⟨es, hrun⟩ := h
  induction es generalizing s with
  | nil =>
      obtain rfl : s = t := Option.some.inj hrun
      exact h'
  | cons e es ih =>
      obtain ⟨s', hs, hrun'⟩ := run_cons_eq_some.mp hrun
      exact .head hs (ih hrun')

/-- **Progress.** If from every state with `I` some events lead to the goal or to another state with
`I` of a lower rank, then some events lead to the goal. -/
theorem Reaches.of_rank {I G : σ → Prop} (rank : σ → ℕ)
    (hstep : ∀ s, I s → ∃ t, m.Reaches s t ∧ (G t ∨ (I t ∧ rank t < rank s))) {s : σ} (h : I s) :
    ∃ t, m.Reaches s t ∧ G t := by
  induction hr : rank s using Nat.strongRecOn generalizing s with
  | ind n ih =>
      obtain ⟨t, hreach, hgoal | ⟨ht, hlt⟩⟩ := hstep s h
      · exact ⟨t, hreach, hgoal⟩
      · obtain ⟨u, hreach', hgoal⟩ := ih (rank t) (hr ▸ hlt) ht rfl
        exact ⟨u, hreach.trans hreach', hgoal⟩

/-- **Simulation.** If the other system can follow every step from related states to related
states, it can follow every run. -/
theorem run_simulated {τ δ : Type*} {n : StepSystem τ δ} {R : σ → τ → Prop}
    (hstep : ∀ s e s' t, R s t → m.step s e = some s' → ∃ t', n.Reaches t t' ∧ R s' t')
    {s s' : σ} {t : τ} {es : List ε} (hR : R s t) (hrun : m.run s es = some s') :
    ∃ t', n.Reaches t t' ∧ R s' t' := by
  induction es generalizing s t with
  | nil =>
      obtain rfl : s = s' := Option.some.inj hrun
      exact ⟨t, .refl n t, hR⟩
  | cons e es ih =>
      obtain ⟨s₁, hs, hrun'⟩ := run_cons_eq_some.mp hrun
      obtain ⟨t₁, hreach, hR₁⟩ := hstep s e s₁ t hR hs
      obtain ⟨t', hreach', hR'⟩ := ih hR₁ hrun'
      exact ⟨t', hreach.trans hreach', hR'⟩

end StepSystem
