import Mathlib.Computability.StateTransition
import Mathlib.Data.Nat.Basic
import Mathlib.Data.Option.Basic

/-!
# Protothreads

A **protothread** is a function that suspends itself by returning: it saves the point it
waits at (its local continuation), and the next call resumes there by testing the condition
of the wait again. Between two waits it runs a **block** of straight-line code, which ends
in a `Jump`: at the next wait, or out of the thread.

`resume` runs a thread from its saved continuation to the point where it returns to its
caller. A call passes any number of waits whose conditions hold, and a thread may loop, so
the number of blocks is bounded by fuel; `resume_isSome` shows when the fuel suffices.

## Main results

* `Keeps.resume`: the **rule of protothreads**. An assertion at every jump which the tests
  and the blocks keep one by one is kept by a whole call, whatever it passes on its way.
* `Returns.resume`: the **rule of returns**. The same with an assertion of its own for where the
  call returns: what is known of a wait whose test fails.
* `Unseen.resume`: a change of the state that the thread does not see can as well be made
  after a call as before it, so it can be made anywhere inside.
* `resume_isSome`: a rank that every passed wait decreases bounds the blocks of a call.
-/

/-- Where a block of a protothread ends: at a wait, where the continuation is saved and the
condition is tested; rewound and returned as still waiting, by an early exit or by its end;
or stuck at an operation without a defined behaviour, after which nothing is executed. -/
inductive Jump (L : Type*)
  | wait (l : L)
  | restart | exit | finish | stuck
  deriving DecidableEq, Repr

/-- The continuation that is saved when a thread returns at the jump. -/
def Jump.continuation {L : Type*} : Jump L → Option L
  | .wait l => some l
  | _ => none

/-- A protothread over the waits `L` and the state `σ`: the block from its beginning, the
test of each wait (`none` when it has no defined behaviour) and the block after each wait. -/
structure Protothread (L σ : Type*) where
  entry : σ → σ × Jump L
  guard : L → σ → σ × Option Bool
  body : L → σ → σ × Jump L

namespace Protothread

variable {L σ : Type*} {t : Protothread L σ}

/-- Run on from a jump until the thread returns, through at most `fuel` tests. -/
def follow (t : Protothread L σ) : ℕ → σ → Jump L → Option (σ × Jump L)
  | fuel + 1, s, .wait l =>
      match t.guard l s with
      | (s', some true) => follow t fuel (t.body l s').1 (t.body l s').2
      | (s', some false) => some (s', .wait l)
      | (s', none) => some (s', .stuck)
  | 0, _, .wait _ => none
  | _, s, .restart => some (s, .restart)
  | _, s, .exit => some (s, .exit)
  | _, s, .finish => some (s, .finish)
  | _, s, .stuck => some (s, .stuck)

/-- One call of the thread, from its saved continuation: the beginning or a wait. -/
def resume (t : Protothread L σ) (fuel : ℕ) : Option L → σ → Option (σ × Jump L)
  | none, s => t.follow fuel (t.entry s).1 (t.entry s).2
  | some l, s => t.follow fuel s (.wait l)

/-! ### The rule of protothreads -/

/-- An assertion at every jump that the thread keeps: a failed test leaves the assertion of
its wait, a passed one and the block after it lead to the assertion of the next jump, and an
undefined one to the assertion of being stuck. -/
structure Keeps (t : Protothread L σ) (J : Jump L → σ → Prop) : Prop where
  blocked : ∀ {l s s'}, J (.wait l) s → t.guard l s = (s', some false) → J (.wait l) s'
  passed : ∀ {l s s'}, J (.wait l) s → t.guard l s = (s', some true) →
    J (t.body l s').2 (t.body l s').1
  undefined : ∀ {l s s'}, J (.wait l) s → t.guard l s = (s', none) → J .stuck s'

/-- Threads whose tests do not disturb the assertion of their wait: it remains to show that
the blocks keep it, and that an undefined test leads to the assertion of being stuck. -/
theorem Keeps.of_tests {J : Jump L → σ → Prop}
    (htest : ∀ l s, J (.wait l) s → J (.wait l) (t.guard l s).1)
    (hbody : ∀ l s, J (.wait l) s → J (t.body l s).2 (t.body l s).1)
    (hstuck : ∀ l s s', t.guard l s = (s', none) → J (.wait l) s' → J .stuck s') :
    t.Keeps J where
  blocked {l s s'} hj hg := by
    have htested := htest l s hj
    rw [hg] at htested
    exact htested
  passed {l s s'} hj hg := by
    have htested := htest l s hj
    rw [hg] at htested
    exact hbody l s' htested
  undefined {l s s'} hj hg := by
    have htested := htest l s hj
    rw [hg] at htested
    exact hstuck l s s' hg htested

/-- An assertion kept block by block is kept until the thread returns. -/
theorem Keeps.follow {J : Jump L → σ → Prop} (hJ : t.Keeps J) {fuel : ℕ} {s s' : σ}
    {j j' : Jump L} (hj : J j s) (h : t.follow fuel s j = some (s', j')) : J j' s' := by
  induction fuel generalizing s j with
  | zero =>
      cases j <;> simp only [Protothread.follow, reduceCtorEq, Option.some.injEq,
        Prod.mk.injEq] at h
      all_goals
        obtain ⟨rfl, rfl⟩ := h
        exact hj
  | succ fuel ih =>
      cases j with
      | wait l =>
          rw [Protothread.follow] at h
          split at h
          · next s₁ hg => exact ih (hJ.passed hj hg) h
          · next s₁ hg =>
              obtain ⟨rfl, rfl⟩ := Prod.mk.inj (Option.some.inj h)
              exact hJ.blocked hj hg
          · next s₁ hg =>
              obtain ⟨rfl, rfl⟩ := Prod.mk.inj (Option.some.inj h)
              exact hJ.undefined hj hg
      | restart | exit | finish | stuck =>
          obtain ⟨rfl, rfl⟩ := Prod.mk.inj (Option.some.inj h)
          exact hj

/-- **The rule of protothreads.** If the assertion holds where the call enters the thread,
it holds where the call returns. -/
theorem Keeps.resume {J : Jump L → σ → Prop} (hJ : t.Keeps J) {fuel : ℕ} {lc : Option L}
    {s s' : σ} {j' : Jump L} (hentry : lc = none → J (t.entry s).2 (t.entry s).1)
    (hwait : ∀ l, lc = some l → J (.wait l) s) (h : t.resume fuel lc s = some (s', j')) :
    J j' s' := by
  cases lc with
  | none => exact hJ.follow (hentry rfl) h
  | some l => exact hJ.follow (hwait l rfl) h

/-- An assertion `J` at every jump and one, `R`, where the thread returns: a failed test returns,
and so does every jump that is not a wait. -/
structure Returns (t : Protothread L σ) (J R : Jump L → σ → Prop) : Prop where
  blocked : ∀ {l s s'}, J (.wait l) s → t.guard l s = (s', some false) → R (.wait l) s'
  passed : ∀ {l s s'}, J (.wait l) s → t.guard l s = (s', some true) →
    J (t.body l s').2 (t.body l s').1
  undefined : ∀ {l s s'}, J (.wait l) s → t.guard l s = (s', none) → R .stuck s'
  leaves : ∀ {j s}, J j s → (∀ l, j ≠ .wait l) → R j s

/-- The assertions hold from a jump on until the thread returns. -/
theorem Returns.follow {J R : Jump L → σ → Prop} (hJ : t.Returns J R) {fuel : ℕ} {s s' : σ}
    {j j' : Jump L} (hj : J j s) (h : t.follow fuel s j = some (s', j')) : R j' s' := by
  induction fuel generalizing s j with
  | zero =>
      cases j <;> simp only [Protothread.follow, reduceCtorEq, Option.some.injEq,
        Prod.mk.injEq] at h
      all_goals
        obtain ⟨rfl, rfl⟩ := h
        exact hJ.leaves hj (by simp)
  | succ fuel ih =>
      cases j with
      | wait l =>
          rw [Protothread.follow] at h
          split at h
          · next s₁ hg => exact ih (hJ.passed hj hg) h
          · next s₁ hg =>
              obtain ⟨rfl, rfl⟩ := Prod.mk.inj (Option.some.inj h)
              exact hJ.blocked hj hg
          · next s₁ hg =>
              obtain ⟨rfl, rfl⟩ := Prod.mk.inj (Option.some.inj h)
              exact hJ.undefined hj hg
      | restart | exit | finish | stuck =>
          obtain ⟨rfl, rfl⟩ := Prod.mk.inj (Option.some.inj h)
          exact hJ.leaves hj (by simp)

/-- **The rule of returns.** Where the first assertion holds at the entry of a call, the second
one holds where the call returns. -/
theorem Returns.resume {J R : Jump L → σ → Prop} (hJ : t.Returns J R) {fuel : ℕ} {lc : Option L}
    {s s' : σ} {j' : Jump L} (hentry : lc = none → J (t.entry s).2 (t.entry s).1)
    (hwait : ∀ l, lc = some l → J (.wait l) s) (h : t.resume fuel lc s = some (s', j')) :
    R j' s' := by
  cases lc with
  | none => exact hJ.follow (hentry rfl) h
  | some l => exact hJ.follow (hwait l rfl) h

/-! ### Changes that a thread does not see -/

/-- The thread does not see the change `f` of the state: every test and every block does the
same with it, and keeps it. -/
structure Unseen (t : Protothread L σ) (f : σ → σ) : Prop where
  entry : ∀ s, t.entry (f s) = (f (t.entry s).1, (t.entry s).2)
  guard : ∀ l s, t.guard l (f s) = (f (t.guard l s).1, (t.guard l s).2)
  body : ∀ l s, t.body l (f s) = (f (t.body l s).1, (t.body l s).2)

/-- An unseen change can be made before the thread runs on or afterwards. -/
theorem Unseen.follow {f : σ → σ} (hf : t.Unseen f) (fuel : ℕ) (s : σ) (j : Jump L) :
    t.follow fuel (f s) j = (t.follow fuel s j).map fun r => (f r.1, r.2) := by
  induction fuel generalizing s j with
  | zero => cases j <;> rfl
  | succ fuel ih =>
      cases j with
      | wait l =>
          rw [Protothread.follow, Protothread.follow, hf.guard]
          obtain ⟨s', b⟩ := t.guard l s
          cases b with
          | none => rfl
          | some b =>
              cases b with
              | false => rfl
              | true =>
                  simp only [hf.body]
                  exact ih _ _
      | restart | exit | finish | stuck => rfl

/-- **Unseen changes.** A change that the thread does not see can be made before a call or
after it. -/
theorem Unseen.resume {f : σ → σ} (hf : t.Unseen f) (fuel : ℕ) (lc : Option L) (s : σ) :
    t.resume fuel lc (f s) = (t.resume fuel lc s).map fun r => (f r.1, r.2) := by
  cases lc with
  | none =>
      rw [Protothread.resume, hf.entry]
      exact hf.follow fuel _ _
  | some l => exact hf.follow fuel s _

/-! ### Threads on a larger state -/

/-- The thread does to the part `f` of its state what `t'` does. -/
structure Maps {τ : Type*} (t : Protothread L σ) (t' : Protothread L τ) (f : σ → τ) : Prop where
  entry : ∀ s, t'.entry (f s) = (f (t.entry s).1, (t.entry s).2)
  guard : ∀ l s, t'.guard l (f s) = (f (t.guard l s).1, (t.guard l s).2)
  body : ∀ l s, t'.body l (f s) = (f (t.body l s).1, (t.body l s).2)

/-- Following a jump does to the part of the state what the other thread does. -/
theorem Maps.follow {τ : Type*} {t' : Protothread L τ} {f : σ → τ} (hf : t.Maps t' f) (fuel : ℕ)
    (s : σ) (j : Jump L) :
    t'.follow fuel (f s) j = (t.follow fuel s j).map fun r => (f r.1, r.2) := by
  induction fuel generalizing s j with
  | zero => cases j <;> rfl
  | succ fuel ih =>
      cases j with
      | wait l =>
          rw [Protothread.follow, Protothread.follow, hf.guard]
          obtain ⟨s', b⟩ := t.guard l s
          rcases b with - | - | -
          · rfl
          · rfl
          · simp only [hf.body]
            exact ih _ _
      | restart | exit | finish | stuck => rfl

/-- **Threads on a larger state.** A call does to the part of the state what a call of the other
thread does. -/
theorem Maps.resume {τ : Type*} {t' : Protothread L τ} {f : σ → τ} (hf : t.Maps t' f) (fuel : ℕ)
    (lc : Option L) (s : σ) :
    t'.resume fuel lc (f s) = (t.resume fuel lc s).map fun r => (f r.1, r.2) := by
  cases lc with
  | none =>
      rw [Protothread.resume, hf.entry]
      exact hf.follow fuel _ _
  | some l => exact hf.follow fuel s _

/-- Where a call of the thread returns, a call of the other one does. -/
theorem Maps.of_resume {τ : Type*} {t' : Protothread L τ} {f : σ → τ} (hf : t.Maps t' f) {fuel : ℕ}
    {lc : Option L} {s s' : σ} {j : Jump L} (h : t.resume fuel lc s = some (s', j)) :
    t'.resume fuel lc (f s) = some (f s', j) := by
  rw [hf.resume, h]
  rfl

/-! ### Fuel -/

/-- A rank that decreases from each passed wait to the next bounds the tests of a call. -/
theorem follow_isSome {rank : L → σ → ℕ}
    (hrank : ∀ l s s', t.guard l s = (s', some true) → ∀ l', (t.body l s').2 = .wait l' →
      rank l' (t.body l s').1 < rank l s)
    {fuel : ℕ} {s : σ} {l : L} (hfuel : rank l s < fuel) :
    (t.follow fuel s (.wait l)).isSome := by
  induction fuel generalizing s l with
  | zero => exact absurd hfuel (Nat.not_lt_zero _)
  | succ fuel ih =>
      rw [Protothread.follow]
      split
      · next s₁ hg =>
          cases hb : (t.body l s₁).2 with
          | wait l' =>
              have hlt := hrank l s s₁ hg l' hb
              exact ih (by omega)
          | restart | exit | finish | stuck => cases fuel <;> rfl
      · rfl
      · rfl

/-- A call returns when the fuel exceeds the rank of the wait it starts at or enters. -/
theorem resume_isSome (rank : L → σ → ℕ)
    (hrank : ∀ l s s', t.guard l s = (s', some true) → ∀ l', (t.body l s').2 = .wait l' →
      rank l' (t.body l s').1 < rank l s)
    {fuel : ℕ} {lc : Option L} {s : σ}
    (hentry : ∀ l, (t.entry s).2 = .wait l → rank l (t.entry s).1 < fuel)
    (hwait : ∀ l, lc = some l → rank l s < fuel) : (t.resume fuel lc s).isSome := by
  cases lc with
  | some l => exact follow_isSome hrank (hwait l rfl)
  | none =>
      rw [resume]
      cases hj : (t.entry s).2 with
      | wait l => exact follow_isSome hrank (hentry l hj)
      | restart | exit | finish | stuck => cases fuel <;> rfl

/-! ### The life of a thread -/

/-- A thread during a call: about to test a wait, or returned. -/
inductive Phase (L σ : Type*)
  | testing (l : L) (s : σ)
  | returned (j : Jump L) (s : σ)

/-- Where a jump leads during a call. -/
def Phase.at : Jump L → σ → Phase L σ
  | .wait l, s => .testing l s
  | .restart, s => .returned .restart s
  | .exit, s => .returned .exit s
  | .finish, s => .returned .finish s
  | .stuck, s => .returned .stuck s

/-- A test and the block after it. -/
def nextPhase (t : Protothread L σ) : Phase L σ → Option (Phase L σ)
  | .testing l s =>
      match t.guard l s with
      | (s', some true) => some (.at (t.body l s').2 (t.body l s').1)
      | (s', some false) => some (.returned (.wait l) s')
      | (s', none) => some (.returned .stuck s')
  | .returned .. => none

/-- A thread that has returned stays there. -/
theorem eval_returned (j : Jump L) (s : σ) (a : Phase L σ) :
    a ∈ StateTransition.eval t.nextPhase (.returned j s) ↔ a = .returned j s := by
  rw [StateTransition.mem_eval]
  constructor
  · rintro ⟨hreach, -⟩
    rcases Relation.ReflTransGen.cases_head hreach with heq | ⟨b, hb, -⟩
    · exact heq.symm
    · exact absurd hb (by simp [nextPhase])
  · rintro rfl
    exact ⟨.refl, rfl⟩

/-- A test leads to the next phase. -/
theorem eval_testing {l : L} {s : σ} {a : Phase L σ} (h : t.nextPhase (.testing l s) = some a) :
    StateTransition.eval t.nextPhase (.testing l s) = StateTransition.eval t.nextPhase a :=
  StateTransition.reaches_eval (.single h)

/-- What following a jump finds, the machine ends in. -/
theorem mem_eval_of_follow {fuel : ℕ} {s s' : σ} {j j' : Jump L}
    (h : t.follow fuel s j = some (s', j')) :
    .returned j' s' ∈ StateTransition.eval t.nextPhase (.at j s) := by
  induction fuel generalizing s j with
  | zero =>
      cases j <;> simp only [follow, reduceCtorEq, Option.some.injEq, Prod.mk.injEq] at h
      all_goals
        obtain ⟨rfl, rfl⟩ := h
        exact (eval_returned ..).mpr rfl
  | succ fuel ih =>
      cases j with
      | wait l =>
          rw [follow] at h
          split at h
          · next s₁ hg =>
              have hnext : t.nextPhase (.testing l s) =
                  some (.at (t.body l s₁).2 (t.body l s₁).1) := by rw [nextPhase, hg]
              rw [Phase.at, eval_testing hnext]
              exact ih h
          · next s₁ hg =>
              obtain ⟨rfl, rfl⟩ := Prod.mk.inj (Option.some.inj h)
              have hnext : t.nextPhase (.testing l s) = some (.returned (.wait l) s₁) := by
                rw [nextPhase, hg]
              rw [Phase.at, eval_testing hnext]
              exact (eval_returned ..).mpr rfl
          · next s₁ hg =>
              obtain ⟨rfl, rfl⟩ := Prod.mk.inj (Option.some.inj h)
              have hnext : t.nextPhase (.testing l s) = some (.returned .stuck s₁) := by
                rw [nextPhase, hg]
              rw [Phase.at, eval_testing hnext]
              exact (eval_returned ..).mpr rfl
      | restart | exit | finish | stuck =>
          obtain ⟨rfl, rfl⟩ := Prod.mk.inj (Option.some.inj h)
          exact (eval_returned ..).mpr rfl

end Protothread
