import Mathlib.Logic.Relation
import SmartCO2.Library.History
import SmartCO2.Library.Protothread

/-!
# Lifetimes of Protothreads

An execution leads a protothread from its beginning to one of its jumps. A **lifetime** goes
on after that: a thread that has been rewound, has exited or has ended may be called again, and
begins anew. It may do so any number of times, and the rest of the program goes on in between,
as the relation `env` allows it.

A lifetime has a history, its **moments**: the waits that were reached and the tests that were
made of them, each with its state. A block takes its time, so a wait is reached in the state in
which its block ends, or later.

## Main results

* `Lifetime.lastReached_isSome`: a thread at a wait has reached it.
* `Lifetime.resume`: a call prolongs a lifetime, from wherever the thread has returned.
* `Lifetime.invariant`: an assertion that the blocks and the rest of the program keep holds
  throughout a lifetime.
-/

variable {ι L σ : Type*}

/-- What is recorded of a thread: it reaches a wait, or it tests the wait it has reached. The
state is the one in which it does so; that of a test is the state after it. -/
inductive Moment (L σ : Type*)
  | reached (l : L) (s : σ)
  | tested (l : L) (s : σ) (passed : Bool)

/-- The state of a moment. -/
def Moment.state : Moment L σ → σ
  | .reached _ s | .tested _ s _ => s

/-- The wait of a moment. -/
def Moment.wait : Moment L σ → L
  | .reached l _ | .tested l _ _ => l

/-- The moment that a jump leads to, if it leads to a wait. -/
def Jump.arrival (j : Jump L) (s : σ) : List (Moment L σ) :=
  match j with
  | .wait l => [.reached l s]
  | _ => []

/-- The state in which the last wait was reached. -/
def lastReached : List (Moment L σ) → Option σ
  | [] => none
  | .reached _ s :: _ => some s
  | .tested _ _ _ :: earlier => lastReached earlier

/-- The thread has lived from `s₀` to a jump and a state, with the given moments, newest
first. Every call may bring an input of its own, and the rest of the program, the clock with it,
may go on before the end of a block is recorded. -/
inductive Lifetime (t : ι → Protothread L σ) (env : σ → σ → Prop) (s₀ : σ) :
    List (Moment L σ) → Jump L → σ → Prop
  | start : Lifetime t env s₀ [] .restart s₀
  | enter {tr j s s'} (i : ι) (h : Lifetime t env s₀ tr j s) (hbegin : j.continuation = none)
      (hdefined : j ≠ .stuck) (hlater : Relation.ReflGen env ((t i).entry s).1 s') :
      Lifetime t env s₀ (((t i).entry s).2.arrival s' ++ tr) ((t i).entry s).2 s'
  | blocked {tr l s s'} (i : ι) (h : Lifetime t env s₀ tr (.wait l) s)
      (hguard : (t i).guard l s = (s', some false)) :
      Lifetime t env s₀ (.tested l s' false :: tr) (.wait l) s'
  | passed {tr l s s' s''} (i : ι) (h : Lifetime t env s₀ tr (.wait l) s)
      (hguard : (t i).guard l s = (s', some true))
      (hlater : Relation.ReflGen env ((t i).body l s').1 s'') :
      Lifetime t env s₀ (((t i).body l s').2.arrival s'' ++ .tested l s' true :: tr)
        ((t i).body l s').2 s''
  | undefined {tr l s s'} (i : ι) (h : Lifetime t env s₀ tr (.wait l) s)
      (hguard : (t i).guard l s = (s', none)) : Lifetime t env s₀ tr .stuck s'
  | elsewhere {tr j s s'} (h : Lifetime t env s₀ tr j s) (henv : env s s') :
      Lifetime t env s₀ tr j s'

/-- What holds always still does at an arrival, if it holds of the wait that is reached. -/
theorem always_arrival {P : Moment L σ → List (Moment L σ) → Prop} {j : Jump L} {s : σ}
    {tr : List (Moment L σ)} :
    Always P (j.arrival s ++ tr) ↔ (∀ l, j = .wait l → P (.reached l s) tr) ∧ Always P tr := by
  cases j with
  | wait l =>
      refine and_congr_left fun _ => ⟨?_, fun h => h l rfl⟩
      intro h l' hl
      obtain rfl := Jump.wait.inj hl
      exact h
  | restart | exit | finish | stuck => simp [Jump.arrival]

namespace Lifetime

variable {t : ι → Protothread L σ} {env : σ → σ → Prop} {s₀ s s' : σ} {fuel : ℕ}
  {tr : List (Moment L σ)} {j j' : Jump L}

/-- At a wait, a wait has been reached. -/
theorem lastReached_isSome {l : L} (h : Lifetime t env s₀ tr j s) (hj : j = .wait l) :
    (lastReached tr).isSome := by
  induction h generalizing l with
  | start => exact absurd hj (by simp)
  | enter i _ _ _ _ _ =>
      rw [hj]
      rfl
  | blocked i _ _ ih => exact ih rfl
  | passed i _ _ _ _ =>
      rw [hj]
      rfl
  | undefined => exact absurd hj (by simp)
  | elsewhere _ _ ih => exact ih hj

/-! ### Calls -/

/-- Every block of a call prolongs a lifetime. -/
theorem keeps (i : ι) : (t i).Keeps fun j s => ∃ tr, Lifetime t env s₀ tr j s where
  blocked {l s s'} hj hguard := by
    obtain ⟨tr, h⟩ := hj
    exact ⟨_, h.blocked i hguard⟩
  passed {l s s'} hj hguard := by
    obtain ⟨tr, h⟩ := hj
    exact ⟨_, h.passed i hguard .refl⟩
  undefined {l s s'} hj hguard := by
    obtain ⟨tr, h⟩ := hj
    exact ⟨tr, h.undefined i hguard⟩

/-- **Calls.** A call from where the thread has returned prolongs its lifetime. -/
theorem resume {i : ι} (h : Lifetime t env s₀ tr j s) (hdefined : j ≠ .stuck)
    (hresume : (t i).resume fuel j.continuation s = some (s', j')) :
    ∃ tr', Lifetime t env s₀ tr' j' s' := by
  refine (keeps i).resume (fun hbegin => ⟨_, h.enter i hbegin hdefined .refl⟩) ?_ hresume
  intro l hl
  cases j with
  | wait l' =>
      obtain rfl : l' = l := Option.some.inj hl
      exact ⟨tr, h⟩
  | restart | exit | finish | stuck => exact absurd hl (by simp [Jump.continuation])

/-! ### Invariants -/

/-- What the rest of the program keeps still holds where the end of a block is recorded. -/
theorem of_later {J : Jump L → σ → Prop} (henv : ∀ j s s', J j s → env s s' → J j s')
    (hj : J j s) (hlater : Relation.ReflGen env s s') : J j s' := by
  cases hlater with
  | refl => exact hj
  | single hstep => exact henv j s s' hj hstep

/-- **Invariants of lifetimes.** An assertion at every jump holds throughout a lifetime if it
holds at the start and where the thread begins anew, its tests and blocks keep it, and so does
the rest of the program. -/
theorem invariant {J : Jump L → σ → Prop} (hstart : J .restart s₀)
    (henter : ∀ i j s, j.continuation = none → J j s →
      J ((t i).entry s).2 ((t i).entry s).1)
    (hkeeps : ∀ i, (t i).Keeps J) (henv : ∀ j s s', J j s → env s s' → J j s')
    (h : Lifetime t env s₀ tr j s) : J j s := by
  induction h with
  | start => exact hstart
  | enter i _ hbegin _ hlater ih => exact of_later henv (henter i _ _ hbegin ih) hlater
  | blocked i _ hguard ih => exact (hkeeps i).blocked ih hguard
  | passed i _ hguard hlater ih => exact of_later henv ((hkeeps i).passed ih hguard) hlater
  | undefined i _ hguard ih => exact (hkeeps i).undefined ih hguard
  | elsewhere _ henv' ih => exact henv _ _ _ ih henv'

end Lifetime
