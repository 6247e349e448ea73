import SmartCO2.Library.Protothread

/-!
# Executions of Protothreads

A thread that waits takes several calls from its beginning to its end. Each call may bring its
own input, and between the calls the rest of the program goes on. An **execution** is all of
this: the blocks that were run since the beginning, each with the input of the call that ran
it, up to the jump and the state reached. What the rest of the program may do in between is a
relation `env`.

## Main results

* `Execution.keeps`: a call takes executions to executions, so whatever is proved of executions
  holds wherever a call returns.
-/

variable {ι L σ : Type*}

/-- The thread, started in `s₀`, has run the given blocks (newest first; `none` is the block
from the beginning), and reached a jump in a state. -/
inductive Execution (t : ι → Protothread L σ) (env : σ → σ → Prop) (s₀ : σ) :
    List (Option L × ι) → Jump L → σ → Prop
  | enter (i : ι) : Execution t env s₀ [(none, i)] ((t i).entry s₀).2 ((t i).entry s₀).1
  | blocked {bs l s s'} (i : ι) (h : Execution t env s₀ bs (.wait l) s)
      (hguard : (t i).guard l s = (s', some false)) : Execution t env s₀ bs (.wait l) s'
  | passed {bs l s s'} (i : ι) (h : Execution t env s₀ bs (.wait l) s)
      (hguard : (t i).guard l s = (s', some true)) :
      Execution t env s₀ ((some l, i) :: bs) ((t i).body l s').2 ((t i).body l s').1
  | undefined {bs l s s'} (i : ι) (h : Execution t env s₀ bs (.wait l) s)
      (hguard : (t i).guard l s = (s', none)) : Execution t env s₀ bs .stuck s'
  | elsewhere {bs j s s'} (h : Execution t env s₀ bs j s) (henv : env s s') :
      Execution t env s₀ bs j s'

namespace Execution

variable {t : ι → Protothread L σ} {env : σ → σ → Prop} {s₀ s s' : σ} {fuel : ℕ} {i : ι}
  {j : Jump L}

/-- A test that succeeds is passed. -/
theorem pass {bs : List (Option L × ι)} {l : L} (i : ι) (h : Execution t env s₀ bs (.wait l) s)
    (htest : ((t i).guard l s).2 = some true) :
    Execution t env s₀ ((some l, i) :: bs) ((t i).body l ((t i).guard l s).1).2
      ((t i).body l ((t i).guard l s).1).1 :=
  h.passed i (Prod.ext rfl htest)

/-- Every block of a call prolongs an execution. -/
theorem keeps (i : ι) : (t i).Keeps fun j s => ∃ bs, Execution t env s₀ bs j s where
  blocked {l s s'} hj hguard := by
    obtain ⟨bs, h⟩ := hj
    exact ⟨bs, h.blocked i hguard⟩
  passed {l s s'} hj hguard := by
    obtain ⟨bs, h⟩ := hj
    exact ⟨_, h.passed i hguard⟩
  undefined {l s s'} hj hguard := by
    obtain ⟨bs, h⟩ := hj
    exact ⟨bs, h.undefined i hguard⟩

/-- A call from the beginning is an execution. -/
theorem of_resume (h : (t i).resume fuel none s = some (s', j)) :
    ∃ bs, Execution t env s bs j s' :=
  (keeps i).resume (fun _ => ⟨_, .enter i⟩) (fun _ hl => absurd hl (by simp)) h

/-- A call from a wait goes on with an execution. -/
theorem resume {bs : List (Option L × ι)} {l : L} (h : Execution t env s₀ bs (.wait l) s)
    (hresume : (t i).resume fuel (some l) s = some (s', j)) :
    ∃ bs', Execution t env s₀ bs' j s' := by
  refine (keeps i).resume (fun hnone => absurd hnone (by simp)) (fun l' hl => ?_) hresume
  obtain rfl := Option.some.inj hl
  exact ⟨bs, h⟩

end Execution
