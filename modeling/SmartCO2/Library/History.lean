import Mathlib.Logic.Basic
import Mathlib.Data.List.Basic

/-!
# Histories and Monitors

A **history** is the list of the observations a system has made, newest first. `Always P`
says that every observation satisfies `P` together with everything observed before it,
`since p` is the part of a history after the last observation that satisfies `p`, and
`Continues q` relates a history to what it has become by observations that satisfy `q`.

A **monitor** is a deterministic acceptor of histories: an abstract machine that reads one
observation after the other and has no move for an observation that the protocol it states
does not allow. A history is accepted when the monitor has a state for it.

## Main results

* `Monitor.always`: an accepted history was accepted at every observation, so whatever an
  invariant of the abstract machine says about one move holds `Always`.
-/

variable {α κ : Type*}

/-- Every observation of the history satisfies `P` with what was observed before it. -/
def Always (P : α → List α → Prop) : List α → Prop
  | [] => True
  | a :: earlier => P a earlier ∧ Always P earlier

@[simp] theorem always_cons {P : α → List α → Prop} {a : α} {l : List α} :
    Always P (a :: l) ↔ P a l ∧ Always P l := Iff.rfl

/-- A stronger property holds always only where the weaker one does. -/
theorem Always.imp {P Q : α → List α → Prop} {l : List α} (h : Always P l)
    (himp : ∀ a earlier, P a earlier → Q a earlier) : Always Q l := by
  induction l with
  | nil => trivial
  | cons a l ih => exact ⟨himp a l h.1, ih h.2⟩

/-- Two properties that hold always hold always together. -/
theorem Always.and {P Q : α → List α → Prop} {l : List α} (h : Always P l) (h' : Always Q l) :
    Always (fun a earlier => P a earlier ∧ Q a earlier) l := by
  induction l with
  | nil => trivial
  | cons a l ih => exact ⟨⟨h.1, h'.1⟩, ih h.2 h'.2⟩

/-- Observations that satisfy the property whatever came before keep it true always. -/
theorem Always.append {P : α → List α → Prop} {new l : List α} (h : Always P l)
    (hnew : ∀ a ∈ new, ∀ earlier, P a earlier) : Always P (new ++ l) := by
  induction new with
  | nil => exact h
  | cons a new ih =>
      exact ⟨hnew a List.mem_cons_self _, ih fun b hb => hnew b (List.mem_cons_of_mem a hb)⟩

/-- What always holds held before the newest observations. -/
theorem Always.of_append {P : α → List α → Prop} {new l : List α} (h : Always P (new ++ l)) :
    Always P l := by
  induction new with
  | nil => exact h
  | cons a new ih => exact ih h.2

/-- What was never observed was not observed before any observation. -/
theorem always_not_mem {a : α} {l : List α} (h : a ∉ l) :
    Always (fun _ earlier => a ∉ earlier) l := by
  induction l with
  | nil => trivial
  | cons b l ih =>
      have hl : a ∉ l := fun hmem => h (List.mem_cons_of_mem b hmem)
      exact ⟨hl, ih hl⟩

/-- `Always P` of concrete histories is decided entry by entry. -/
instance decidableAlways (P : α → List α → Prop) [∀ a l, Decidable (P a l)] :
    ∀ l : List α, Decidable (Always P l)
  | [] => isTrue trivial
  | a :: l =>
      have := decidableAlways P l
      inferInstanceAs (Decidable (P a l ∧ Always P l))

/-- The observations after the last one that satisfies `p`, newest first. -/
def since (p : α → Bool) (l : List α) : List α :=
  l.takeWhile fun a => !p a

/-- An observation with `p` starts a new part. -/
theorem since_cons_pos {p : α → Bool} {a : α} (h : p a = true) (l : List α) :
    since p (a :: l) = [] := by
  simp [since, h]

/-- An observation without `p` joins the current part. -/
theorem since_cons_neg {p : α → Bool} {a : α} (h : p a = false) (l : List α) :
    since p (a :: l) = a :: since p l := by
  simp [since, h]

/-- More observations without `p` join the current part. -/
theorem since_append {p : α → Bool} {new : List α} (h : ∀ a ∈ new, p a = false) (l : List α) :
    since p (new ++ l) = new ++ since p l := by
  induction new with
  | nil => rfl
  | cons a new ih =>
      rw [List.cons_append, since_cons_neg (h a List.mem_cons_self),
        ih fun b hb => h b (List.mem_cons_of_mem a hb), List.cons_append]

/-- The current part is part of the history. -/
theorem mem_of_mem_since {p : α → Bool} {a : α} {l : List α} (h : a ∈ since p l) : a ∈ l :=
  (List.takeWhile_prefix _).subset h

/-- A history has gone on with observations that satisfy `q`. -/
abbrev Continues (q : α → Prop) (l l' : List α) : Prop :=
  ∃ new, l' = new ++ l ∧ ∀ a ∈ new, q a

/-- A history that has gone on twice has gone on. -/
theorem Continues.trans {q : α → Prop} {l₁ l₂ l₃ : List α} (h : Continues q l₁ l₂)
    (h' : Continues q l₂ l₃) : Continues q l₁ l₃ := by
  obtain ⟨new, rfl, hnew⟩ := h
  obtain ⟨new', rfl, hnew'⟩ := h'
  refine ⟨new' ++ new, (List.append_assoc new' new l₁).symm, ?_⟩
  intro a ha
  rcases List.mem_append.mp ha with ha | ha
  · exact hnew' a ha
  · exact hnew a ha

/-! ### Monitors -/

/-- A deterministic acceptor of histories: a state before anything is observed, and a move
for each observation that is allowed. -/
structure Monitor (κ α : Type*) where
  init : κ
  next : κ → α → Option κ

namespace Monitor

variable (M : Monitor κ α)

/-- The state after a history, `none` when one of its observations was not allowed. -/
def state : List α → Option κ
  | [] => some M.init
  | a :: l => (state l).bind fun c => M.next c a

variable {M}

/-- A history is accepted with one more observation when the state before allows it. -/
theorem state_cons_eq_some {a : α} {l : List α} {c' : κ} :
    M.state (a :: l) = some c' ↔ ∃ c, M.state l = some c ∧ M.next c a = some c' :=
  Option.bind_eq_some_iff

/-- The state after one more observation. -/
theorem state_cons {a : α} {l : List α} {c : κ} (h : M.state l = some c) :
    M.state (a :: l) = M.next c a := by
  rw [state, h, Option.bind_some]

/-- **Invariants of monitors.** A relation between the history and the state of the monitor
that every allowed move keeps holds of every accepted history. -/
theorem state_invariant {R : List α → κ → Prop} (h0 : R [] M.init)
    (hstep : ∀ l c a c', M.state l = some c → R l c → M.next c a = some c' → R (a :: l) c')
    {l : List α} {c : κ} (h : M.state l = some c) : R l c := by
  induction l generalizing c with
  | nil =>
      obtain rfl : M.init = c := Option.some.inj h
      exact h0
  | cons a l ih =>
      obtain ⟨c₀, hc₀, hmove⟩ := state_cons_eq_some.mp h
      exact hstep l c₀ a c hc₀ (ih hc₀) hmove

/-- **Accepted histories.** Every observation of an accepted history was a move of the
monitor from its state for the earlier ones. -/
theorem always {l : List α} {c : κ} (h : M.state l = some c) :
    Always (fun a earlier => ∃ c c', M.state earlier = some c ∧ M.next c a = some c') l := by
  induction l generalizing c with
  | nil => trivial
  | cons a l ih =>
      obtain ⟨c₀, hc₀, hmove⟩ := state_cons_eq_some.mp h
      exact ⟨⟨c₀, c, hc₀, hmove⟩, ih hc₀⟩

end Monitor
