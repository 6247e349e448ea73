import Mathlib.Computability.StateTransition

/-!
# Statements of C

A small imperative language with the control flow of C: sequences, `if`, endless loops that a
`break` leaves, `return`, and a `switch` whose `case` labels may stand anywhere in its body, also
inside a loop or a branch. A jump to such a label enters the middle of these statements without
testing anything on the way; from there execution goes on as if it had come in from above.

The machine that runs a statement keeps the rest of the program in a **continuation**, so a
position in the program is a pair of a statement and a continuation, and the jump of a `switch`
is a search for the position of its label.

## Main definitions

* `Stmt`, `Configuration`, `Stmt.step`: statements and their machine, a transition function in
  the sense of `StateTransition`.
* `Stmt.findCase`: the position behind a label of a `switch`.
-/

/-- An expression: what its evaluation does to the state, and its value, or `none` where it has
no defined behaviour. -/
abbrev Expression (σ α : Type*) := σ → σ × Option α

namespace Expression

variable {σ τ α : Type*}

/-- An expression that is evaluated for its effect. -/
def does (f : σ → σ) : Expression σ Unit := fun s => (f s, some ())

/-- An expression that only reads the state. -/
def reads (f : σ → α) : Expression σ α := fun s => (s, some (f s))

/-- `!e` -/
def not (e : Expression σ Bool) : Expression σ Bool := fun s => ((e s).1, (e s).2.map Bool.not)

/-- `a || b`, where `b` is only evaluated if `a` is false. -/
def or (a b : Expression σ Bool) : Expression σ Bool := fun s =>
  match a s with
  | (s', some false) => b s'
  | r => r

end Expression

/-- Statements over the `case` labels `L` and the state `σ`. `loop` is `while (true)`. -/
inductive Stmt (L σ : Type*)
  | skip
  | exec (e : Expression σ Unit)
  | seq (a b : Stmt L σ)
  | cond (e : Expression σ Bool) (a b : Stmt L σ)
  | loop (a : Stmt L σ)
  | brk
  | switch (e : Expression σ L) (a : Stmt L σ)
  | case (l : L)
  | ret (r : ℤ)

/-- What remains to be executed behind a statement: the rest of a sequence, the next turn of the
loop it is in, the end of the `switch` it is in. -/
inductive Continuation (L σ : Type*)
  | stop
  | seq (b : Stmt L σ) (k : Continuation L σ)
  | loop (a : Stmt L σ) (k : Continuation L σ)
  | switch (k : Continuation L σ)

/-- A configuration of the machine: at a position, or ended by a `return` or by an expression
without a defined behaviour. -/
inductive Configuration (L σ : Type*)
  | run (a : Stmt L σ) (k : Continuation L σ) (s : σ)
  | returned (r : ℤ) (s : σ)
  | undefined (s : σ)

namespace Stmt

variable {L σ : Type*} [DecidableEq L]

/-- The continuation behind the label `l` in a statement, which itself goes on with `k`. The
labels of an inner `switch` are its own. -/
def findCase (l : L) : Stmt L σ → Continuation L σ → Option (Continuation L σ)
  | .case l', k => if l = l' then some k else none
  | .seq a b, k => (findCase l a (.seq b k)).or (findCase l b k)
  | .cond _ a b, k => (findCase l a k).or (findCase l b k)
  | .loop a, k => findCase l a (.loop a k)
  | _, _ => none

/-- One step of the machine. -/
def step : Configuration L σ → Option (Configuration L σ)
  | .run .skip (.seq b k) s => some (.run b k s)
  | .run .skip (.loop a k) s => some (.run (.loop a) k s)
  | .run .skip (.switch k) s => some (.run .skip k s)
  | .run (.exec e) k s =>
      match e s with
      | (s', some _) => some (.run .skip k s')
      | (s', none) => some (.undefined s')
  | .run (.seq a b) k s => some (.run a (.seq b k) s)
  | .run (.cond e a b) k s =>
      match e s with
      | (s', some true) => some (.run a k s')
      | (s', some false) => some (.run b k s')
      | (s', none) => some (.undefined s')
  | .run (.loop a) k s => some (.run a (.loop a k) s)
  | .run .brk (.seq _ k) s => some (.run .brk k s)
  | .run .brk (.loop _ k) s => some (.run .skip k s)
  | .run .brk (.switch k) s => some (.run .skip k s)
  | .run (.switch e a) k s =>
      match e s with
      | (s', some l) =>
          match findCase l a (.switch k) with
          | some k' => some (.run .skip k' s')
          | none => some (.run .skip k s')
      | (s', none) => some (.undefined s')
  | .run (.case _) k s => some (.run .skip k s)
  | .run (.ret r) _ s => some (.returned r s)
  | .run .skip .stop _ | .run .brk .stop _ | .returned .. | .undefined .. => none

/-- A step of a run. -/
theorem reaches_step {a b c : Configuration L σ} (hstep : step a = some b)
    (h : StateTransition.Reaches step b c) : StateTransition.Reaches step a c :=
  .head hstep h

/-- A run with a first step. -/
theorem reaches₁_step {a b c : Configuration L σ} (hstep : step a = some b)
    (h : StateTransition.Reaches step b c) : StateTransition.Reaches₁ step a c :=
  .head' hstep h

/-- Where a function with the given body ends, when it is called in the state `s`. -/
def call (a : Stmt L σ) (s : σ) : Part (Configuration L σ) :=
  StateTransition.eval step (.run a .stop s)

end Stmt
