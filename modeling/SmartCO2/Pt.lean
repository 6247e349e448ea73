import SmartCO2.Library.Protothread
import SmartCO2.Library.Statement

/-!
# The Macros of `pt.h`

The model of `pt/pt.h` with the local continuations of `pt/lc-switch.h`. A protothread is a C
function whose body is written with the macros; the preprocessor turns it into a `switch` over
the saved line number, with a `case` label at every wait, wherever in the loops and branches of
the body the wait stands.

`PtCode` is a body as it is written. `PtCode.expand` is what the compiler gets: every macro is
replaced by its definition. `PtCode.toProtothread` reads a body as a blocking thread instead, cut
into its blocks: a wait blocks, and what follows it is what stands behind it in the text.

`PT_YIELD_FLAG` is only read by the yielding macros, which no thread here uses.

## Main results

* `mem_call_returned`: a call of the C function returns exactly where the blocking thread does.
* `ptThread_calls_iff`: the same for any number of calls, from `PT_INIT` on.
-/

namespace SmartCO2

/-- `struct pt` with its local continuation, 0 or the line of a wait, beside the rest of the
state. -/
structure PtState (L σ : Type*) where
  lc : Option L
  state : σ

/-- The body of a protothread between `PT_BEGIN` and `PT_END`: `waitUntil` is `PT_WAIT_UNTIL`,
on the line named by its label, `restart` is `PT_RESTART`, `exit` is `PT_EXIT`. -/
inductive PtCode (L σ : Type*)
  | skip
  | exec (e : Expression σ Unit)
  | seq (a b : PtCode L σ)
  | cond (e : Expression σ Bool) (a b : PtCode L σ)
  | loop (a : PtCode L σ)
  | brk
  | waitUntil (l : L) (e : Expression σ Bool)
  | restart
  | exit

/-- Statements one after the other. -/
def PtCode.block {L σ : Type*} (as : List (PtCode L σ)) : PtCode L σ := as.foldr .seq .skip

/-- An `if` without an `else`. -/
def PtCode.when {L σ : Type*} (e : Expression σ Bool) (as : List (PtCode L σ)) : PtCode L σ :=
  .cond e (block as) .skip

/-! ### The macros -/

section Macros

variable {L σ : Type*}

/-- `PT_WAITING` -/
def ptWaiting : ℤ := 0

/-- `PT_EXITED` -/
def ptExited : ℤ := 2

/-- `PT_ENDED` -/
def ptEnded : ℤ := 3

/-- An expression of the body, which does not touch the `struct pt`. -/
def onState {α : Type*} (e : Expression σ α) : Expression (PtState L σ) α :=
  fun s => ({ s with state := (e s.state).1 }, (e s.state).2)

/-- `LC_INIT`, which is also `PT_INIT`. -/
def lcInit : Stmt (Option L) (PtState L σ) := .exec (.does fun s => { s with lc := none })

/-- `LC_SET`, on the line `l`. -/
def lcSet (l : L) : Stmt (Option L) (PtState L σ) :=
  .seq (.exec (.does fun s => { s with lc := some l })) (.case (some l))

/-- `LC_RESUME` and `LC_END` around a body. -/
def lcResume (body : Stmt (Option L) (PtState L σ)) : Stmt (Option L) (PtState L σ) :=
  .switch (.reads PtState.lc) (.seq (.case none) body)

/-- The test of a wait: `if(!(condition)) return PT_WAITING;`. -/
def ptTest (e : Expression σ Bool) : Stmt (Option L) (PtState L σ) :=
  .cond (onState e).not (.ret ptWaiting) .skip

/-- `PT_WAIT_UNTIL` -/
def ptWaitUntil (l : L) (e : Expression σ Bool) : Stmt (Option L) (PtState L σ) :=
  .seq (lcSet l) (ptTest e)

/-- `PT_RESTART` -/
def ptRestart : Stmt (Option L) (PtState L σ) := .seq lcInit (.ret ptWaiting)

/-- `PT_EXIT` -/
def ptExit : Stmt (Option L) (PtState L σ) := .seq lcInit (.ret ptExited)

/-- What `PT_END` puts behind the end of the `switch`. -/
def ptEnd : Stmt (Option L) (PtState L σ) := .seq lcInit (.ret ptEnded)

/-- What the function returns when it returns at a jump. -/
def ptStatus : Jump L → Option ℤ
  | .wait _ | .restart => some ptWaiting
  | .exit => some ptExited
  | .finish => some ptEnded
  | .stuck => none

/-- A function with a body between `PT_BEGIN` and `PT_END`. -/
def ptThread (body : Stmt (Option L) (PtState L σ)) : Stmt (Option L) (PtState L σ) :=
  .seq (lcResume body) ptEnd

/-- The body as the compiler gets it. -/
def PtCode.expand : PtCode L σ → Stmt (Option L) (PtState L σ)
  | .skip => .skip
  | .exec e => .exec (onState e)
  | .seq a b => .seq a.expand b.expand
  | .cond e a b => .cond (onState e) a.expand b.expand
  | .loop a => .loop a.expand
  | .brk => .brk
  | .waitUntil l e => ptWaitUntil l e
  | .restart => ptRestart
  | .exit => ptExit

/-- A call of the C function, with the local continuation `lc` saved in its `struct pt`. -/
def PtCode.call [DecidableEq L] (t : PtCode L σ) (lc : Option L) (s : σ) :
    Part (Configuration (Option L) (PtState L σ)) :=
  (ptThread t.expand).call ⟨lc, s⟩

end Macros

/-! ### Reading a body as a blocking thread -/

/-- What remains of a body behind one of its statements. -/
inductive PtRest (L σ : Type*)
  | stop
  | seq (b : PtCode L σ) (k : PtRest L σ)
  | loop (a : PtCode L σ) (k : PtRest L σ)

section Blocks

variable {L σ : Type*}

namespace PtCode

/-- The lines of the waits. -/
def waits : PtCode L σ → List L
  | .seq a b | .cond _ a b => a.waits ++ b.waits
  | .loop a => a.waits
  | .waitUntil l _ => [l]
  | _ => []

/-- The end of the statement may be reached without a wait. -/
def quick : PtCode L σ → Bool
  | .skip | .exec _ | .loop _ => true
  | .seq a b => a.quick && b.quick
  | .cond _ a b => a.quick || b.quick
  | .brk | .waitUntil .. | .restart | .exit => false

/-- No loop can take a whole turn without a wait. -/
def Guarded : PtCode L σ → Prop
  | .seq a b | .cond _ a b => a.Guarded ∧ b.Guarded
  | .loop a => a.quick = false ∧ a.Guarded
  | _ => True

/-- Run to the next jump: through the statement, and from its end and from its `break` on as
given. -/
def toJump : PtCode L σ → (next out : σ → σ × Jump L) → σ → σ × Jump L
  | .skip, next, _ => next
  | .exec e, next, _ => fun s =>
      match e s with
      | (s', some _) => next s'
      | (s', none) => (s', .stuck)
  | .seq a b, next, out => a.toJump (b.toJump next out) out
  | .cond e a b, next, out => fun s =>
      match e s with
      | (s', some true) => a.toJump next out s'
      | (s', some false) => b.toJump next out s'
      | (s', none) => (s', .stuck)
  -- a turn without a wait is not followed
  | .loop a, next, _ => a.toJump (fun s => (s, .stuck)) next
  | .brk, _, out => out
  | .waitUntil l _, _, _ => fun s => (s, .wait l)
  | .restart, _, _ => fun s => (s, .restart)
  | .exit, _, _ => fun s => (s, .exit)

/-- A jump that saves no continuation is not at a wait. -/
theorem waits_of_rewound {t : PtCode L σ} {j : Jump L} (h : j.continuation = none) :
    ∀ l, j = .wait l → l ∈ t.waits := by
  rintro l rfl
  exact absurd h (by simp [Jump.continuation])

/-- From a statement that always waits on its way, what comes behind does not matter. -/
theorem toJump_of_not_quick {a : PtCode L σ} (h : a.quick = false)
    (next next' out : σ → σ × Jump L) : a.toJump next out = a.toJump next' out := by
  induction a generalizing next next' with
  | seq a b iha ihb =>
      rw [quick, Bool.and_eq_false_iff] at h
      rw [toJump, toJump]
      rcases h with h | h
      · exact iha h _ _
      · rw [ihb h next next']
  | cond e a b iha ihb =>
      rw [quick, Bool.or_eq_false_iff] at h
      rw [toJump, toJump, iha h.1 next next', ihb h.2 next next']
  | skip | exec | loop => exact absurd h (by simp [quick])
  | brk | waitUntil | restart | exit => rfl

end PtCode

namespace PtRest

/-- Run on to the next jump, from the end of a statement and from a `break` in it. -/
def toJumps : PtRest L σ → (σ → σ × Jump L) × (σ → σ × Jump L)
  | .stop => (fun s => (s, .finish), fun s => (s, .finish))
  | .seq b k => (b.toJump k.toJumps.1 k.toJumps.2, k.toJumps.2)
  | .loop a k => ((PtCode.loop a).toJump k.toJumps.1 k.toJumps.2, k.toJumps.1)

/-- Run on to the next jump. -/
def toJump (k : PtRest L σ) : σ → σ × Jump L := k.toJumps.1

/-- Run on to the next jump, from a `break`. -/
def breakToJump (k : PtRest L σ) : σ → σ × Jump L := k.toJumps.2

/-- What remains, as the compiler gets it. Behind the body comes what `PT_END` puts there. -/
def expand : PtRest L σ → Continuation (Option L) (PtState L σ)
  | .stop => .switch (.seq ptEnd .stop)
  | .seq b k => .seq b.expand k.expand
  | .loop a k => .loop a.expand k.expand

end PtRest

namespace PtCode

variable [DecidableEq L]

/-- The condition of the wait on the line `l`, and what remains behind it. -/
def find (l : L) : PtCode L σ → PtRest L σ → Option (Expression σ Bool × PtRest L σ)
  | .waitUntil l' e, k => if l = l' then some (e, k) else none
  | .seq a b, k => (find l a (.seq b k)).or (find l b k)
  | .cond _ a b, k => (find l a k).or (find l b k)
  | .loop a, k => find l a (.loop a k)
  | _, _ => none

/-- The body as a blocking thread. -/
def toProtothread (t : PtCode L σ) : Protothread L σ where
  entry := t.toJump PtRest.stop.toJump PtRest.stop.breakToJump
  guard l s :=
    match t.find l .stop with
    | some (e, _) => e s
    | none => (s, none)
  body l s :=
    match t.find l .stop with
    | some (_, k) => k.toJump s
    | none => (s, .stuck)

/-! ### Waits in the text -/

/-- What is found is a wait of the text. -/
theorem mem_waits_of_find {l : L} {a : PtCode L σ} {k : PtRest L σ}
    {r : Expression σ Bool × PtRest L σ} (h : a.find l k = some r) : l ∈ a.waits := by
  induction a generalizing k with
  | seq a b iha ihb | cond _ a b iha ihb =>
      rw [find, Option.or_eq_some_iff] at h
      rw [waits, List.mem_append]
      rcases h with h | ⟨-, h⟩
      · exact Or.inl (iha h)
      · exact Or.inr (ihb h)
  | loop a ih => exact ih h
  | waitUntil l' e =>
      rw [find] at h
      split at h
      · next heq => exact List.mem_singleton.mpr heq
      · exact absurd h (by simp)
  | skip | exec | brk | restart | exit => exact absurd h (by simp [find])

/-- A wait of the text is found. -/
theorem exists_find_of_mem {l : L} {a : PtCode L σ} (h : l ∈ a.waits) (k : PtRest L σ) :
    ∃ r, a.find l k = some r := by
  induction a generalizing k with
  | seq a b iha ihb | cond _ a b iha ihb =>
      rw [find]
      rw [waits, List.mem_append] at h
      rcases h with h | h
      · obtain ⟨r, hr⟩ := iha h _
        exact ⟨r, by rw [hr]; rfl⟩
      · obtain ⟨r, hr⟩ := ihb h k
        rw [hr]
        exact ⟨_, Option.or_some⟩
  | loop a ih => exact ih h _
  | waitUntil l' e => exact ⟨(e, k), if_pos (List.mem_singleton.mp h)⟩
  | skip | exec | brk | restart | exit => exact absurd h (by simp [waits])

/-- With one wait on each line, the second of two statements is searched although the first one
comes before it. -/
theorem find_right {l : L} {a b : PtCode L σ} (hnodup : (a.waits ++ b.waits).Nodup)
    {k : PtRest L σ} {r : Expression σ Bool × PtRest L σ} (h : b.find l k = some r)
    (k' : PtRest L σ) : (a.find l k').or (b.find l k) = some r := by
  cases hfirst : a.find l k' with
  | none => rw [Option.none_or, h]
  | some r' =>
      have hdisjoint := (List.nodup_append.mp hnodup).2.2
      exact absurd rfl (hdisjoint l (mem_waits_of_find hfirst) l (mem_waits_of_find h))

/-! ### Calls of the expanded code -/

/-- How a call of the function ends that returns at a jump. -/
def Ends (j : Jump L) (s : σ) (c : Configuration (Option L) (PtState L σ)) : Prop :=
  match ptStatus j with
  | some r => c = .returned r ⟨j.continuation, s⟩
  | none => ∃ lc, c = .undefined ⟨lc, s⟩

/-- Where the machine is in a phase of the blocking thread: before the test of the wait, with the
line of the wait saved, or at the end of the call. -/
def AtPhase (t : PtCode L σ) : Protothread.Phase L σ → Configuration (Option L) (PtState L σ) → Prop
  | .testing l s, c =>
      ∃ e k, t.find l .stop = some (e, k) ∧ c = .run (ptTest e) k.expand ⟨some l, s⟩
  | .returned j s, c => Ends j s c ∧ ∀ l, j = .wait l → l ∈ t.waits

/-- The machine runs on to where a jump leads. -/
def Leads (t : PtCode L σ) (c : Configuration (Option L) (PtState L σ)) (r : σ × Jump L) : Prop :=
  ∃ c', StateTransition.Reaches Stmt.step c c' ∧ t.AtPhase (.at r.2 r.1) c'

/-- The machine runs on from a continuation as the thread does from what remains. -/
structure Sound (t : PtCode L σ) (k : PtRest L σ) : Prop where
  next : ∀ lc s, t.Leads (.run .skip k.expand ⟨lc, s⟩) (k.toJump s)
  out : ∀ lc s, t.Leads (.run .brk k.expand ⟨lc, s⟩) (k.breakToJump s)

variable {t : PtCode L σ}

/-- One step on the way. -/
theorem Leads.step {c c' : Configuration (Option L) (PtState L σ)} {r : σ × Jump L}
    (h : t.Leads c' r) (hstep : Stmt.step c = some c') : t.Leads c r := by
  obtain ⟨c'', hreach, hphase⟩ := h
  exact ⟨c'', .head hstep hreach, hphase⟩

/-- A call that ends at once. -/
theorem Leads.of_ends {j : Jump L} {s : σ} {c : Configuration (Option L) (PtState L σ)}
    (hphase : t.AtPhase (.at j s) c) : t.Leads c (s, j) :=
  ⟨c, .refl, hphase⟩

/-- Behind the body stands `PT_END`. -/
theorem sound_stop (t : PtCode L σ) : t.Sound .stop where
  next lc s := by
    have hend : t.Leads (.returned ptEnded ⟨none, s⟩) (s, .finish) :=
      .of_ends ⟨rfl, waits_of_rewound rfl⟩
    exact ((((hend.step rfl).step rfl).step rfl).step rfl).step rfl |>.step rfl
  out lc s := by
    have hend : t.Leads (.returned ptEnded ⟨none, s⟩) (s, .finish) :=
      .of_ends ⟨rfl, waits_of_rewound rfl⟩
    exact ((((hend.step rfl).step rfl).step rfl).step rfl).step rfl |>.step rfl

/-- The statement is a part of the body, with what remains behind it: what is found in it is what
is found in the body. -/
def Within (t a : PtCode L σ) (k : PtRest L σ) : Prop :=
  ∀ l r, a.find l k = some r → t.find l .stop = some r

/-- The first of two statements is a part of the body. -/
theorem Within.left {a b : PtCode L σ} {k : PtRest L σ} (h : t.Within (.seq a b) k) :
    t.Within a (.seq b k) := by
  intro l r hfind
  exact h l r (by rw [find, hfind, Option.some_or])

/-- The second of two statements is a part of the body. -/
theorem Within.right {a b : PtCode L σ} {k : PtRest L σ} (h : t.Within (.seq a b) k)
    (hnodup : (a.waits ++ b.waits).Nodup) : t.Within b k := by
  intro l r hfind
  exact h l r (find_right hnodup hfind _)

/-- The branches of a part of the body are parts of the body. -/
theorem Within.branches {e : Expression σ Bool} {a b : PtCode L σ} {k : PtRest L σ}
    (h : t.Within (.cond e a b) k) (hnodup : (a.waits ++ b.waits).Nodup) :
    t.Within a k ∧ t.Within b k := by
  constructor
  · intro l r hfind
    exact h l r (by rw [find, hfind, Option.some_or])
  · intro l r hfind
    exact h l r (find_right hnodup hfind _)

/-- **The machine runs to the next jump as the thread does**, by induction on the statement: from
its end on it must, if the end can be reached without a wait, and from its `break` on. -/
theorem toJump_leads {a : PtCode L σ} {k : PtRest L σ} (hguarded : a.Guarded)
    (hnodup : a.waits.Nodup) (hwithin : t.Within a k)
    (hnext : a.quick = true → ∀ lc s, t.Leads (.run .skip k.expand ⟨lc, s⟩) (k.toJump s))
    (hout : ∀ lc s, t.Leads (.run .brk k.expand ⟨lc, s⟩) (k.breakToJump s))
    (lc : Option L) (s : σ) :
    t.Leads (.run a.expand k.expand ⟨lc, s⟩) (a.toJump k.toJump k.breakToJump s) := by
  induction a generalizing k lc s with
  | skip => exact hnext rfl lc s
  | exec e =>
      obtain ⟨⟨s', v⟩, he⟩ : ∃ r, e s = r := ⟨_, rfl⟩
      simp only [toJump, he]
      cases v with
      | none =>
          have hend : t.Leads (.undefined ⟨lc, s'⟩) (s', .stuck) :=
            .of_ends ⟨⟨lc, rfl⟩, waits_of_rewound rfl⟩
          exact hend.step (by simp only [expand, Stmt.step, onState, he])
      | some => exact (hnext rfl lc s').step (by simp only [expand, Stmt.step, onState, he])
  | seq a b iha ihb =>
      have ha := (List.nodup_append.mp hnodup).1
      have hb := (List.nodup_append.mp hnodup).2.1
      have hquick : a.quick = true → ∀ lc s,
          t.Leads (.run .skip (PtRest.seq b k).expand ⟨lc, s⟩) ((PtRest.seq b k).toJump s) := by
        intro hqa lc s
        refine (ihb hguarded.2 hb (hwithin.right hnodup) (fun hqb => hnext ?_) hout lc s).step rfl
        rw [quick, hqa, hqb, Bool.and_true]
      have hbreak : ∀ lc s, t.Leads (.run .brk (PtRest.seq b k).expand ⟨lc, s⟩)
          ((PtRest.seq b k).breakToJump s) := fun lc s => (hout lc s).step rfl
      exact (iha hguarded.1 ha hwithin.left hquick hbreak lc s).step rfl
  | cond e a b iha ihb =>
      obtain ⟨ha, hb⟩ := hwithin.branches hnodup
      have hnodupa := (List.nodup_append.mp hnodup).1
      have hnodupb := (List.nodup_append.mp hnodup).2.1
      have hnexta : a.quick = true → ∀ lc s, t.Leads (.run .skip k.expand ⟨lc, s⟩) (k.toJump s) :=
        fun hquick => hnext (by rw [quick, hquick, Bool.true_or])
      have hnextb : b.quick = true → ∀ lc s, t.Leads (.run .skip k.expand ⟨lc, s⟩) (k.toJump s) :=
        fun hquick => hnext (by rw [quick, hquick, Bool.or_true])
      obtain ⟨⟨s', v⟩, he⟩ : ∃ r, e s = r := ⟨_, rfl⟩
      simp only [toJump, he]
      rcases v with - | - | -
      · have hend : t.Leads (.undefined ⟨lc, s'⟩) (s', .stuck) :=
          .of_ends ⟨⟨lc, rfl⟩, waits_of_rewound rfl⟩
        exact hend.step (by simp only [expand, Stmt.step, onState, he])
      · have hbranch := ihb hguarded.2 hnodupb hb hnextb hout lc s'
        exact hbranch.step (by simp only [expand, Stmt.step, onState, he])
      · have hbranch := iha hguarded.1 hnodupa ha hnexta hout lc s'
        exact hbranch.step (by simp only [expand, Stmt.step, onState, he])
  | loop a ih =>
      have hbreak : ∀ lc s, t.Leads (.run .brk (PtRest.loop a k).expand ⟨lc, s⟩)
          ((PtRest.loop a k).breakToJump s) := fun lc s => (hnext rfl lc s).step rfl
      have hturn := ih hguarded.2 hnodup (k := .loop a k) hwithin
        (fun hquick => absurd hquick (by rw [hguarded.1]; exact Bool.false_ne_true)) hbreak lc s
      rw [toJump_of_not_quick hguarded.1 _ (fun s => (s, .stuck))] at hturn
      exact hturn.step rfl
  | brk => exact hout lc s
  | waitUntil l e =>
      have hfind : t.find l .stop = some (e, k) := hwithin l _ (by rw [find, if_pos rfl])
      have htest : t.Leads (.run (ptTest e) k.expand ⟨some l, s⟩) (s, .wait l) :=
        .of_ends ⟨e, k, hfind, rfl⟩
      exact ((((htest.step rfl).step rfl).step rfl).step rfl).step rfl |>.step rfl
  | restart =>
      have hret : t.Leads (.returned ptWaiting ⟨none, s⟩) (s, .restart) :=
        .of_ends ⟨rfl, waits_of_rewound rfl⟩
      exact (((hret.step rfl).step rfl).step rfl).step rfl
  | exit =>
      have hret : t.Leads (.returned ptExited ⟨none, s⟩) (s, .exit) :=
        .of_ends ⟨rfl, waits_of_rewound rfl⟩
      exact (((hret.step rfl).step rfl).step rfl).step rfl

/-- A sequence goes on soundly if its end does. -/
theorem Sound.seq {b : PtCode L σ} {k : PtRest L σ} (h : t.Sound k) (hguarded : b.Guarded)
    (hnodup : b.waits.Nodup) (hwithin : t.Within b k) : t.Sound (.seq b k) where
  next lc s := (toJump_leads hguarded hnodup hwithin (fun _ => h.next) h.out lc s).step rfl
  out lc s := (h.out lc s).step rfl

/-- A loop goes on soundly if what comes behind it does. -/
theorem Sound.loop {a : PtCode L σ} {k : PtRest L σ} (h : t.Sound k)
    (hguarded : (PtCode.loop a).Guarded) (hnodup : a.waits.Nodup)
    (hwithin : t.Within (.loop a) k) : t.Sound (.loop a k) where
  next lc s :=
    (toJump_leads (a := .loop a) hguarded hnodup hwithin (fun _ => h.next) h.out lc s).step rfl
  out lc s := (h.next lc s).step rfl

/-- In the expanded code there are labels for the waits of the body only. -/
theorem findCase_eq_none {l : L} {a : PtCode L σ} (h : l ∉ a.waits)
    (k : Continuation (Option L) (PtState L σ)) : Stmt.findCase (some l) a.expand k = none := by
  induction a generalizing k with
  | seq a b iha ihb | cond _ a b iha ihb =>
      rw [waits, List.mem_append, not_or] at h
      rw [expand, Stmt.findCase, iha h.1, ihb h.2]
      rfl
  | loop a ih => exact ih h _
  | waitUntil l' e =>
      have hne : some l ≠ some l' := fun heq => h (List.mem_singleton.mpr (Option.some.inj heq))
      simp only [expand, ptWaitUntil, lcSet, ptTest, Stmt.findCase, if_neg hne]
      rfl
  | skip | exec | brk | restart | exit => rfl

/-- The jump of `LC_RESUME` comes to the test of the wait that was found, and what remains
behind it is sound. -/
theorem find_resumes {l : L} {a : PtCode L σ} {k k' : PtRest L σ} {e : Expression σ Bool}
    (hguarded : a.Guarded) (hnodup : a.waits.Nodup) (hwithin : t.Within a k) (hsound : t.Sound k)
    (h : a.find l k = some (e, k')) :
    t.Sound k' ∧
      Stmt.findCase (some l) a.expand k.expand = some (.seq (ptTest e) k'.expand) := by
  induction a generalizing k with
  | seq a b iha ihb =>
      have ha := (List.nodup_append.mp hnodup).1
      have hb := (List.nodup_append.mp hnodup).2.1
      have hdisjoint := (List.nodup_append.mp hnodup).2.2
      have hright := hwithin.right hnodup
      rcases Option.or_eq_some_iff.mp h with h | ⟨-, h⟩
      · have hrest := hsound.seq hguarded.2 hb hright
        obtain ⟨hsound', hcase⟩ := iha hguarded.1 ha hwithin.left hrest h
        refine ⟨hsound', ?_⟩
        rw [PtRest.expand] at hcase
        rw [expand, Stmt.findCase, hcase, Option.some_or]
      · obtain ⟨hsound', hcase⟩ := ihb hguarded.2 hb hright hsound h
        have hnot : l ∉ a.waits := fun hmem => hdisjoint l hmem l (mem_waits_of_find h) rfl
        exact ⟨hsound', by rw [expand, Stmt.findCase, findCase_eq_none hnot, hcase, Option.none_or]⟩
  | cond e' a b iha ihb =>
      have ha := (List.nodup_append.mp hnodup).1
      have hb := (List.nodup_append.mp hnodup).2.1
      have hdisjoint := (List.nodup_append.mp hnodup).2.2
      obtain ⟨hleft, hright⟩ := hwithin.branches hnodup
      rcases Option.or_eq_some_iff.mp h with h | ⟨-, h⟩
      · obtain ⟨hsound', hcase⟩ := iha hguarded.1 ha hleft hsound h
        exact ⟨hsound', by rw [expand, Stmt.findCase, hcase, Option.some_or]⟩
      · obtain ⟨hsound', hcase⟩ := ihb hguarded.2 hb hright hsound h
        have hnot : l ∉ a.waits := fun hmem => hdisjoint l hmem l (mem_waits_of_find h) rfl
        exact ⟨hsound', by rw [expand, Stmt.findCase, findCase_eq_none hnot, hcase, Option.none_or]⟩
  | loop a ih =>
      exact ih hguarded.2 hnodup hwithin (hsound.loop hguarded hnodup hwithin) h
  | waitUntil l' e' =>
      rw [find] at h
      split at h
      · next heq =>
          obtain ⟨rfl, rfl⟩ := Prod.mk.inj (Option.some.inj h)
          subst heq
          refine ⟨hsound, ?_⟩
          simp only [expand, ptWaitUntil, lcSet, Stmt.findCase, if_pos]
          rfl
      · exact absurd h (by simp)
  | skip | exec | brk | restart | exit => exact absurd h (by simp [find])

/-- The test of a wait takes the machine to the next phase of the blocking thread. -/
theorem test_leads (hguarded : t.Guarded) (hnodup : t.waits.Nodup) {l : L} {s : σ}
    {c : Configuration (Option L) (PtState L σ)} (hphase : t.AtPhase (.testing l s) c) :
    ∃ a c', t.toProtothread.nextPhase (.testing l s) = some a ∧ t.AtPhase a c' ∧
      StateTransition.Reaches₁ Stmt.step c c' := by
  obtain ⟨e, k, hfind, rfl⟩ := hphase
  obtain ⟨hsound, -⟩ := find_resumes hguarded hnodup (fun _ _ h => h) (sound_stop t) hfind
  obtain ⟨⟨s', v⟩, he⟩ : ∃ r, e s = r := ⟨_, rfl⟩
  have hguard : t.toProtothread.guard l s = (s', v) := by
    simp only [toProtothread, hfind, he]
  rw [Protothread.nextPhase, hguard]
  rcases v with - | - | -
  · have hstep : Stmt.step (.run (ptTest e) k.expand ⟨some l, s⟩) =
        some (.undefined ⟨some l, s'⟩) := by
      simp only [ptTest, Stmt.step, Expression.not, onState, he, Option.map_none]
    exact ⟨_, _, rfl, ⟨⟨some l, rfl⟩, waits_of_rewound rfl⟩, Stmt.reaches₁_step hstep .refl⟩
  · have hstep : Stmt.step (.run (ptTest e) k.expand ⟨some l, s⟩) =
        some (.run (.ret ptWaiting) k.expand ⟨some l, s'⟩) := by
      simp only [ptTest, Stmt.step, Expression.not, onState, he, Option.map_some, Bool.not_false]
    refine ⟨_, _, rfl, ⟨rfl, ?_⟩, Stmt.reaches₁_step hstep (Stmt.reaches_step rfl .refl)⟩
    intro l' heq
    obtain rfl := Jump.wait.inj heq
    exact mem_waits_of_find hfind
  · have hstep : Stmt.step (.run (ptTest e) k.expand ⟨some l, s⟩) =
        some (.run .skip k.expand ⟨some l, s'⟩) := by
      simp only [ptTest, Stmt.step, Expression.not, onState, he, Option.map_some, Bool.not_true]
    have hbody : t.toProtothread.body l s' = k.toJump s' := by
      simp only [toProtothread, hfind]
    obtain ⟨c', hreach, hphase'⟩ := hsound.next (some l) s'
    rw [← hbody] at hphase'
    exact ⟨_, c', rfl, hphase', Stmt.reaches₁_step hstep hreach⟩

/-- The phases of the blocking thread and the positions of the machine go together. -/
theorem respects (hguarded : t.Guarded) (hnodup : t.waits.Nodup) :
    StateTransition.Respects t.toProtothread.nextPhase Stmt.step t.AtPhase := by
  intro a c hphase
  cases a with
  | testing l s =>
      obtain ⟨a', c', hnext, hphase', hreach⟩ := test_leads hguarded hnodup hphase
      rw [hnext]
      exact ⟨c', hphase', hreach⟩
  | returned j s =>
      obtain ⟨hends, -⟩ := hphase
      cases j with
      | stuck =>
          obtain ⟨lc, rfl⟩ := hends
          exact rfl
      | wait | restart | exit | finish =>
          obtain rfl := hends
          exact rfl

/-- A call comes to its first phase. -/
theorem call_enters (hguarded : t.Guarded) (hnodup : t.waits.Nodup) {lc : Option L}
    (hlc : ∀ l, lc = some l → l ∈ t.waits) (s : σ) :
    ∃ s₀ j₀ c₀, (∀ fuel, t.toProtothread.resume fuel lc s = t.toProtothread.follow fuel s₀ j₀) ∧
      t.AtPhase (.at j₀ s₀) c₀ ∧ t.call lc s = StateTransition.eval Stmt.step c₀ := by
  cases lc with
  | none =>
      obtain ⟨c₀, hreach, hphase⟩ := toJump_leads hguarded hnodup (t := t) (k := .stop)
        (fun _ _ h => h) (fun _ => (sound_stop t).next) (sound_stop t).out none s
      refine ⟨_, _, c₀, fun fuel => rfl, hphase, StateTransition.reaches_eval ?_⟩
      exact Stmt.reaches_step rfl (Stmt.reaches_step rfl (Stmt.reaches_step rfl hreach))
  | some l =>
      obtain ⟨⟨e, k⟩, hfind⟩ := exists_find_of_mem (hlc l rfl) .stop
      obtain ⟨-, hcase⟩ := find_resumes hguarded hnodup (fun _ _ h => h) (sound_stop t) hfind
      refine ⟨s, .wait l, .run (ptTest e) k.expand ⟨some l, s⟩, fun fuel => rfl,
        ⟨e, k, hfind, rfl⟩, StateTransition.reaches_eval ?_⟩
      have hjump : Stmt.step (.run (lcResume t.expand) (.seq ptEnd .stop) ⟨some l, s⟩) =
          some (.run .skip (.seq (ptTest e) k.expand) ⟨some l, s⟩) := by
        rw [PtRest.expand] at hcase
        simp [lcResume, Stmt.step, Expression.reads, Stmt.findCase, hcase]
      exact Stmt.reaches_step rfl (Stmt.reaches_step hjump (Stmt.reaches_step rfl .refl))

/-- Where the blocking thread returns, a call ends. -/
theorem exists_mem_call (hguarded : t.Guarded) (hnodup : t.waits.Nodup) {lc : Option L}
    (hlc : ∀ l, lc = some l → l ∈ t.waits) {fuel : ℕ} {s s' : σ} {j : Jump L}
    (h : t.toProtothread.resume fuel lc s = some (s', j)) : ∃ c ∈ t.call lc s, Ends j s' c := by
  obtain ⟨s₀, j₀, c₀, hresume, hphase, hcall⟩ := call_enters hguarded hnodup hlc s
  rw [hresume] at h
  obtain ⟨c, ⟨hends, -⟩, hc⟩ := StateTransition.tr_eval (respects hguarded hnodup) hphase
    (Protothread.mem_eval_of_follow h)
  rw [hcall]
  exact ⟨c, hc, hends⟩

end PtCode

/-- A body that the macros can handle: there is one wait on each line, and no loop can take a
whole turn without a wait. -/
structure PtThread (L σ : Type*) where
  code : PtCode L σ
  guarded : code.Guarded
  distinct : code.waits.Nodup

variable [DecidableEq L]

/-- The blocking thread that the body reads as. -/
def PtThread.blocking (t : PtThread L σ) : Protothread L σ := t.code.toProtothread

end Blocks

/-! ### What a text leaves alone -/

section Leaves

variable {L σ β : Type*} {f : σ → β}

/-- No expression of the text changes the part `f` of the state. -/
def PtCode.Leaves (f : σ → β) : PtCode L σ → Prop
  | .exec e => ∀ s, f (e s).1 = f s
  | .waitUntil _ e => ∀ s, f (e s).1 = f s
  | .seq a b => a.Leaves f ∧ b.Leaves f
  | .cond e a b => (∀ s, f (e s).1 = f s) ∧ a.Leaves f ∧ b.Leaves f
  | .loop a => a.Leaves f
  | .skip | .brk | .restart | .exit => True

/-- No expression of what remains changes the part `f` of the state. -/
def PtRest.Leaves (f : σ → β) : PtRest L σ → Prop
  | .stop => True
  | .seq b k => b.Leaves f ∧ k.Leaves f
  | .loop a k => a.Leaves f ∧ k.Leaves f

/-- Running to the next jump leaves it alone. -/
theorem PtCode.Leaves.toJump {a : PtCode L σ} (h : a.Leaves f) {next out : σ → σ × Jump L}
    (hnext : ∀ s, f (next s).1 = f s) (hout : ∀ s, f (out s).1 = f s) (s : σ) :
    f (a.toJump next out s).1 = f s := by
  induction a generalizing next out s with
  | skip => exact hnext s
  | brk => exact hout s
  | waitUntil | restart | exit => rfl
  | exec e =>
      have he := h s
      rw [PtCode.toJump]
      obtain ⟨⟨s', v⟩, heq⟩ : ∃ r, e s = r := ⟨_, rfl⟩
      simp only [heq] at he ⊢
      cases v with
      | none => exact he
      | some => exact (hnext s').trans he
  | seq a b iha ihb => exact iha h.1 (ihb h.2 hnext hout) hout s
  | cond e a b iha ihb =>
      have he := h.1 s
      rw [PtCode.toJump]
      obtain ⟨⟨s', v⟩, heq⟩ : ∃ r, e s = r := ⟨_, rfl⟩
      simp only [heq] at he ⊢
      rcases v with - | - | -
      · exact he
      · exact (ihb h.2.2 hnext hout s').trans he
      · exact (iha h.2.1 hnext hout s').trans he
  | loop a ih => exact ih h (fun _ => rfl) hnext s

/-- Running on to the next jump leaves it alone. -/
theorem PtRest.Leaves.toJumps {k : PtRest L σ} (h : k.Leaves f) :
    (∀ s, f (k.toJumps.1 s).1 = f s) ∧ ∀ s, f (k.toJumps.2 s).1 = f s := by
  induction k with
  | stop => exact ⟨fun _ => rfl, fun _ => rfl⟩
  | seq b k ih =>
      obtain ⟨hnext, hout⟩ := ih h.2
      exact ⟨h.1.toJump hnext hout, hout⟩
  | loop a k ih =>
      obtain ⟨hnext, hout⟩ := ih h.2
      exact ⟨h.1.toJump (fun _ => rfl) hnext, hnext⟩

variable [DecidableEq L]

/-- A wait that is found leaves it alone, and so does what remains behind it. -/
theorem PtCode.Leaves.find {l : L} {a : PtCode L σ} {k k' : PtRest L σ} {e : Expression σ Bool}
    (ha : a.Leaves f) (hk : k.Leaves f) (h : a.find l k = some (e, k')) :
    (∀ s, f (e s).1 = f s) ∧ k'.Leaves f := by
  induction a generalizing k with
  | seq a b iha ihb =>
      rcases Option.or_eq_some_iff.mp h with h | ⟨-, h⟩
      · exact iha (k := .seq b k) ha.1 ⟨ha.2, hk⟩ h
      · exact ihb ha.2 hk h
  | cond e' a b iha ihb =>
      rcases Option.or_eq_some_iff.mp h with h | ⟨-, h⟩
      · exact iha ha.2.1 hk h
      · exact ihb ha.2.2 hk h
  | loop a ih => exact ih (k := .loop a k) ha ⟨ha, hk⟩ h
  | waitUntil l' e' =>
      rw [PtCode.find] at h
      split at h
      · obtain ⟨rfl, rfl⟩ := Prod.mk.inj (Option.some.inj h)
        exact ⟨ha, hk⟩
      · exact absurd h (by simp)
  | skip | exec | brk | restart | exit => exact absurd h (by simp [PtCode.find])

/-- **The frame of a text.** What no expression of it changes, no call of it changes. -/
theorem PtThread.leaves (t : PtThread L σ) (h : t.code.Leaves f) {fuel : ℕ} {lc : Option L}
    {s s' : σ} {j : Jump L} (hresume : t.blocking.resume fuel lc s = some (s', j)) :
    f s' = f s := by
  have hstop : (PtRest.stop : PtRest L σ).Leaves f := trivial
  have hkeeps : t.blocking.Keeps fun _ s₁ => f s₁ = f s := by
    refine Protothread.Keeps.of_tests ?_ ?_ (fun _ _ _ _ h => h)
    · intro l s₁ hs₁
      cases hfind : t.code.find l .stop with
      | none => simpa only [PtThread.blocking, PtCode.toProtothread, hfind] using hs₁
      | some r =>
          obtain ⟨e, k⟩ := r
          obtain ⟨he, -⟩ := h.find hstop hfind
          simpa only [PtThread.blocking, PtCode.toProtothread, hfind, he] using hs₁
    · intro l s₁ hs₁
      cases hfind : t.code.find l .stop with
      | none => simpa only [PtThread.blocking, PtCode.toProtothread, hfind] using hs₁
      | some r =>
          obtain ⟨e, k⟩ := r
          obtain ⟨-, hk⟩ := h.find hstop hfind
          simpa only [PtThread.blocking, PtCode.toProtothread, hfind, PtRest.toJump,
            hk.toJumps.1] using hs₁
  refine hkeeps.resume (fun _ => ?_) (fun _ _ => rfl) hresume
  exact h.toJump hstop.toJumps.1 hstop.toJumps.2 s

end Leaves

end SmartCO2
