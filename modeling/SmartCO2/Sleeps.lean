import SmartCO2.Library.Lifetime
import SmartCO2.Library.MachineInt
import SmartCO2.Pass

/-!
# The Sleeps of the Connection Thread

The seven `PT_SLEEP` statements of `nodeConnectThread` measure from one base, `_app.then`. It
is set by `app_init`, when a `PT_SLEEP(10000)` has passed, and before a search; the thread of
`SCD41.c` sets its base before every sleep. Even where the base is set on the way to a sleep,
the log line and the calls of OpenThread in between take their time.

## Main results

* `nodeBody_base`: a block sets the base to the clock, or leaves it alone.
* `nodeAge`: the base is not in the future, and old at the waits that are reached late.
* `aged_sleep_passes`: the sleeps after the answer to a search never wait.
* `retry_round`: a round of the retries of `mdns_init` may take no time.
* `inLifetime_run`: every run of the firmware is part of a lifetime of the thread.
* `sleeps_full_iff`: every sleep lasts its time exactly if none is tested in the window between
  its time from the base and its time from where it was reached.
-/

namespace SmartCO2

/-! ### Sleeps and the clock -/

/-- The length of the `PT_SLEEP` that a wait is, in ms. -/
def NodeWait.sleep : NodeWait → Option UInt64
  | .connectSleep => some 10000
  | .mdnsReady | .answer => none
  | .mdnsRetrySleep | .mdnsInitSleep | .searchSleep | .launchSleep | .answerSleep
  | .resultSleep => some 1000

/-- The waits with a length are the sleeps. -/
theorem nodeGuard_of_sleep {l : NodeWait} {x : UInt64} (h : l.sleep = some x) (w : World) :
    nodeGuard l w = nodeSleep l x w := by
  cases l with
  | mdnsReady | answer => exact absurd h (by simp [NodeWait.sleep])
  | _ =>
      obtain rfl := Option.some.inj h
      rfl

/-- What happens between the calls of the thread leaves its base alone. -/
def KeepsThen (w w' : World) : Prop := w'.app.thenTime = w.app.thenTime

/-- The clock in a state. -/
def World.time (w : World) : ℕ := w.clock.now.toNat

/-- The base of the sleeps in a state. -/
def World.base (w : World) : ℕ := w.app.thenTime.toNat

/-- The clock at the last moment; before the first one, that of `app_init`. -/
def lastTime (now : UInt32) : List (Moment NodeWait World) → ℕ
  | [] => now.toNat
  | m :: _ => m.state.time

/-- The clock has not gone back to this moment: neither from the moment before nor, where a wait
is reached, from the reading that the base holds, which may have been made on the way. -/
def ForwardTo (now : UInt32) :
    Moment NodeWait World → List (Moment NodeWait World) → Prop
  | .reached _ w, earlier => lastTime now earlier ≤ w.time ∧ w.base ≤ w.time
  | .tested _ w _, earlier => lastTime now earlier ≤ w.time

instance (now : UInt32) :
    ∀ m earlier, Decidable (ForwardTo now m earlier)
  | .reached _ _, _ => inferInstanceAs (Decidable (_ ∧ _))
  | .tested _ _ _, _ => inferInstanceAs (Decidable (_ ≤ _))

/-- The counter of the clock does not wrap. -/
def ClockForward (now : UInt32) (tr : List (Moment NodeWait World)) : Prop :=
  Always (ForwardTo now) tr

instance (now : UInt32) (tr : List (Moment NodeWait World)) : Decidable (ClockForward now tr) :=
  decidableAlways (ForwardTo now) tr

/-- What goes on before the end of a block is recorded leaves the base alone too. -/
theorem KeepsThen.of_later {w w' : World} (h : Relation.ReflGen KeepsThen w w') :
    KeepsThen w w' := by
  cases h with
  | refl => rfl
  | single hstep => exact hstep

/-! ### One test -/

/-- A test leaves the base alone. -/
theorem nodeGuard_base {l : NodeWait} {w w' : World} {b : Option Bool}
    (h : nodeGuard l w = (w', b)) : w'.app.thenTime = w.app.thenTime := by
  obtain ⟨clock, notes, heq, -⟩ := nodeGuard_eq l w
  have hw' : w' = (nodeGuard l w).1 := (congrArg Prod.fst h).symm
  rw [hw', heq]

/-- A sleep whose base is not in the future is passed once the clock is its length past the
base. -/
theorem nodeSleep_passed_iff {l : NodeWait} {x : UInt64} {w w' : World} {b : Bool}
    (hsleep : l.sleep = some x) (hguard : nodeGuard l w = (w', some b))
    (hbase : w'.base ≤ w'.time) : b = true ↔ w'.base + x.toNat ≤ w'.time := by
  have hb : b = decide (x ≤ w'.clock.now.toUInt64 - w'.app.thenTime) := by
    rw [nodeGuard_of_sleep hsleep] at hguard
    obtain ⟨rfl, hb⟩ := Prod.mk.inj hguard
    exact (Option.some.inj hb).symm
  have hle : w'.app.thenTime.toNat ≤ w'.clock.now.toUInt64.toNat := by
    rwa [UInt32.toNat_toUInt64]
  rw [hb, decide_eq_true_iff, le_elapsed_iff hle, UInt32.toNat_toUInt64]
  rfl

/-! ### One block -/

/-- The waits that are only reached 1000 ms or more after the base was set. -/
def NodeWait.aged : NodeWait → Bool
  | .mdnsReady | .answer | .answerSleep | .resultSleep => true
  | _ => false

section Blocks

variable (p : Platform) (inp : PassInput)

/-- The connection test leaves the base and the clock alone, and leads to a wait before the
search. -/
theorem nodeWaitConnected_base (w : World) :
    (nodeWaitConnected p inp w).1.app.thenTime = w.app.thenTime ∧
      (nodeWaitConnected p inp w).1.clock = w.clock ∧
      ∃ l, (nodeWaitConnected p inp w).2 = .wait l ∧ l.aged = false := by
  rw [nodeWaitConnected]
  split
  · rw [nodeInitMdns]
    split
    · exact ⟨rfl, rfl, .searchSleep, rfl, rfl⟩
    · refine ⟨rfl, rfl, ?_⟩
      simp only
      split
      · exact ⟨.mdnsRetrySleep, rfl, rfl⟩
      · exact ⟨.mdnsInitSleep, rfl, rfl⟩
  · exact ⟨rfl, rfl, .connectSleep, rfl, rfl⟩

/-- A block sets the base, and leads to a wait that does not need an old one. -/
def SetsBase (w : World) (j : Jump NodeWait) : Prop :=
  w.base = w.time ∧ ∃ l, j = .wait l ∧ l.aged = false

/-- A block after the wait `l` leaves the base alone, and if it leads to a wait that needs an
old base, the base was old before, or the wait was a sleep that has made it old. -/
def LeavesBase (l : NodeWait) (w w' : World) (j : Jump NodeWait) : Prop :=
  w'.base = w.base ∧ ∀ l', j = .wait l' → l'.aged = true → l.aged = true ∨ l.sleep = some 1000

/-- The search sets the base just before it is launched. -/
theorem nodeSearch_base {w : World} (hdefined : (nodeSearch inp w).2 ≠ .stuck) :
    SetsBase (nodeSearch inp w).1 (nodeSearch inp w).2 ∨
      LeavesBase .searchSleep w (nodeSearch inp w).1 (nodeSearch inp w).2 := by
  obtain ⟨clock, htick⟩ :=
    World.tick_eq { w with mem := (w.mem.setBool .app false).setError .app .none }
  rw [nodeSearch] at hdefined ⊢
  split
  · exact Or.inr ⟨rfl, fun l' hl' => absurd hl' (by simp [nodeEnd])⟩
  · next hdone =>
      rw [if_neg hdone] at hdefined
      simp only [World.now, htick] at hdefined ⊢
      split at hdefined
      · exact absurd rfl hdefined
      · refine Or.inl ⟨?_, .launchSleep, rfl, rfl⟩
        split <;> exact UInt32.toNat_toUInt64 _

/-- **What a block does to the base**: it sets it to the clock, or leaves it alone. -/
theorem nodeBody_base {l : NodeWait} {w : World} (hdefined : (nodeBody p inp l w).2 ≠ .stuck) :
    SetsBase (nodeBody p inp l w).1 (nodeBody p inp l w).2 ∨
      LeavesBase l w (nodeBody p inp l w).1 (nodeBody p inp l w).2 := by
  cases l with
  | connectSleep =>
      obtain ⟨hthen, hclock, l, hj, haged⟩ := nodeWaitConnected_base p inp
        { w.tick with app.thenTime := w.tick.clock.now.toUInt64 }
      refine Or.inl ⟨?_, l, hj, haged⟩
      simp only [nodeBody, World.now, World.base, World.time, hthen, hclock]
      exact UInt32.toNat_toUInt64 _
  | searchSleep => exact nodeSearch_base inp hdefined
  | resultSleep =>
      have hleaves : (nodeInitCoap p inp w).1.base = w.base := by
        rw [nodeInitCoap]
        split
        · rfl
        · simp only
          split <;> rfl
      rw [nodeBody]
      split
      · exact Or.inr ⟨rfl, fun l' hl' => absurd hl' (by simp)⟩
      · refine Or.inr ⟨hleaves, fun l' hl' => ?_⟩
        exact absurd hl' (nodeInitCoap_not_wait w l')
  | mdnsRetrySleep => exact Or.inr ⟨rfl, fun l' hl' => absurd hl' (by simp [nodeBody])⟩
  -- the base is old already
  | mdnsReady | answer | answerSleep => exact Or.inr ⟨rfl, fun l' hl' haged => Or.inl rfl⟩
  -- the sleep has made it old
  | mdnsInitSleep | launchSleep => exact Or.inr ⟨rfl, fun l' hl' haged => Or.inr rfl⟩

end Blocks

/-! ### The age of the base -/

/-- What is known of the base where a lifetime has got to: it is not in the future, and it is
old at the waits that need it so. -/
structure NodeAge (now : UInt32) (tr : List (Moment NodeWait World)) (j : Jump NodeWait)
    (w : World) : Prop where
  past : j ≠ .stuck → w.base ≤ lastTime now tr
  aged : ∀ l, j = .wait l → l.aged = true → w.base + 1000 ≤ lastTime now tr

namespace NodeAge

variable {p : Platform} {inp : PassInput} {now : UInt32} {tr : List (Moment NodeWait World)}
  {l : NodeWait} {j : Jump NodeWait} {w w' w'' : World}

/-- Only the base matters. -/
theorem elsewhere (h : NodeAge now tr j w) (hbase : w'.base = w.base) : NodeAge now tr j w' where
  past hj := hbase ▸ h.past hj
  aged l hj hl := hbase ▸ h.aged l hj hl

/-- The base at an arrival is a reading of the clock before it. An old base gets no younger. -/
theorem arrive (hforward : ClockForward now (j.arrival w ++ tr))
    (hpast : j.continuation = none → j ≠ .stuck → w.base ≤ lastTime now tr)
    (haged : ∀ l, j = .wait l → l.aged = true → w.base + 1000 ≤ lastTime now tr) :
    NodeAge now (j.arrival w ++ tr) j w := by
  cases j with
  | wait l =>
      obtain ⟨hclock, hbase⟩ := hforward.1
      refine ⟨fun _ => hbase, fun l' hj hl' => ?_⟩
      exact (haged l' hj hl').trans hclock
  | restart | exit | finish | stuck => exact ⟨hpast rfl, haged⟩

/-- The thread begins with whatever base there is. -/
theorem enter
    (hforward : ClockForward now ((nodeWaitConnected p inp w).2.arrival w' ++ tr)) :
    NodeAge now ((nodeWaitConnected p inp w).2.arrival w' ++ tr)
      (nodeWaitConnected p inp w).2 w' := by
  obtain ⟨-, -, l, hj, haged⟩ := nodeWaitConnected_base p inp w
  refine arrive hforward (fun hnone => ?_) (fun l' hj' haged' => ?_)
  · rw [hj] at hnone
    exact absurd hnone (by simp [Jump.continuation])
  · obtain rfl : l = l' := Jump.wait.inj (hj.symm.trans hj')
    exact absurd haged' (by simp [haged])

/-- At a test the base is not in the future. -/
theorem base_le (h : NodeAge now tr (.wait l) w) {b : Option Bool}
    (hguard : nodeGuard l w = (w', b)) (hclock : lastTime now tr ≤ w'.time) :
    w'.base ≤ w'.time := by
  have hbase : w'.base = w.base := congrArg UInt64.toNat (nodeGuard_base hguard)
  have hpast := h.past (by simp)
  omega

/-- A test takes time and nothing else. -/
theorem tested (h : NodeAge now tr (.wait l) w) {b : Bool}
    (hguard : nodeGuard l w = (w', some b)) (hclock : lastTime now tr ≤ w'.time) :
    NodeAge now (.tested l w' b :: tr) (.wait l) w' := by
  have hbase : w'.base = w.base := congrArg UInt64.toNat (nodeGuard_base hguard)
  refine ⟨fun _ => h.base_le hguard hclock, fun l' hj haged => ?_⟩
  rw [hbase]
  exact (h.aged l' hj haged).trans hclock

/-- A passed wait leads on with a new base, or with a base as old as before. -/
theorem passed (h : NodeAge now tr (.wait l) w)
    (hguard : nodeGuard l w = (w', some true)) (hclock : lastTime now tr ≤ w'.time)
    (hlater : Relation.ReflGen KeepsThen (nodeBody p inp l w').1 w'')
    (hforward : ClockForward now ((nodeBody p inp l w').2.arrival w'' ++
      .tested l w' true :: tr)) :
    NodeAge now ((nodeBody p inp l w').2.arrival w'' ++ .tested l w' true :: tr)
      (nodeBody p inp l w').2 w'' := by
  have htested := h.tested hguard hclock
  have hkept : w''.base = (nodeBody p inp l w').1.base :=
    congrArg UInt64.toNat (KeepsThen.of_later hlater)
  by_cases hstuck : (nodeBody p inp l w').2 = .stuck
  · rw [hstuck]
    exact ⟨fun hne => absurd rfl hne, by simp⟩
  · rcases nodeBody_base p inp hstuck with ⟨-, l', hj, haged⟩ | ⟨hleaves, hnext⟩
    · refine arrive hforward (fun hnone => ?_) (fun l'' hj' haged' => ?_)
      · rw [hj] at hnone
        exact absurd hnone (by simp [Jump.continuation])
      · obtain rfl : l' = l'' := Jump.wait.inj (hj.symm.trans hj')
        exact absurd haged' (by simp [haged])
    · have hsame : w''.base = w'.base := hkept.trans hleaves
      refine arrive hforward (fun _ _ => ?_) (fun l' hj haged => ?_)
      · rw [hsame]
        exact htested.past (by simp)
      · rw [hsame]
        rcases hnext l' hj haged with hold | hslept
        · exact htested.aged l rfl hold
        · exact (nodeSleep_passed_iff hslept hguard (h.base_le hguard hclock)).mp rfl

end NodeAge

section Lifetimes

variable {p : Platform} {now : UInt32} {tr : List (Moment NodeWait World)} {j : Jump NodeWait}
  {w : World}

/-- **The age of the base** throughout a lifetime of the thread whose clock does not wrap. -/
theorem nodeAge (h : Lifetime (nodeConnectThread p) KeepsThen (boot now) tr j w)
    (hforward : ClockForward now tr) : NodeAge now tr j w := by
  induction h with
  | start =>
      have hbase : (boot now).base = now.toNat := UInt32.toNat_toUInt64 now
      exact ⟨fun _ => hbase.le, by simp⟩
  | enter i _ _ _ _ _ => exact .enter hforward
  | blocked i _ hguard ih => exact (ih hforward.2).tested hguard hforward.1
  | passed i _ hguard hlater ih =>
      have hbefore := (always_arrival.mp hforward).2
      exact (ih hbefore.2).passed hguard hbefore.1 hlater hforward
  | undefined => exact ⟨fun hne => absurd rfl hne, by simp⟩
  | elsewhere _ henv ih => exact (ih hforward).elsewhere (congrArg UInt64.toNat henv)

/-- Whatever holds of every arrival, and of every test made with a base of the known age, holds
always. -/
theorem always_of_tests {P : Moment NodeWait World → List (Moment NodeWait World) → Prop}
    (hreached : ∀ l w tr, P (.reached l w) tr)
    (htested : ∀ l w w' b tr, NodeAge now tr (.wait l) w → (lastReached tr).isSome →
      nodeGuard l w = (w', some b) → lastTime now tr ≤ w'.time → P (.tested l w' b) tr)
    (h : Lifetime (nodeConnectThread p) KeepsThen (boot now) tr j w)
    (hforward : ClockForward now tr) : Always P tr := by
  induction h with
  | start => trivial
  | enter i _ _ _ _ ih =>
      have hbefore := (always_arrival.mp hforward).2
      exact always_arrival.mpr ⟨fun l _ => hreached l _ _, ih hbefore⟩
  | blocked i h hguard ih =>
      have hage := nodeAge h hforward.2
      have hreached := h.lastReached_isSome rfl
      exact ⟨htested _ _ _ _ _ hage hreached hguard hforward.1, ih hforward.2⟩
  | passed i h hguard _ ih =>
      have hbefore := (always_arrival.mp hforward).2
      have hage := nodeAge h hbefore.2
      refine always_arrival.mpr ⟨fun l _ => hreached l _ _, ?_, ih hbefore.2⟩
      exact htested _ _ _ _ _ hage (h.lastReached_isSome rfl) hguard hbefore.1
  | undefined _ _ _ ih => exact ih hforward
  | elsewhere _ _ ih => exact ih hforward

end Lifetimes

/-! ### Which sleeps last their time -/

/-- A sleep that is passed has lasted its time since it was reached. -/
def SleepsFully : Moment NodeWait World → List (Moment NodeWait World) → Prop
  | .tested l w true, earlier => ∀ x, l.sleep = some x →
      ∃ w₀, lastReached earlier = some w₀ ∧ w₀.time + x.toNat ≤ w.time
  | _, _ => True

/-- No sleep is tested once its time has passed since the base, but not yet since the sleep was
reached. -/
def MissesWindow : Moment NodeWait World → List (Moment NodeWait World) → Prop
  | .tested l w _, earlier => ∀ x w₀, l.sleep = some x → lastReached earlier = some w₀ →
      ¬ (w.base + x.toNat ≤ w.time ∧ w.time < w₀.time + x.toNat)
  | .reached _ _, _ => True

section Sleeps

variable {p : Platform} {now : UInt32} {tr : List (Moment NodeWait World)} {j : Jump NodeWait}
  {w w' : World} {l : NodeWait} {b : Bool}

/-- A sleep is passed by the tests that are late enough after the base. -/
theorem passed_iff (h : NodeAge now tr (.wait l) w) (hguard : nodeGuard l w = (w', some b))
    (hclock : lastTime now tr ≤ w'.time) {x : UInt64} (hsleep : l.sleep = some x) :
    b = true ↔ w'.base + x.toNat ≤ w'.time :=
  nodeSleep_passed_iff hsleep hguard (h.base_le hguard hclock)

/-- A test in the window is passed too early, and no other one. -/
theorem test_full_iff (h : NodeAge now tr (.wait l) w) (hreached : (lastReached tr).isSome)
    (hguard : nodeGuard l w = (w', some b)) (hclock : lastTime now tr ≤ w'.time) :
    SleepsFully (.tested l w' b) tr ↔ MissesWindow (.tested l w' b) tr := by
  constructor
  · rintro hfull x w₀ hsleep hw₀ ⟨hfrom, hbefore⟩
    obtain rfl := (passed_iff h hguard hclock hsleep).mpr hfrom
    obtain ⟨w₁, hw₁, hlasted⟩ := hfull x hsleep
    obtain rfl := Option.some.inj (hw₀.symm.trans hw₁)
    omega
  · intro hmisses
    cases b with
    | false => trivial
    | true =>
        intro x hsleep
        obtain ⟨w₀, hw₀⟩ := Option.isSome_iff_exists.mp hreached
        have hfrom := (passed_iff h hguard hclock hsleep).mp rfl
        refine ⟨w₀, hw₀, ?_⟩
        by_contra hshort
        exact hmisses x w₀ hsleep hw₀ ⟨hfrom, by omega⟩

/-- The two sleeps after the wait for an answer never wait: they are passed when they are tested
first. -/
theorem aged_sleep_passes (h : Lifetime (nodeConnectThread p) KeepsThen (boot now) tr j w)
    (hforward : ClockForward now tr) :
    Always (fun m _ => ∀ l w b, m = .tested l w b → l.aged = true → l.sleep = some 1000 →
      b = true) tr := by
  refine always_of_tests (fun _ _ _ _ _ _ heq => absurd heq (by simp)) ?_ h hforward
  intro l w w' b tr hage _ hguard hclock l₁ w₁ b₁ heq haged hsleep
  obtain ⟨rfl, rfl, rfl⟩ := Moment.tested.inj heq
  have hold := (hage.tested hguard hclock).aged l rfl haged
  exact (passed_iff hage hguard hclock hsleep).mpr hold

/-- Without a client, and with a name that is too long for one, the thread gets to the sleep
before its retry. -/
theorem nodeWaitConnected_retry {w : World} (inp : PassInput)
    (hname : serviceMaxLen ≤ p.serviceName.length) (hconnected : w.app.connected = true)
    (hmdns : w.app.mdns = .null) : ∃ w₀,
      nodeWaitConnected p inp w = (w₀, .wait .mdnsRetrySleep) ∧ w₀.app = w.app ∧
        w₀.clock = w.clock := by
  have hinit : (mdnsInit w.dns p.serviceName inp.autostarts).1 = .null := by
    rw [mdnsInit, if_pos hname]
  have hnote : (w.note .seenConnected).app.mdns = .null := hmdns
  rw [nodeWaitConnected, if_pos hconnected, nodeInitMdns, hnote]
  refine ⟨_, Prod.ext rfl ?_, ?_, rfl⟩
  · simp only [World.note, hinit]
  · simp only [World.note, hinit]
    rw [← hmdns]

/-- **Retries.** Where `mdns_init` fails for the length of its name, a thread that begins anew
with a base 1000 ms old can fail, pass its sleep and be rewound again without any time between,
the same again being possible from there. -/
theorem retry_round (h : Lifetime (nodeConnectThread p) KeepsThen (boot now) tr j w)
    (hbegin : j.continuation = none) (hdefined : j ≠ .stuck)
    (hname : serviceMaxLen ≤ p.serviceName.length) (hconnected : w.app.connected = true)
    (hmdns : w.app.mdns = .null) (hahead : w.clock.ahead = [])
    (hold : w.base + 1000 ≤ w.time) : ∃ w₀ w',
      Lifetime (nodeConnectThread p) KeepsThen (boot now)
        (.tested .mdnsRetrySleep w' true :: .reached .mdnsRetrySleep w₀ :: tr) .restart w' ∧
      w₀.clock = w.clock ∧ w₀.app = w.app ∧ w'.clock = w.clock ∧ w'.app = w.app := by
  obtain ⟨w₀, hentry, happ, hclock⟩ :=
    nodeWaitConnected_retry measuring hname hconnected hmdns
  have hentry' : (nodeConnectThread p measuring).entry w = (w₀, .wait .mdnsRetrySleep) := hentry
  have hentered := h.enter measuring hbegin hdefined .refl
  rw [hentry'] at hentered
  obtain ⟨w', b, hguard⟩ : ∃ w' b, nodeGuard .mdnsRetrySleep w₀ = (w', some b) := ⟨_, _, rfl⟩
  have hw' : w'.app = w₀.app ∧ w'.clock = w₀.clock := by
    have htick : w₀.tick = w₀ := World.tick_of_ahead_nil (hclock ▸ hahead)
    obtain rfl := (Prod.mk.inj hguard).1
    rw [htick]
    exact ⟨rfl, rfl⟩
  have htime : w'.time = w.time := by rw [World.time, World.time, hw'.2, hclock]
  have hbase : w'.base = w.base := by rw [World.base, World.base, hw'.1, happ]
  have hlength : (1000 : UInt64).toNat = 1000 := rfl
  obtain rfl : b = true := (nodeSleep_passed_iff rfl hguard (by omega)).mpr (by omega)
  exact ⟨w₀, w', hentered.passed measuring hguard .refl, hclock, happ,
    hw'.2.trans hclock, hw'.1.trans happ⟩

end Sleeps

/-! ### In the firmware -/

/-- A lifetime of the connection thread has got to where the thread is suspended. -/
def InLifetime (p : Platform) (now : UInt32) (w : World) : Prop :=
  ∃ tr j, Lifetime (nodeConnectThread p) KeepsThen (boot now) tr j w ∧
    j.continuation = w.app.pThread1 ∧ (j = .stuck → w.fault = true)

/-- The connection thread and its base are left alone. -/
def LeavesNode (w w' : World) : Prop :=
  w'.app.pThread1 = w.app.pThread1 ∧ KeepsThen w w'

namespace InLifetime

variable {p : Platform} {inp : PassInput} {now : UInt32} {w w' : World}

/-- What goes on elsewhere. -/
theorem leaves (h : InLifetime p now w) (hleaves : LeavesNode w w')
    (hfault : w.fault = true → w'.fault = true) : InLifetime p now w' := by
  obtain ⟨tr, j, hlife, hcont, hstuck⟩ := h
  exact ⟨tr, j, hlife.elsewhere hleaves.2, hcont.trans hleaves.1.symm,
    fun hj => hfault (hstuck hj)⟩

/-- A call of thread 1 prolongs the lifetime. -/
theorem runNode (h : InLifetime p now w) (hfault : w.fault = false)
    (hrun : runNode p inp w = some w') : InLifetime p now w' := by
  rcases runNode_cases hrun with ⟨-, rfl⟩ | ⟨-, w₁, j', hresume, rfl⟩
  · exact h
  · obtain ⟨tr, j, hlife, hcont, hstuck⟩ := h
    have hdefined : j ≠ .stuck := fun hj => absurd (hstuck hj) (by simp [hfault])
    rw [← hcont] at hresume
    obtain ⟨tr', hlife'⟩ := hlife.resume hdefined hresume
    exact ⟨tr', j', hlife'.elsewhere rfl, rfl, fun hj => by simp [hj]⟩

end InLifetime

/-- **Calls in runs**: every call of the connection thread in a run of the firmware prolongs
one lifetime of it. -/
theorem inLifetime_runRule (p : Platform) (now : UInt32) :
    RunRule p (fun _ _ => True) (InLifetime p now) where
  idle _ _ _ _ _ h := h.leaves ⟨rfl, rfl⟩ id
  node hfault h hrun := h.runNode hfault hrun
  sensor _ h hrun := by
    rcases runSensor_cases hrun with ⟨-, rfl⟩ | ⟨-, w₁, j, hresume, rfl⟩
    · exact h
    · obtain ⟨_, _, _, _, _, _, _, _, rfl, -⟩ := scd41UpdateValueThread_frame hresume
      exact h.leaves ⟨rfl, rfl⟩ id
  sender hfault h hrun := by
    rcases runSender_cases hrun with ⟨-, rfl⟩ | ⟨-, -, w₁, j, hresume, rfl⟩
    · exact h
    · obtain ⟨_, _, _, _, _, _, _, _, _, _, _, rfl⟩ := coapSendingProcess_frame hresume
      exact h.leaves ⟨rfl, rfl⟩ (by simp [hfault])
  role changed role _ h := by
    rw [handleNetifStateChanged.eq_def]
    split
    · cases role <;> exact h.leaves ⟨rfl, rfl⟩ id
    · exact h
  autostart _ _ h := h.leaves ⟨rfl, rfl⟩ id
  browse error response stack hfault _ h := by
    rw [browseCallback]
    split <;> exact h.leaves ⟨rfl, rfl⟩ (by simp [hfault])
  request error response hfault _ _ h := by
    rw [requestCallback]
    split <;> exact h.leaves ⟨rfl, rfl⟩ (by simp [hfault])

/-- **Lifetimes in runs**: in every reachable state, the connection thread is suspended where a
lifetime has got to, so what is proved of lifetimes holds of every run. -/
theorem inLifetime_run {p : Platform} {now : UInt32} {es : List Event} {w : World}
    (hrun : (firmware p).run (boot now) es = some w) : InLifetime p now w :=
  (inLifetime_runRule p now).run_all ⟨[], .restart, .start, rfl, by simp⟩ hrun

/-! ### Whole lifetimes -/

/-- **Sleeps.** In every lifetime of the thread, whatever happens between its calls, however long
its blocks take and however the clock goes on as long as it does not wrap: every sleep lasts its
time from where it was reached if and only if none is tested between its time from the base and
its time from there. -/
theorem sleeps_full_iff {p : Platform} {now : UInt32}
    {tr : List (Moment NodeWait World)} {j : Jump NodeWait} {w : World}
    (h : Lifetime (nodeConnectThread p) KeepsThen (boot now) tr j w)
    (hforward : ClockForward now tr) : Always SleepsFully tr ↔ Always MissesWindow tr := by
  have hiff : Always (fun m earlier => SleepsFully m earlier ↔ MissesWindow m earlier) tr :=
    always_of_tests (fun _ _ _ => Iff.rfl)
      (fun _ _ _ _ _ hage hreached hguard hclock => test_full_iff hage hreached hguard hclock)
      h hforward
  constructor
  · intro hfull
    exact (hiff.and hfull).imp fun _ _ hboth => hboth.1.mp hboth.2
  · intro hmisses
    exact (hiff.and hmisses).imp fun _ _ hboth => hboth.1.mpr hboth.2

/-! A node that attaches at once brings up the service discovery client in the first pass, is
ready to search a second later, and searches without the sleep before it. The search takes a
millisecond, which the sleep after it is too short. -/

/-- The firmware as it is configured. -/
abbrev shipped : Platform := .configured parseLoopback

/-- The firmware with a service name that is too long for `mdns_init`. -/
abbrev longNamed : Platform := { shipped with serviceName := List.replicate serviceMaxLen 97 }

/-- The node has attached by the time `now`. -/
def attached (now : UInt32) : World :=
  { boot 0 with app.connected := true, clock := ⟨now, []⟩ }

/-- The first pass has brought up the client, and the thread sleeps. -/
def mdnsUp : World := (nodeWaitConnected shipped measuring (attached 0)).1

/-- A second later the client is ready, and the sleep is passed. -/
def mdnsSlept : World :=
  { mdnsUp with clock.now := 1000, dns := mdnsUp.dns.autostart (some ⟨0, 53⟩) }.note
    (.sleep .mdnsInitSleep 1000 true)

/-- The moments up to then. -/
def firstSecond : List (Moment NodeWait World) :=
  [.reached .mdnsReady mdnsSlept, .tested .mdnsInitSleep mdnsSlept true,
    .reached .mdnsInitSleep mdnsUp]

/-- The thread gets there. -/
theorem firstSecond_lifetime : Lifetime (nodeConnectThread shipped) KeepsThen (boot 0)
    firstSecond (.wait .mdnsReady) mdnsSlept := by
  have hstart : Lifetime (nodeConnectThread shipped) KeepsThen (boot 0) [] .restart (boot 0) :=
    .start
  have hattached : KeepsThen (boot 0) (attached 0) := rfl
  have hentered := (hstart.elsewhere hattached).enter measuring rfl (by decide) .refl
  have hready : KeepsThen mdnsUp
      { mdnsUp with clock.now := 1000, dns := mdnsUp.dns.autostart (some ⟨0, 53⟩) } := rfl
  exact (hentered.elsewhere hready).passed measuring rfl .refl

/-- The clock goes on. -/
theorem firstSecond_forward : ClockForward 0 firstSecond := by
  decide

/-- The first sleep lasts its time. -/
theorem firstSecond_full : Always SleepsFully firstSecond := by
  refine (sleeps_full_iff firstSecond_lifetime firstSecond_forward).mpr
    ⟨trivial, ?_, trivial, trivial⟩
  rintro x w₀ hsleep hw₀ ⟨-, hbefore⟩
  obtain rfl := Option.some.inj hsleep
  obtain rfl := Option.some.inj hw₀
  exact absurd hbefore (by decide)

/-- The next sleep is passed, and the search is launched. -/
def searchSlept : World := mdnsSlept.note (.sleep .searchSleep 1000 true)

/-- The search has taken a millisecond. -/
def searchLaunched : World :=
  { (nodeSearch measuring searchSlept).1 with clock.now := 1001 }

/-- The sleep after it is passed. -/
def launchSlept : World :=
  { searchLaunched with clock.now := 2000 }.note (.sleep .launchSleep 2000 true)

/-- The moments up to then. -/
def secondSleep : List (Moment NodeWait World) :=
  .reached .launchSleep searchLaunched :: .tested .searchSleep searchSlept true ::
    .reached .searchSleep mdnsSlept :: .tested .mdnsReady mdnsSlept true :: firstSecond

/-- The thread gets there. -/
theorem secondSleep_lifetime : Lifetime (nodeConnectThread shipped) KeepsThen (boot 0)
    (.reached .answer launchSlept :: .tested .launchSleep launchSlept true :: secondSleep)
    (.wait .answer) launchSlept := by
  have hready := firstSecond_lifetime.passed measuring rfl .refl
  have hsearch : Relation.ReflGen KeepsThen (nodeSearch measuring searchSlept).1 searchLaunched :=
    .single rfl
  have hlaunched := hready.passed measuring rfl hsearch
  have hlater : KeepsThen searchLaunched { searchLaunched with clock.now := 2000 } := rfl
  exact (hlaunched.elsewhere hlater).passed measuring rfl .refl

/-- The clock goes on. -/
theorem secondSleep_forward : ClockForward 0
    (.reached .answer launchSlept :: .tested .launchSleep launchSlept true :: secondSleep) := by
  decide

/-- The sleep before the search is over at once: it is reached and passed at 1000 ms. The one
after the search is too short: it is reached at 1001 ms and passed at 2000 ms. So is the sleep
after a failed `mdns_init` when the base is a second old. -/
theorem sleeps_cut_short :
    (¬ ∀ now tr j w, Lifetime (nodeConnectThread shipped) KeepsThen (boot now) tr j w →
      ClockForward now tr → Always SleepsFully tr) ∧
    (¬ ∀ now tr j w, Lifetime (nodeConnectThread shipped) KeepsThen (boot now) tr j w →
      ClockForward now tr →
        Always (fun m earlier => m.wait = .launchSleep → SleepsFully m earlier) tr) ∧
    ¬ ∀ now tr j w, Lifetime (nodeConnectThread longNamed) KeepsThen (boot now) tr j w →
      ClockForward now tr →
        Always (fun m earlier => m.wait = .mdnsRetrySleep → SleepsFully m earlier) tr := by
  refine ⟨fun hall => ?_, fun hall => ?_, fun hall => ?_⟩
  · have hfull := hall _ _ _ _ secondSleep_lifetime secondSleep_forward
    obtain ⟨w₀, hw₀, hlasted⟩ := hfull.2.2.2.1 1000 rfl
    obtain rfl : mdnsSlept = w₀ := Option.some.inj hw₀
    exact absurd hlasted (by decide)
  · have hfull := hall _ _ _ _ secondSleep_lifetime secondSleep_forward
    obtain ⟨w₀, hw₀, hlasted⟩ := hfull.2.1 rfl 1000 rfl
    obtain rfl : searchLaunched = w₀ := Option.some.inj hw₀
    exact absurd hlasted (by decide)
  · have hstart : Lifetime (nodeConnectThread longNamed) KeepsThen (boot 0) [] .restart (boot 0) :=
      .start
    have hattached : KeepsThen (boot 0) (attached 1000) := rfl
    have hname : serviceMaxLen ≤ longNamed.serviceName.length := List.length_replicate.ge
    obtain ⟨w₀, w', hlife, hclock, happ, hclock', -⟩ :=
      retry_round (hstart.elsewhere hattached) rfl (by decide) hname rfl rfl rfl (by decide)
    have htime : w₀.time = 1000 := by rw [World.time, hclock]; rfl
    have htime' : w'.time = 1000 := by rw [World.time, hclock']; rfl
    have hbase' : w₀.base ≤ w₀.time := by rw [htime, World.base, happ]; decide
    have hforward : ClockForward 0 [.tested .mdnsRetrySleep w' true,
        .reached .mdnsRetrySleep w₀] :=
      ⟨(htime.trans htime'.symm).le, ⟨Nat.zero_le _, hbase'⟩, trivial⟩
    have hfull := hall _ _ _ _ hlife hforward
    obtain ⟨w₁, hw₁, hlasted⟩ := hfull.1 rfl 1000 rfl
    obtain rfl : w₀ = w₁ := Option.some.inj hw₁
    rw [htime, htime'] at hlasted
    exact absurd hlasted (by decide)

end SmartCO2
