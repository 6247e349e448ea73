import SmartCO2.CycleRuns

/-!
# Telemetry

What every run of the firmware posts, and when. Each theorem is read off the protocol of a
cycle, which the log of every run follows.

## Main results

* `one_post_per_cycle`: between two completions of the sending process there is one post,
  after one completion of each of the two threads; a suspended process is resumed.
* `post_renders_measurement`: the text of a post renders the measurement of its cycle, or the
  last one before.
* `post_attached`: a post follows a passed connection test in its cycle; only a detach that
  was reported after it can make the node unattached at the post.
* `post_zero_only_unready`: initial values are posted only while the sensor has never been
  ready.
-/

namespace SmartCO2

variable {p : Platform}

/-! ### One post per cycle -/

/-- What a cycle owes before a post, and at its end: no post yet and each thread ended once,
the connection thread after the node was seen connected; and then exactly one post. -/
def OncePerCycle (o : Obs) (earlier : List Obs) : Prop :=
  match o with
  | .seenConnected => lastRole earlier = true
  | .post _ =>
      posts (thisCycle earlier) = [] ∧ (∃ ready, sensorExits (thisCycle earlier) = [ready]) ∧
        nodeEnds (thisCycle earlier) = 1 ∧ ∃ later before,
          thisCycle earlier = later ++ .nodeEnded :: before ∧ .seenConnected ∈ before
  | .cycleEnded => ∃ r, posts (thisCycle earlier) = [r]
  | _ => True

/-- The protocol pays what a cycle owes. -/
theorem oncePerCycle_of_allows {o : Obs} {earlier : List Obs} {c : Cycle}
    (hstate : (cycleMonitor p).state earlier = some c) (hallows : c.Allows p o) :
    OncePerCycle o earlier := by
  cases o with
  | seenConnected => exact (connected_eq_lastRole hstate).symm.trans hallows.1
  | post r =>
      obtain ⟨hnode, hsensor, hpost, -⟩ := hallows
      have hposts := posts_thisCycle hstate
      have hexits := sensorExits_thisCycle hstate
      have hends := nodeEnds_thisCycle hstate
      rw [hpost] at hposts
      rw [hsensor] at hexits
      rw [hnode] at hends
      exact ⟨hposts, ⟨c.measured, hexits⟩, hends, nodeEnded_after_seen hstate hnode⟩
  | cycleEnded =>
      obtain ⟨r, hr⟩ := Option.isSome_iff_exists.mp hallows
      have hposts := posts_thisCycle hstate
      rw [hr] at hposts
      exact ⟨r, hposts⟩
  | _ => trivial

/-- **One post per cycle.** Between boot, or one completion of the sending process, and its
next completion there is exactly one post; before it and in the same cycle the sensor thread
has completed once, and the connection thread once after having seen the node connected. The
sending process is suspended exactly between the post and the end of the cycle, and every pass
that runs resumes it at its wait. -/
theorem one_post_per_cycle (p : Platform) (now : UInt32) (es : List Event) {w : World}
    (hrun : (firmware p).run (boot now) es = some w) :
    Always OncePerCycle w.log ∧
      (w.fault = false →
        (w.app.sendingProcessPt = some .ack ↔ posts (thisCycle w.log) ≠ [])) ∧
      (firmware p).EachStep (fun w e w' => ∀ inp, e = .pass inp → w.run = true →
        w.app.sendingProcessPt = some .ack → ResumesSender w w') (boot now) es := by
  obtain ⟨c, hacc, htracks⟩ := firmware_accepted hrun
  refine ⟨always_of_allows hacc fun _ _ _ => oncePerCycle_of_allows, fun hfault => ?_, ?_⟩
  · have hposted := (htracks hfault).posted
    rw [posts_thisCycle hacc]
    cases hpt : w.app.sendingProcessPt with
    | none =>
        have hnone : c.post = none := by simpa [hpt] using hposted
        simp [hnone]
    | some l =>
        obtain ⟨r, hr⟩ := Option.isSome_iff_exists.mp (hposted.trans (by rw [hpt]; rfl))
        simp [hr]
  · refine StepSystem.eachStep_of_invariant (I := CycleInvariant p) ?_
      (boot_cycleInvariant p now)
    rintro w e w' h hstep
    refine ⟨?_, step_cycleInvariant h hstep⟩
    rintro inp rfl hrun hack
    obtain ⟨hfault, hpass⟩ := step_pass hstep
    exact mainLoopPass_resumes h hfault hrun hack hpass

/-- The first cycle. -/
theorem one_post_in_first_cycle : ∃ w,
    (firmware (.configured parseLoopback)).run (boot 0) firstCycle = some w ∧
      Always OncePerCycle w.log ∧
      (w.fault = false →
        (w.app.sendingProcessPt = some .ack ↔ posts (thisCycle w.log) ≠ [])) ∧
      (firmware (.configured parseLoopback)).EachStep
        (fun w e w' => ∀ inp, e = .pass inp → w.run = true →
          w.app.sendingProcessPt = some .ack → ResumesSender w w') (boot 0) firstCycle :=
  ⟨_, rfl, one_post_per_cycle (.configured parseLoopback) 0 firstCycle rfl⟩

/-! ### The posted measurement -/

/-- What a post says: it renders the measurement decoded in its cycle if the sensor was ready,
and otherwise the last one before; nothing was decoded after the sensor thread ended. -/
def RendersMeasurement (p : Platform) (o : Obs) (earlier : List Obs) : Prop :=
  match o with
  | .post r =>
      ∃ ready, sensorExits (thisCycle earlier) = [ready] ∧
        decodes (since Obs.isSensorEnd earlier) = [] ∧
        (ready = true → ∃ t, decodes (thisCycle earlier) = [t] ∧ Renders p t r.text r.size) ∧
        (ready = false → decodes (thisCycle earlier) = [] ∧
          Renders p (lastDecoded earlier) r.text r.size)
  | _ => True

/-- A post that the protocol allows renders the measurement. -/
theorem rendersMeasurement_of_allows {o : Obs} {earlier : List Obs} {c : Cycle}
    (hstate : (cycleMonitor p).state earlier = some c) (hallows : c.Allows p o) :
    RendersMeasurement p o earlier := by
  cases o with
  | post r =>
      obtain ⟨-, hsensor, -, -, hrenders⟩ := hallows
      have hexits := sensorExits_thisCycle hstate
      have hdecodes := decodes_thisCycle hstate
      rw [hsensor] at hexits
      refine ⟨c.measured, hexits, decodes_since_sensorEnd hstate hsensor, ?_, ?_⟩
      · intro hready
        rw [hready] at hdecodes
        exact ⟨c.triple, hdecodes, hrenders⟩
      · intro hready
        rw [hready] at hdecodes
        rw [triple_eq_lastDecoded hstate] at hrenders
        exact ⟨hdecodes, hrenders⟩
  | _ => trivial

/-- **The posted measurement.** In every run, each post renders one measurement that a single
decode step stored: that of its cycle if the sensor was ready, otherwise the last one before,
or the initial one. The measurement in `_app` is always the last one that was decoded. -/
theorem post_renders_measurement (p : Platform) (now : UInt32) (es : List Event) {w : World}
    (hrun : (firmware p).run (boot now) es = some w) :
    Always (RendersMeasurement p) w.log ∧ (w.fault = false → w.triple = lastDecoded w.log) := by
  obtain ⟨c, hacc, htracks⟩ := firmware_accepted hrun
  refine ⟨always_of_allows hacc fun _ _ _ => rendersMeasurement_of_allows, fun hfault => ?_⟩
  exact (htracks hfault).triple.symm.trans (triple_eq_lastDecoded hacc)

/-- The first cycle. -/
theorem first_post_renders_measurement : ∃ w,
    (firmware (.configured parseLoopback)).run (boot 0) firstCycle = some w ∧
      Always (RendersMeasurement (.configured parseLoopback)) w.log ∧
      (w.fault = false → w.triple = lastDecoded w.log) :=
  ⟨_, rfl, post_renders_measurement (.configured parseLoopback) 0 firstCycle rfl⟩

/-! ### The initial measurement -/

/-- The initial measurement is posted only while the sensor has never been ready; afterwards
every post renders a measurement that was decoded. -/
def ZeroOnlyUnready (p : Platform) (o : Obs) (earlier : List Obs) : Prop :=
  match o with
  | .post r =>
      (∃ ready, sensorExits (thisCycle earlier) = [ready]) ∧
        (decodes earlier = [] →
          (∀ ready, .sensorEnded ready ∈ earlier → ready = false) ∧
            Renders p ⟨0, 0, 0⟩ r.text r.size) ∧
        (decodes earlier ≠ [] → ∃ t ∈ decodes earlier, Renders p t r.text r.size)
  | _ => True

/-- A post that the protocol allows satisfies this. -/
theorem zeroOnlyUnready_of_allows {o : Obs} {earlier : List Obs} {c : Cycle}
    (hstate : (cycleMonitor p).state earlier = some c) (hallows : c.Allows p o) :
    ZeroOnlyUnready p o earlier := by
  cases o with
  | post r =>
      obtain ⟨-, hsensor, -, -, hrenders⟩ := hallows
      have hexits := sensorExits_thisCycle hstate
      rw [hsensor] at hexits
      rw [triple_eq_lastDecoded hstate, lastDecoded] at hrenders
      refine ⟨⟨c.measured, hexits⟩, ?_, ?_⟩
      · intro hnil
        rw [hnil] at hrenders
        refine ⟨fun ready hmem => ?_, hrenders⟩
        cases ready with
        | false => rfl
        | true => exact absurd hnil ((decodes_ne_nil_iff hstate).mpr (Or.inl hmem))
      · intro hne
        obtain ⟨t, rest, heq⟩ := List.exists_cons_of_ne_nil hne
        rw [heq] at hrenders ⊢
        exact ⟨t, List.mem_cons_self, hrenders⟩
  | _ => trivial

/-- **The initial measurement.** In every run, initial values are posted only while every
completion of the sensor thread since boot, that of the post's cycle included, has found the
sensor not ready. -/
theorem post_zero_only_unready (p : Platform) (now : UInt32) (es : List Event) {w : World}
    (hrun : (firmware p).run (boot now) es = some w) : Always (ZeroOnlyUnready p) w.log := by
  obtain ⟨c, hacc, -⟩ := firmware_accepted hrun
  exact always_of_allows hacc fun _ _ _ => zeroOnlyUnready_of_allows

/-- The first cycle. -/
theorem first_post_not_zero : ∃ w,
    (firmware (.configured parseLoopback)).run (boot 0) firstCycle = some w ∧
      Always (ZeroOnlyUnready (.configured parseLoopback)) w.log :=
  ⟨_, rfl, post_zero_only_unready (.configured parseLoopback) 0 firstCycle rfl⟩

/-- The sensor is not ready in the first cycle: a post precedes every decoded measurement. -/
theorem post_before_measurement : ∃ w,
    (firmware (.configured parseLoopback)).run (boot 0)
        (connecting 0 unready ++ [.pass unready]) = some w ∧
      ¬ Always (fun o earlier => ∀ r, o = .post r → decodes earlier ≠ []) w.log := by
  refine ⟨_, rfl, fun h => ?_⟩
  obtain ⟨-, hpost, -⟩ := h
  exact absurd rfl (hpost _ rfl)

/-! ### The connection at a post -/

/-- What the connection was at a test and is at a post: a passed test found the node
connected, a post follows a passed test of its cycle, and the node is connected at the post
unless it was reported detached since that test. -/
def HeedsConnection (o : Obs) (earlier : List Obs) : Prop :=
  match o with
  | .seenConnected => lastRole earlier = true
  | .post r =>
      r.connected = lastRole earlier ∧ .seenConnected ∈ thisCycle earlier ∧
        (r.connected = true ∨ .role false ∈ since Obs.isSeenConnected earlier)
  | _ => True

/-- The protocol heeds the connection. -/
theorem heedsConnection_of_allows {o : Obs} {earlier : List Obs} {c : Cycle}
    (hstate : (cycleMonitor p).state earlier = some c) (hallows : c.Allows p o) :
    HeedsConnection o earlier := by
  cases o with
  | seenConnected => exact (connected_eq_lastRole hstate).symm.trans hallows.1
  | post r =>
      obtain ⟨hnode, -, -, hconn, -⟩ := hallows
      obtain ⟨later, before, heq, hmem⟩ := nodeEnded_after_seen hstate hnode
      have hseen : c.seen = true := seen_of_node hstate hnode
      rw [HeedsConnection, hconn]
      exact ⟨connected_eq_lastRole hstate, mem_thisCycle_of_seen hstate hseen,
        attached_since_seen hstate hseen⟩
  | _ => trivial

/-- **The connection at a post.** In every run, a post follows a connection test that was
passed in its cycle, and the node is attached at the post unless it was reported detached
since that test. -/
theorem post_attached (p : Platform) (now : UInt32) (es : List Event) {w : World}
    (hrun : (firmware p).run (boot now) es = some w) : Always HeedsConnection w.log := by
  obtain ⟨c, hacc, -⟩ := firmware_accepted hrun
  exact always_of_allows hacc fun _ _ _ => heedsConnection_of_allows

/-- The first cycle. -/
theorem first_post_attached : ∃ w,
    (firmware (.configured parseLoopback)).run (boot 0) firstCycle = some w ∧
      Always HeedsConnection w.log :=
  ⟨_, rfl, post_attached (.configured parseLoopback) 0 firstCycle rfl⟩

/-- The node is reported detached while the connection thread waits for its answer: it is not
attached at the post. -/
theorem post_after_detach : ∃ w,
    (firmware (.configured parseLoopback)).run (boot 0)
        (connecting 0 unready ++ [.role true .detached, .pass unready]) = some w ∧
      ¬ Always (fun o _ => ∀ r, o = .post r → r.connected = true) w.log := by
  refine ⟨_, rfl, fun h => ?_⟩
  obtain ⟨-, hpost, -⟩ := h
  exact absurd (hpost _ rfl) Bool.false_ne_true

end SmartCO2
