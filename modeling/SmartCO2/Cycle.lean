import SmartCO2.Library.History
import SmartCO2.World

/-!
# The Protocol of a Cycle

What an application cycle is for, stated without the code: attach to the network, take one
look at the sensor, post one message with the last measurement, and wait for the end of the
post. `cycleMonitor` accepts the histories in which all of this happens in its order, and
rejects every other one.

A monitor state knows what the current cycle has done so far, the last reported connection,
and the last measurement. What it knows is proved here to be what the history says, so a
history that the monitor accepts has the properties of the protocol at each observation.

## Main results

* `posts_thisCycle`, `sensorExits_thisCycle`, `decodes_thisCycle`, `nodeEnds_thisCycle`: the
  monitor counts what it has seen in this cycle.
* `attached_since_seen`: a node that was seen connected is connected, unless it was reported
  detached since.
-/

namespace SmartCO2

/-! ### Reading a history -/

/-- The end of a cycle. -/
def Obs.isCycleEnd : Obs → Bool
  | .cycleEnded => true
  | _ => false

/-- A post. -/
def Obs.isPost : Obs → Bool
  | .post _ => true
  | _ => false

/-- The connection test is passed. -/
def Obs.isSeenConnected : Obs → Bool
  | .seenConnected => true
  | _ => false

/-- The end of the sensor thread. -/
def Obs.isSensorEnd : Obs → Bool
  | .sensorEnded _ => true
  | _ => false

/-- What happened in the current cycle: since boot, or since the last cycle ended. -/
def thisCycle (l : List Obs) : List Obs := since Obs.isCycleEnd l

/-- The posts of a history, newest first. -/
def posts : List Obs → List PostRecord :=
  List.filterMap fun | .post r => some r | _ => none

/-- How the sensor thread ended each time: with a measurement or without one. -/
def sensorExits : List Obs → List Bool :=
  List.filterMap fun | .sensorEnded ready => some ready | _ => none

/-- The measurements of a history, newest first. -/
def decodes : List Obs → List Triple :=
  List.filterMap fun | .decoded t => some t | _ => none

/-- How often the connection thread ended. -/
def nodeEnds : List Obs → ℕ :=
  List.countP fun | .nodeEnded => true | _ => false

/-- The connection as it was last reported. -/
def lastRole (l : List Obs) : Bool :=
  (l.filterMap fun | .role connected => some connected | _ => none).headD false

/-- The last measurement, all zero before the first. -/
def lastDecoded (l : List Obs) : Triple := (decodes l).headD ⟨0, 0, 0⟩

/-- The last post of a cycle is the last one of all. -/
theorem head?_posts {l : List Obs} {r : PostRecord} (h : posts (thisCycle l) = [r]) :
    (posts l).head? = some r := by
  have hsplit : posts l = posts (thisCycle l) ++ posts (l.dropWhile fun o => !o.isCycleEnd) := by
    rw [posts, ← List.filterMap_append]
    exact congrArg _ List.takeWhile_append_dropWhile.symm
  rw [hsplit, h]
  rfl

/-- Only posts change the posts. -/
theorem posts_append {new : List Obs} (h : ∀ o ∈ new, o.isPost = false) (l : List Obs) :
    posts (new ++ l) = posts l := by
  induction new with
  | nil => rfl
  | cons o new ih =>
      have ho := h o List.mem_cons_self
      have hcons : posts (o :: (new ++ l)) = posts (new ++ l) := by
        cases o <;> first | rfl | exact absurd ho (by simp [Obs.isPost])
      rw [List.cons_append, hcons, ih fun a ha => h a (List.mem_cons_of_mem o ha)]

/-! ### The monitor -/

/-- The message text and its size are the rendering of a measurement: its text, cut to what
the buffer holds, and its length, or the size `-1` when it was cut or could not be rendered. -/
def Renders (p : Platform) (t : Triple) (text : List UInt8) (size : UInt16) : Prop :=
  match p.format t.co2 t.rh t.temp with
  | none => size = UInt16.ofInt (-1)
  | some formatted =>
      text = formatted.take (appMessageMaxLen - 1) ∧
        size = if formatted.length < appMessageMaxLen then UInt16.ofInt formatted.length
          else UInt16.ofInt (-1)

instance (p : Platform) (t : Triple) (text : List UInt8) (size : UInt16) :
    Decidable (Renders p t text size) :=
  match h : p.format t.co2 t.rh t.temp with
  | none => decidable_of_iff (size = UInt16.ofInt (-1)) (by simp [Renders, h])
  | some formatted =>
      decidable_of_iff (text = formatted.take (appMessageMaxLen - 1) ∧
        size = if formatted.length < appMessageMaxLen then UInt16.ofInt formatted.length
          else UInt16.ofInt (-1)) (by simp only [Renders, h])

/-- What the protocol remembers: the last reported connection and measurement, and of the
current cycle whether the node was seen connected, which threads have ended, whether there
was a measurement, and the post. -/
structure Cycle where
  connected : Bool
  triple : Triple
  seen : Bool
  node : Bool
  sensor : Bool
  measured : Bool
  post : Option PostRecord

namespace Cycle

/-- What may happen next. -/
def Allows (p : Platform) (c : Cycle) : Obs → Prop
  | .seenConnected => c.connected = true ∧ c.node = false
  | .nodeEnded => c.seen = true ∧ c.node = false
  | .decoded _ => c.sensor = false ∧ c.measured = false
  | .sensorEnded ready => c.sensor = false ∧ ready = c.measured
  | .post r =>
      c.node = true ∧ c.sensor = true ∧ c.post = none ∧ r.connected = c.connected ∧
        Renders p c.triple r.text r.size
  | .tested .. | .timedOut | .coapError | .cycleEnded => c.post.isSome = true
  | .role _ | .sleep .. | .browse _ | .coapInit _ | .browseDone .. | .callback .. => True

instance (p : Platform) (c : Cycle) (o : Obs) : Decidable (c.Allows p o) :=
  match o with
  | .seenConnected | .nodeEnded | .decoded _ => inferInstanceAs (Decidable (_ ∧ _))
  | .sensorEnded _ => inferInstanceAs (Decidable (_ ∧ _))
  | .post _ => inferInstanceAs (Decidable (_ ∧ _ ∧ _ ∧ _ ∧ _))
  | .tested .. | .timedOut | .coapError | .cycleEnded => inferInstanceAs (Decidable (_ = _))
  | .role _ | .sleep .. | .browse _ | .coapInit _ | .browseDone .. | .callback .. =>
      inferInstanceAs (Decidable True)

/-- What is remembered of an observation. -/
def after (c : Cycle) : Obs → Cycle
  | .role connected => { c with connected := connected }
  | .seenConnected => { c with seen := true }
  | .nodeEnded => { c with node := true }
  | .decoded t => { c with measured := true, triple := t }
  | .sensorEnded _ => { c with sensor := true }
  | .post r => { c with post := some r }
  | .cycleEnded =>
      { c with seen := false, node := false, sensor := false, measured := false, post := none }
  | _ => c

end Cycle

/-- The monitor of the protocol. -/
def cycleMonitor (p : Platform) : Monitor Cycle Obs where
  init :=
    { connected := false
      triple := ⟨0, 0, 0⟩
      seen := false
      node := false
      sensor := false
      measured := false
      post := none }
  next c o := if c.Allows p o then some (c.after o) else none

variable {p : Platform}

/-- A move of the monitor: the observation is allowed, and remembered. -/
theorem next_eq_some {c c' : Cycle} {o : Obs} :
    (cycleMonitor p).next c o = some c' ↔ c.Allows p o ∧ c.after o = c' := by
  simp [cycleMonitor]

/-- **Induction over accepted histories.** What holds at boot and is kept by every allowed
observation relates every accepted history to the state of the monitor. -/
theorem cycle_induction {R : List Obs → Cycle → Prop} (hboot : R [] (cycleMonitor p).init)
    (hstep : ∀ l c o, (cycleMonitor p).state l = some c → c.Allows p o → R l c →
      R (o :: l) (c.after o))
    {l : List Obs} {c : Cycle} (h : (cycleMonitor p).state l = some c) : R l c := by
  refine Monitor.state_invariant hboot ?_ h
  intro l c o c' hstate hR hnext
  obtain ⟨hallows, rfl⟩ := next_eq_some.mp hnext
  exact hstep l c o hstate hallows hR

/-- What follows from an observation being allowed holds always in an accepted history. -/
theorem always_of_allows {P : Obs → List Obs → Prop} {l : List Obs} {c : Cycle}
    (h : (cycleMonitor p).state l = some c)
    (hP : ∀ o l c, (cycleMonitor p).state l = some c → c.Allows p o → P o l) : Always P l := by
  refine (Monitor.always h).imp ?_
  rintro o earlier ⟨c, c', hstate, hnext⟩
  exact hP o earlier c hstate (next_eq_some.mp hnext).1

/-! ### What the monitor knows

Each of these relates the state of the monitor to the history it has read. The cases are the
observations that change either side; the others leave both as they were. -/

section Known

variable {l : List Obs} {c : Cycle} (h : (cycleMonitor p).state l = some c)

include h

/-- The connection is the last reported one. -/
theorem connected_eq_lastRole : c.connected = lastRole l := by
  refine cycle_induction (R := fun l c => c.connected = lastRole l) rfl ?_ h
  intro l c o _ _ ih
  cases o with
  | role connected => rfl
  | _ => exact ih

/-- The measurement is the last one. -/
theorem triple_eq_lastDecoded : c.triple = lastDecoded l := by
  refine cycle_induction (R := fun l c => c.triple = lastDecoded l) rfl ?_ h
  intro l c o _ _ ih
  cases o with
  | decoded t => rfl
  | _ => exact ih

/-- The cycle has posted what the monitor has seen posted: nothing, or one message. -/
theorem posts_thisCycle : posts (thisCycle l) = c.post.toList := by
  refine cycle_induction (R := fun l c => posts (thisCycle l) = c.post.toList) rfl ?_ h
  intro l c o _ hallows ih
  cases o with
  | post r =>
      obtain ⟨-, -, hnone, -⟩ := hallows
      rw [hnone] at ih
      exact congrArg (List.cons r) ih
  | cycleEnded => rfl
  | _ => exact ih

/-- The sensor thread has ended in the cycle at most once, with a measurement if there was
one. -/
theorem sensorExits_thisCycle :
    sensorExits (thisCycle l) = if c.sensor then [c.measured] else [] := by
  refine cycle_induction
    (R := fun l c => sensorExits (thisCycle l) = if c.sensor then [c.measured] else [])
    rfl ?_ h
  intro l c o _ hallows ih
  cases o with
  | decoded t =>
      have hsensor : (c.after (.decoded t)).sensor = false := hallows.1
      rw [hallows.1] at ih
      rw [hsensor]
      exact ih
  | sensorEnded ready =>
      rw [hallows.1] at ih
      rw [hallows.2]
      exact congrArg (List.cons c.measured) ih
  | cycleEnded => rfl
  | _ => exact ih

/-- The cycle has decoded at most one measurement, the last one of all. -/
theorem decodes_thisCycle : decodes (thisCycle l) = if c.measured then [c.triple] else [] := by
  refine cycle_induction
    (R := fun l c => decodes (thisCycle l) = if c.measured then [c.triple] else []) rfl ?_ h
  intro l c o _ hallows ih
  cases o with
  | decoded t =>
      rw [hallows.2] at ih
      exact congrArg (List.cons t) ih
  | cycleEnded => rfl
  | _ => exact ih

/-- The connection thread has ended in the cycle at most once. -/
theorem nodeEnds_thisCycle : nodeEnds (thisCycle l) = if c.node then 1 else 0 := by
  refine cycle_induction
    (R := fun l c => nodeEnds (thisCycle l) = if c.node then 1 else 0) rfl ?_ h
  intro l c o _ hallows ih
  cases o with
  | nodeEnded =>
      have hone : nodeEnds (.nodeEnded :: thisCycle l) = nodeEnds (thisCycle l) + 1 :=
        List.countP_cons_of_pos rfl
      rw [hallows.2] at ih
      rw [ih] at hone
      exact hone
  | cycleEnded => rfl
  | _ => exact ih

/-- The node was seen connected in this cycle. -/
theorem mem_thisCycle_of_seen (hseen : c.seen = true) : .seenConnected ∈ thisCycle l := by
  refine cycle_induction (R := fun l c => c.seen = true → .seenConnected ∈ thisCycle l)
    (fun hseen => absurd hseen Bool.false_ne_true) ?_ h hseen
  intro l c o _ _ ih hseen
  cases o with
  | seenConnected => exact List.mem_cons_self
  | cycleEnded => exact absurd hseen Bool.false_ne_true
  | _ => exact List.mem_cons_of_mem _ (ih hseen)

/-- A connection thread that has ended has seen the node connected. -/
theorem seen_of_node (hnode : c.node = true) : c.seen = true := by
  refine cycle_induction (R := fun _ c => c.node = true → c.seen = true)
    (fun hnode => absurd hnode Bool.false_ne_true) ?_ h hnode
  intro l c o _ hallows ih hnode
  cases o with
  | seenConnected => rfl
  | nodeEnded => exact hallows.1
  | cycleEnded => exact absurd hnode Bool.false_ne_true
  | _ => exact ih hnode

/-- The connection thread ended in this cycle after the node was seen connected. -/
theorem nodeEnded_after_seen (hnode : c.node = true) :
    ∃ later earlier, thisCycle l = later ++ .nodeEnded :: earlier ∧
      .seenConnected ∈ earlier := by
  refine cycle_induction (R := fun l c => c.node = true → ∃ later earlier,
      thisCycle l = later ++ .nodeEnded :: earlier ∧ .seenConnected ∈ earlier)
    (fun hnode => absurd hnode Bool.false_ne_true) ?_ h hnode
  intro l c o hstate hallows ih hnode
  cases o with
  | nodeEnded => exact ⟨[], thisCycle l, rfl, mem_thisCycle_of_seen hstate hallows.1⟩
  | cycleEnded => exact absurd hnode Bool.false_ne_true
  | _ =>
      obtain ⟨later, earlier, heq, hmem⟩ := ih hnode
      exact ⟨_ :: later, earlier, congrArg (List.cons _) heq, hmem⟩

/-- **A node that was seen connected in this cycle** was connected at that moment; it still
is unless it was reported detached since. -/
theorem attached_since_seen (hseen : c.seen = true) :
    c.connected = true ∨ .role false ∈ since Obs.isSeenConnected l := by
  refine cycle_induction (R := fun l c => c.seen = true →
      c.connected = true ∨ .role false ∈ since Obs.isSeenConnected l)
    (fun hseen => absurd hseen Bool.false_ne_true) ?_ h hseen
  intro l c o _ hallows ih hseen
  cases o with
  | role connected =>
      cases connected with
      | true => exact Or.inl rfl
      | false => exact Or.inr List.mem_cons_self
  | seenConnected => exact Or.inl hallows.1
  | cycleEnded => exact absurd hseen Bool.false_ne_true
  | _ => exact (ih hseen).imp id (List.mem_cons_of_mem _)

/-- After the sensor thread has ended, nothing more is decoded in the cycle. -/
theorem decodes_since_sensorEnd (hsensor : c.sensor = true) :
    decodes (since Obs.isSensorEnd l) = [] := by
  refine cycle_induction (R := fun l c => c.sensor = true →
      decodes (since Obs.isSensorEnd l) = [])
    (fun hsensor => absurd hsensor Bool.false_ne_true) ?_ h hsensor
  intro l c o _ hallows ih hsensor
  cases o with
  | decoded t => exact absurd (hallows.1.symm.trans hsensor) Bool.false_ne_true
  | sensorEnded ready => rfl
  | cycleEnded => exact absurd hsensor Bool.false_ne_true
  | _ => exact ih hsensor

/-- A post needs both threads to have ended. -/
theorem ended_of_post (hpost : c.post.isSome = true) : c.node = true ∧ c.sensor = true := by
  refine cycle_induction (R := fun _ c => c.post.isSome = true → c.node = true ∧ c.sensor = true)
    (fun hpost => absurd hpost Bool.false_ne_true) ?_ h hpost
  intro l c o _ hallows ih hpost
  cases o with
  | nodeEnded => exact ⟨rfl, (ih hpost).2⟩
  | sensorEnded ready => exact ⟨(ih hpost).1, rfl⟩
  | post r => exact ⟨hallows.1, hallows.2.1⟩
  | cycleEnded => exact absurd hpost Bool.false_ne_true
  | _ => exact ih hpost

/-- A measurement has been decoded exactly when the sensor thread has once ended with one, or
is just about to. -/
theorem decodes_ne_nil_iff :
    decodes l ≠ [] ↔ .sensorEnded true ∈ l ∨ c.measured = true ∧ c.sensor = false := by
  refine cycle_induction (R := fun l c =>
      decodes l ≠ [] ↔ .sensorEnded true ∈ l ∨ c.measured = true ∧ c.sensor = false)
    (by simp [decodes, cycleMonitor]) ?_ h
  intro l c o hstate hallows ih
  cases o with
  | decoded t =>
      have hne : decodes (.decoded t :: l) ≠ [] := List.cons_ne_nil t (decodes l)
      constructor
      · intro _
        exact Or.inr ⟨rfl, hallows.1⟩
      · intro _
        exact hne
  | sensorEnded ready =>
      obtain ⟨hsensor, rfl⟩ := hallows
      have hdecodes : decodes (.sensorEnded c.measured :: l) = decodes l := rfl
      rw [hdecodes, ih]
      simp only [List.mem_cons, Obs.sensorEnded.injEq, Cycle.after, hsensor, reduceCtorEq,
        and_true, and_false, or_false]
      rw [or_comm, eq_comm]
  | cycleEnded =>
      have hsensor := (ended_of_post hstate hallows).2
      have hdecodes : decodes (.cycleEnded :: l) = decodes l := rfl
      rw [hdecodes, ih]
      simp [Cycle.after, hsensor]
  | _ =>
      simp only [List.mem_cons, reduceCtorEq, false_or]
      exact ih

end Known

end SmartCO2
