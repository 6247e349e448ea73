import SmartCO2.Discovery

/-!
# Progress of the Connection Thread

What a call of the connection thread does when nothing stands in its way: the node is attached,
the base of its sleeps is long past, the service discovery client is ready once it is there, and
OpenThread launches what it is asked to. Then the thread ends, or comes closer to its end.

A call may pass many waits. The assertion `Path` is kept by each block, and a wait whose test
fails inside such a call is one whose base the call has just set.

## Main results

* `nodeConnectThread_closer`: a call ends the thread or lowers its distance.
-/

namespace SmartCO2

variable {p : Platform} {w w' : World}

/-- The configured texts fit into their buffers, and so do the messages of all measurements. -/
structure Platform.Fits (p : Platform) : Prop where
  serviceName : p.serviceName.length < serviceMaxLen
  uri : (appUriTemplate p.token).length < uriMaxLen
  message : ∀ co2 rh temp : ℕ, co2 ≤ 65535 → rh ≤ 65535 → temp ≤ 65535 →
    ∃ text, p.format co2 rh temp = some text ∧ text.length < appMessageMaxLen

/-! ### Distance -/

/-- A browse has brought an answer without an error. -/
def GoodAnswer (w : World) : Prop := w.appDone = true ∧ w.appError = .none

instance (w : World) : Decidable (GoodAnswer w) := inferInstanceAs (Decidable (_ ∧ _))

/-- How far the thread is from its end. Past the test of `_app.done` it is close to it with a good
answer, or with a browse that may still bring one; else it has to start anew. -/
def nodeDistance (lc : Option NodeWait) (w : World) : ℕ :=
  match lc with
  | none | some .connectSleep => 5
  | some .mdnsRetrySleep => 6
  | some .mdnsInitSleep => 4
  | some .mdnsReady => 3
  | some .searchSleep => 2
  | some .launchSleep | some .answer | some .answerSleep | some .resultSleep =>
      if w.dns.outstanding ≠ [] ∨ GoodAnswer w then 1 else 7

/-- With an answer, or a browse that may bring one, the thread is close to its end. -/
theorem nodeDistance_past {lc : Option NodeWait} (hpast : lc.any NodeWait.pastTest = true)
    (h : w.dns.outstanding ≠ [] ∨ GoodAnswer w) : nodeDistance lc w = 1 := by
  cases lc with
  | none => exact absurd hpast (by simp)
  | some l =>
      cases l with
      | launchSleep | answer | answerSleep | resultSleep => exact if_pos h
      | _ => exact absurd hpast (by decide)

/-- The base of the sleeps is long past. -/
def Late (w : World) : Prop := 15000 ≤ w.clock.now.toUInt64 - w.app.thenTime

/-- The base of the sleeps has just been set. -/
def Fresh (w : World) : Prop := w.app.thenTime = w.clock.now.toUInt64

/-- Nothing stands in the way: the clock stands still, the node is attached, and the CoAP client
is free or can still be found. -/
structure Unhindered (w : World) : Prop where
  ahead : w.clock.ahead = []
  connected : w.app.connected = true
  search : searchOf w.log ≠ .lost
  free : w.app.coap = .client → w.coap.client.busy = false

/-- Where a call of a thread at most `n` away may pass. -/
def Stage (n : ℕ) (j : Jump NodeWait) (w : World) : Prop :=
  match j with
  | .wait .connectSleep =>
      Late w ∧ 5 ≤ n ∧ (w.app.mdns = .client → w.dns.client.ready = true)
  | .wait .mdnsRetrySleep => Late w ∧ 6 ≤ n
  | .wait .mdnsInitSleep =>
      w.app.mdns = .client ∧ 4 ≤ n ∧
        ((Late w ∧ (w.dns.client.ready = true ∨ 4 < n)) ∨ (Fresh w ∧ 4 < n))
  | .wait .mdnsReady =>
      w.app.mdns = .client ∧ Late w ∧ 3 ≤ n ∧ (w.dns.client.ready = true ∨ 3 < n)
  | .wait .searchSleep =>
      w.app.mdns = .client ∧ w.dns.client.ready = true ∧ 2 ≤ n ∧ (Late w ∨ (Fresh w ∧ 2 < n))
  | .wait .launchSleep =>
      (Late w ∧ 1 ≤ n ∧ (¬ GoodAnswer w → 7 ≤ n)) ∨
        (Fresh w ∧ w.dns.outstanding ≠ [] ∧ 1 < n)
  | .wait .answer | .wait .answerSleep | .wait .resultSleep =>
      Late w ∧ 1 ≤ n ∧ (¬ GoodAnswer w → 7 ≤ n)
  | .restart => 5 < n
  | .finish => w.app.pThreadDone1 = true
  | .exit | .stuck => False

/-- The assertion at the jumps of such a call. -/
def Path (n : ℕ) (j : Jump NodeWait) (w : World) : Prop :=
  NodeProspect j w ∧ Unhindered w ∧ Stage n j w

/-- The assertion where the call returns. -/
def Closer (n : ℕ) (j : Jump NodeWait) (w : World) : Prop :=
  Unhindered w ∧ match j with
    | .wait l => nodeDistance (some l) w < n
    | .restart => 5 < n
    | .finish => w.app.pThreadDone1 = true
    | .exit | .stuck => False

/-! ### Tests -/

/-- Notes that do not settle the search. -/
theorem Unhindered.noted (h : Unhindered w) {notes : List Obs}
    (hnotes : ∀ o ∈ notes, o.settles = false) :
    Unhindered { w with log := notes ++ w.log } := by
  have hsearch : searchOf (notes ++ w.log) ≠ .lost := by
    rw [searchOf_append hnotes]
    exact h.search
  exact { h with search := hsearch }

/-- While the clock stands still, a sleep is tested at the same time. -/
theorem nodeSleep_still (h : w.clock.ahead = []) (l : NodeWait) (x : UInt64) :
    nodeSleep l x w =
      (w.note (.sleep l w.clock.now (decide (x ≤ w.clock.now.toUInt64 - w.app.thenTime))),
        some (decide (x ≤ w.clock.now.toUInt64 - w.app.thenTime))) := by
  rw [nodeSleep, World.now, World.tick_of_ahead_nil h]

/-- No test takes time, and none but the sleeps is logged. -/
theorem nodeGuard_still (h : w.clock.ahead = []) (l : NodeWait) :
    ∃ notes, (nodeGuard l w).1 = { w with log := notes ++ w.log } ∧
      ∀ o ∈ notes, o.settles = false := by
  have hsleep : ∀ x, ∃ notes, (nodeSleep l x w).1 = { w with log := notes ++ w.log } ∧
      ∀ o ∈ notes, o.settles = false := by
    intro x
    rw [nodeSleep_still h]
    exact ⟨[.sleep l _ _], rfl, by simp [Obs.settles, Obs.disturbs]⟩
  cases l with
  | mdnsReady =>
      simp only [nodeGuard]
      split <;> exact ⟨[], rfl, by simp⟩
  | answer =>
      simp only [nodeGuard, World.now, World.tick_of_ahead_nil h]
      split <;> exact ⟨[], rfl, by simp⟩
  | _ => exact hsleep _

/-- Long after its base, every wait is left, but for a client that is not ready. -/
theorem nodeGuard_late (h : w.clock.ahead = []) (hlate : Late w) {l : NodeWait}
    (hl : l ≠ .mdnsReady) : (nodeGuard l w).2 = some true := by
  have hsleep : ∀ x, x ≤ 15000 → (nodeSleep l x w).2 = some true := by
    intro x hx
    rw [nodeSleep_still h]
    exact congrArg some (decide_eq_true (UInt64.le_trans hx hlate))
  cases l with
  | mdnsReady => exact absurd rfl hl
  | answer =>
      simp only [nodeGuard, World.now, World.tick_of_ahead_nil h]
      split
      · rfl
      · exact congrArg some (decide_eq_true hlate)
  | _ => exact hsleep _ (by decide)

/-- Right after its base, a sleep is not left. -/
theorem nodeGuard_fresh (h : w.clock.ahead = []) (hfresh : Fresh w) {l : NodeWait}
    (hl : l = .mdnsInitSleep ∨ l = .searchSleep ∨ l = .launchSleep) :
    (nodeGuard l w).2 = some false := by
  have hsleep : (nodeSleep l 1000 w).2 = some false := by
    rw [nodeSleep_still h, hfresh]
    simp
  rcases hl with rfl | rfl | rfl <;> exact hsleep

/-- A wait whose test fails is closer than the call has begun. -/
theorem path_blocked {n : ℕ} {l : NodeWait} (h : Path n (.wait l) w)
    (hguard : nodeGuard l w = (w', some false)) : Closer n (.wait l) w' := by
  obtain ⟨-, hun, hstage⟩ := h
  obtain ⟨notes, hlog, hnotes⟩ := nodeGuard_still hun.ahead l
  rw [hguard] at hlog
  obtain rfl : w' = { w with log := notes ++ w.log } := hlog
  refine ⟨hun.noted hnotes, ?_⟩
  have hlate : Late w → l = .mdnsReady := by
    intro hlate
    by_contra hl
    have hleft := nodeGuard_late hun.ahead hlate hl
    rw [hguard] at hleft
    exact absurd hleft (by simp)
  cases l with
  | connectSleep | mdnsRetrySleep => exact absurd (hlate hstage.1) (by simp)
  | mdnsInitSleep =>
      obtain ⟨-, -, ⟨hl, -⟩ | ⟨-, hn⟩⟩ := hstage
      · exact absurd (hlate hl) (by simp)
      · exact hn
  | mdnsReady =>
      obtain ⟨hclient, -, -, hready | hn⟩ := hstage
      · rw [nodeGuard, hclient] at hguard
        simp [mdnsIsReady, hready] at hguard
      · exact hn
  | searchSleep =>
      obtain ⟨-, -, -, hl | ⟨-, hn⟩⟩ := hstage
      · exact absurd (hlate hl) (by simp)
      · exact hn
  | launchSleep =>
      obtain ⟨hl, -⟩ | ⟨-, hout, hn⟩ := hstage
      · exact absurd (hlate hl) (by simp)
      · simp only [nodeDistance]
        rw [if_pos (Or.inl hout)]
        exact hn
  | answer | answerSleep | resultSleep => exact absurd (hlate hstage.1) (by simp)

/-- The test of a wait on the path is defined. -/
theorem path_defined {n : ℕ} {l : NodeWait} (h : Path n (.wait l) w)
    (hguard : nodeGuard l w = (w', none)) : False := by
  obtain rfl := nodeGuard_none hguard
  obtain ⟨-, -, hclient, -⟩ := h
  rw [nodeGuard, hclient] at hguard
  exact absurd hguard (by simp)

/-! ### Blocks -/

/-- The end of the thread. -/
theorem nodeEnd_stage (h : Unhindered w) (n : ℕ) :
    Unhindered (nodeEnd w).1 ∧ Stage n (nodeEnd w).2 (nodeEnd w).1 := by
  have hsettles : ∀ o ∈ [Obs.nodeEnded], o.settles = false := by
    simp [Obs.settles, Obs.disturbs]
  have hnoted := h.noted hsettles
  exact ⟨{ hnoted with }, rfl⟩

/-- The connection test of an attached node. -/
theorem nodeWaitConnected_stage (hp : p.Fits) (h : Unhindered w) {n : ℕ} (hn : 5 ≤ n)
    (htime : Late w ∨ Fresh w) (hready : w.app.mdns = .client → w.dns.client.ready = true) :
    Unhindered (nodeWaitConnected p unready w).1 ∧
      Stage n (nodeWaitConnected p unready w).2 (nodeWaitConnected p unready w).1 := by
  have hsettles : ∀ o ∈ [Obs.seenConnected], o.settles = false := by
    simp [Obs.settles, Obs.disturbs]
  have hnoted := h.noted hsettles
  rw [nodeWaitConnected, if_pos h.connected, nodeInitMdns]
  split
  · next hclient =>
      refine ⟨{ hnoted with }, hclient, hready hclient, by omega, ?_⟩
      exact htime.imp_right fun hfresh => ⟨hfresh, by omega⟩
  · have hname : ¬ serviceMaxLen ≤ p.serviceName.length := not_le.mpr hp.serviceName
    simp only [mdnsInit, ge_iff_le, if_neg hname]
    refine ⟨{ hnoted with }, rfl, by omega, ?_⟩
    rcases htime with hlate | hfresh
    · exact Or.inl ⟨hlate, Or.inr (by omega)⟩
    · exact Or.inr ⟨hfresh, by omega⟩

/-- The search of a client that is ready: it is launched, or still going on. -/
theorem nodeSearch_stage (hs : Services w) (h : Unhindered w) {n : ℕ} (hn : 2 ≤ n)
    (hclient : w.app.mdns = .client) (hready : w.dns.client.ready = true) :
    Unhindered (nodeSearch unready w).1 ∧
      Stage n (nodeSearch unready w).2 (nodeSearch unready w).1 := by
  rw [nodeSearch]
  cases hdone : w.appDone with
  | true =>
      rw [if_pos rfl]
      exact nodeEnd_stage h n
  | false =>
      have hstill :
          ({ w with mem := (w.mem.setBool .app false).setError .app .none } : World).tick =
          { w with mem := (w.mem.setBool .app false).setError .app .none } :=
        World.tick_of_ahead_nil h.ahead
      simp only [Bool.false_eq_true, if_false, World.now, hstill, hclient]
      cases hbusy : w.dns.client.busy with
      | true =>
          have hout : w.dns.outstanding ≠ [] := by
            intro hnil
            have hlength := hs.browse.busy_iff.1.mp hbusy
            rw [hnil] at hlength
            exact absurd hlength (by simp)
          have hrefuses : w.dns.client.refuses = true := by simp [MDnsClient.refuses, hbusy]
          simp only [mdnsScheduleSearch_of_refuses hrefuses, hrefuses, if_true]
          exact ⟨{ h with }, Or.inr ⟨rfl, hout, by omega⟩⟩
      | false =>
          have htakes : w.dns.client.refuses = false := by simp [MDnsClient.refuses, hbusy, hready]
          have hsettles : ∀ o ∈ [Obs.browse unready.browse], o.settles = false := by
            simp [Obs.settles, Obs.disturbs, unready, PassInput.calm]
          have hnoted := h.noted hsettles
          have hlaunched : ¬ unready.browse ≠ .none := by simp [unready, PassInput.calm]
          simp only [mdnsScheduleSearch, htakes, Bool.false_eq_true, if_false, if_neg hlaunched]
          refine ⟨{ hnoted with }, Or.inr ⟨rfl, ?_, by omega⟩⟩
          simp [World.note]

/-- The start of the CoAP client succeeds. -/
theorem nodeInitCoap_stage (hp : p.Fits) (h : Unhindered w) (n : ℕ) :
    Unhindered (nodeInitCoap p unready w).1 ∧
      Stage n (nodeInitCoap p unready w).2 (nodeInitCoap p unready w).1 := by
  rw [nodeInitCoap]
  split
  · exact nodeEnd_stage h n
  · have hlen : ¬ (((appUriTemplate p.token).length : ℤ) < 0 ∨
        ((appUriTemplate p.token).length : ℤ) = uriMaxLen) := by
      have := hp.uri
      omega
    have hstarted : ¬ unready.coapStart ≠ .none := by simp [unready, PassInput.calm]
    simp only [coapInit, snprintf_some, if_neg hlen, if_neg hstarted]
    refine nodeEnd_stage ?_ n
    refine { ahead := h.ahead, connected := h.connected, search := ?_, free := fun _ => rfl }
    have hsearch := h.search
    simp only [World.note, searchOf]
    cases hs : searchOf w.log with
    | pending | found => simp [Search.after]
    | lost => exact absurd hs hsearch

/-- The block after a passed wait. -/
theorem nodeBody_stage (hp : p.Fits) {n : ℕ} {l : NodeWait} (h : Path n (.wait l) w)
    (hguard : nodeGuard l w = (w', some true)) :
    Unhindered (nodeBody p unready l w').1 ∧
      Stage n (nodeBody p unready l w').2 (nodeBody p unready l w').1 := by
  obtain ⟨⟨hs, -⟩, hbefore, hstage⟩ := h
  obtain ⟨notes, hlog, hnotes⟩ := nodeGuard_still hbefore.ahead l
  rw [hguard] at hlog
  obtain rfl : w' = { w with log := notes ++ w.log } := hlog
  have hun := hbefore.noted hnotes
  have hnot_fresh : l = .mdnsInitSleep ∨ l = .searchSleep ∨ l = .launchSleep → ¬ Fresh w := by
    intro hl hfresh
    have hblocked := nodeGuard_fresh hbefore.ahead hfresh hl
    rw [hguard] at hblocked
    exact absurd hblocked (by simp)
  cases l with
  | connectSleep =>
      obtain ⟨-, hn, hready⟩ := hstage
      simp only [nodeBody, World.now, World.tick_of_ahead_nil hun.ahead]
      have hcaught : Unhindered { w with app.thenTime := w.clock.now.toUInt64,
                                         log := notes ++ w.log } := { hun with }
      exact nodeWaitConnected_stage hp hcaught hn (Or.inr rfl) hready
  | mdnsRetrySleep => exact ⟨hun, hstage.2⟩
  | mdnsInitSleep =>
      obtain ⟨hclient, hn, ⟨hlate, hready⟩ | ⟨hfresh, -⟩⟩ := hstage
      · exact ⟨hun, hclient, hlate, by omega, hready.imp_right fun hlt => by omega⟩
      · exact absurd hfresh (hnot_fresh (Or.inl rfl))
  | mdnsReady =>
      obtain ⟨hclient, hlate, hn, -⟩ := hstage
      rw [nodeGuard, hclient] at hguard
      have hready : mdnsIsReady w.dns.client = true := Option.some.inj (Prod.mk.inj hguard).2
      exact ⟨hun, hclient, hready, by omega, Or.inl hlate⟩
  | searchSleep =>
      obtain ⟨hclient, hready, hn, -⟩ := hstage
      have hs' : Services { w with log := notes ++ w.log } := { hs with }
      exact nodeSearch_stage hs' hun hn hclient hready
  | launchSleep =>
      rcases hstage with hlate | ⟨hfresh, -⟩
      · exact ⟨hun, hlate⟩
      · exact absurd hfresh (hnot_fresh (Or.inr (Or.inr rfl)))
  | answer => exact ⟨hun, hstage⟩
  | answerSleep =>
      simp only [nodeBody]
      split
      · exact ⟨hun, hstage⟩
      · next hdone =>
          have hn := hstage.2.2 fun hgood => hdone hgood.1
          exact ⟨hun, show 5 < n by omega⟩
  | resultSleep =>
      rw [nodeBody]
      split
      · next herror =>
          have hn := hstage.2.2 fun hgood => herror hgood.2
          exact ⟨hun, show 5 < n by omega⟩
      · exact nodeInitCoap_stage hp hun n

/-! ### Calls -/

/-- What a call of the thread does on its way. -/
theorem nodeConnectThread_returns (hp : p.Fits) (n : ℕ) :
    (nodeConnectThread p unready).Returns (Path n) (Closer n) where
  blocked h hguard := path_blocked h hguard
  passed {l s s'} h hguard := by
    have hprospect : NodeProspect (.wait l) s' := by
      have htested : NodeProspect (.wait l) (nodeGuard l s).1 :=
        ⟨h.1.1.nodeGuard l, h.1.2.leaves (nodeGuard_leaves l s)⟩
      have heq : nodeGuard l s = (s', some true) := hguard
      rw [heq] at htested
      exact htested
    exact ⟨nodeBody_prospect hprospect, nodeBody_stage hp h hguard⟩
  undefined h hguard := (path_defined h hguard).elim
  leaves {j s} h hj := by
    obtain ⟨-, hun, hstage⟩ := h
    refine ⟨hun, ?_⟩
    cases j with
    | wait l => exact absurd rfl (hj l)
    | restart | finish | exit | stuck => exact hstage

/-- The thread is about to be called with nothing in its way. -/
structure Prepared (w : World) : Prop where
  services : Services w
  prospect : Prospect w.app.pThread1 w
  unhindered : Unhindered w
  late : Late w
  ready : w.app.mdns = .client → w.dns.client.ready = true
  answered : w.app.pThread1.any NodeWait.pastTest = true → w.dns.outstanding = []
  client : ∀ l, w.app.pThread1 = some l → l ≠ .connectSleep → l ≠ .mdnsRetrySleep →
    w.app.mdns = .client

/-- Such a thread is on the path. -/
theorem Prepared.stage (h : Prepared w) {l : NodeWait} (hl : w.app.pThread1 = some l) :
    Stage (nodeDistance w.app.pThread1 w) (.wait l) w := by
  have hclient := h.client l hl
  have hpast : l.pastTest = true → 1 ≤ nodeDistance (some l) w ∧
      (¬ GoodAnswer w → 7 ≤ nodeDistance (some l) w) := by
    intro hl'
    have hout : w.dns.outstanding = [] := h.answered (by rw [hl]; exact hl')
    have heq : nodeDistance (some l) w = if GoodAnswer w then 1 else 7 := by
      cases l <;> first | (simp [nodeDistance, hout]; done) | exact absurd hl' (by decide)
    rw [heq]
    split
    · next hgood => exact ⟨le_rfl, fun hnot => absurd hgood hnot⟩
    · exact ⟨by omega, fun _ => le_rfl⟩
  rw [hl]
  cases l with
  | connectSleep => exact ⟨h.late, le_rfl, h.ready⟩
  | mdnsRetrySleep => exact ⟨h.late, le_rfl⟩
  | mdnsInitSleep =>
      have hptr := hclient (by simp) (by simp)
      exact ⟨hptr, le_rfl, Or.inl ⟨h.late, Or.inl (h.ready hptr)⟩⟩
  | mdnsReady =>
      have hptr := hclient (by simp) (by simp)
      exact ⟨hptr, h.late, le_rfl, Or.inl (h.ready hptr)⟩
  | searchSleep =>
      have hptr := hclient (by simp) (by simp)
      exact ⟨hptr, h.ready hptr, le_rfl, Or.inl h.late⟩
  | launchSleep => exact Or.inl ⟨h.late, hpast rfl⟩
  | answer | answerSleep | resultSleep => exact ⟨h.late, hpast rfl⟩

/-- **Progress of the connection thread.** A call with nothing in its way ends the thread, or
brings it closer to its end. -/
theorem nodeConnectThread_closer (hp : p.Fits) (h : Prepared w) {fuel : ℕ} {j : Jump NodeWait}
    (hresume : (nodeConnectThread p unready).resume fuel w.app.pThread1 w = some (w', j)) :
    Closer (nodeDistance w.app.pThread1 w) j w' := by
  have hprospect := h.prospect
  refine (nodeConnectThread_returns hp _).resume (fun hnone => ?_) (fun l hl => ?_) hresume
  · rw [hnone] at hprospect ⊢
    exact ⟨nodeWaitConnected_prospect h.services hprospect rfl,
      nodeWaitConnected_stage hp h.unhindered le_rfl (Or.inl h.late) h.ready⟩
  · refine ⟨⟨h.services, ?_⟩, h.unhindered, h.stage hl⟩
    rw [hl] at hprospect
    exact hprospect

/-- How much is left of the thread. -/
def nodeLeft (w : World) : ℕ := if w.app.pThreadDone1 then 0 else nodeDistance w.app.pThread1 w

/-- No wait is at the end. -/
theorem nodeDistance_pos (lc : Option NodeWait) (w : World) : 0 < nodeDistance lc w := by
  cases lc with
  | none => simp [nodeDistance]
  | some l =>
      cases l <;> simp only [nodeDistance]
      case launchSleep | answer | answerSleep | resultSleep => split <;> omega
      all_goals omega

/-- The firmware calls the thread with nothing in its way: less is left of it. -/
theorem runNode_progress (hp : p.Fits) (h : Prepared w) (hdone : w.app.pThreadDone1 = false)
    (hrun : runNode p unready w = some w') :
    Unhindered w' ∧ w'.fault = false ∧ nodeLeft w' < nodeLeft w := by
  have hleft : nodeLeft w = nodeDistance w.app.pThread1 w := by
    rw [nodeLeft, hdone]
    rfl
  rcases runNode_cases hrun with ⟨hended, -⟩ | ⟨-, w₁, j, hresume, rfl⟩
  · exact absurd (hdone.symm.trans hended) Bool.false_ne_true
  · obtain ⟨hun, hcloser⟩ := nodeConnectThread_closer hp h hresume
    have hpos := nodeDistance_pos w.app.pThread1 w
    have hended : w₁.app.pThreadDone1 = true → ∀ lc : Option NodeWait,
        (if w₁.app.pThreadDone1 = true then 0 else nodeDistance lc w₁) <
          nodeDistance w.app.pThread1 w := by
      intro hended lc
      rw [if_pos hended]
      exact hpos
    have hopen : ∀ lc : Option NodeWait, nodeDistance lc w₁ < nodeDistance w.app.pThread1 w →
        (if w₁.app.pThreadDone1 = true then 0 else nodeDistance lc w₁) <
          nodeDistance w.app.pThread1 w := by
      intro lc hlt
      split
      · exact hpos
      · exact hlt
    rw [hleft]
    cases j with
    | wait l =>
        refine ⟨{ hun with }, by simp, hopen (some l) hcloser⟩
    | restart => exact ⟨{ hun with }, by simp, hopen none hcloser⟩
    | finish => exact ⟨{ hun with }, by simp, hended hcloser none⟩
    | exit | stuck => exact hcloser.elim

end SmartCO2
