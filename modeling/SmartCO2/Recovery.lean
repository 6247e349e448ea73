import SmartCO2.MainLoop
import SmartCO2.Progress
import SmartCO2.Silence

/-!
# Recovery

Whether the node can still report. From every state that is not silenced the environment can lead
the firmware to a post that is accepted and acknowledged: it attaches the node, answers the browse
in time, lets the clock go on and acknowledges the post. So the three causes of `Silenced` are the
only ones.

## Main results

* `canReport_iff`: in every reachable state, some events lead to a report if and only if the
  firmware is not silenced.
-/

namespace SmartCO2

variable {p : Platform} {inp : PassInput} {w w' : World}

/-! ### What is kept on the way -/

/-- The firmware is reachable and not silenced, and its log has gone on since it was `log`. -/
structure Alive (p : Platform) (log : List Obs) (w : World) : Prop where
  reached : ∃ now, (firmware p).Reaches (boot now) w
  fault : w.fault = false
  search : searchOf w.log ≠ .lost
  unwedged : ¬ Wedged w
  since : LogSince log w

namespace Alive

variable {log : List Obs}

/-- The search of a reachable state. -/
theorem searchInvariant (h : Alive p log w) : SearchInvariant w := by
  obtain ⟨now, es, hrun⟩ := h.reached
  exact (searchInvariant_runRule p).run_all (boot_searchInvariant now) hrun

/-- The service discovery client of a reachable state. -/
theorem hasMdns (h : Alive p log w) : HasMdns w := by
  obtain ⟨now, es, hrun⟩ := h.reached
  exact (hasMdns_runRule p).run_all (boot_hasMdns now) hrun

/-- The measurement of a reachable state. -/
theorem measured (h : Alive p log w) : Measured w := by
  obtain ⟨now, es, hrun⟩ := h.reached
  have hboot : Measured (boot now) := ⟨0, 0, 0, by simp, by simp, by simp, rfl⟩
  exact (measured_runRule p).run_all hboot hrun

/-- While the sending process is suspended, the threads are done. -/
theorem suspended (h : Alive p log w) (hack : w.app.sendingProcessPt = some .ack) :
    w.app.pThreadDone1 = true ∧ w.app.pThreadDone3 = true := by
  obtain ⟨now, es, hrun⟩ := h.reached
  exact done_of_suspended (firmware_accepted hrun) h.fault hack

/-- The loop runs, or the timer will set it going. -/
theorem sequenced (h : Alive p log w) : w.run = true ∨ w.timerArmed = true := by
  obtain ⟨now, es, hrun⟩ := h.reached
  obtain ⟨es', hloop⟩ := firmware_refines hrun h.fault
  have hstart : Sequenced (loopStart now) := Or.inl rfl
  exact StepSystem.run_invariant (I := Sequenced) (fun _ _ _ hs hstep => hs.step hstep) hstart hloop

/-- An event that does not silence the firmware. -/
theorem event (h : Alive p log w) {e : Event} (hstep : step p w e = some w')
    (hfault : w'.fault = false) (hsearch : searchOf w'.log ≠ .lost) (hunwedged : ¬ Wedged w') :
    (firmware p).Reaches w w' ∧ Alive p log w' := by
  obtain ⟨now, hreach⟩ := h.reached
  have hsystem : (firmware p).step w e = some w' := hstep
  have hone : (firmware p).Reaches w w' := .head hsystem (.refl _ _)
  exact ⟨hone, ⟨now, hreach.trans hone⟩, hfault, hsearch, hunwedged,
    (logSince_runRule p log).step h.since trivial hstep⟩

/-- The timer sets the loop going, if it does not run. -/
theorem wakes (h : Alive p log w) : ∃ armed,
    (firmware p).Reaches w { w with run := true, timerArmed := armed } ∧
      Alive p log { w with run := true, timerArmed := armed } := by
  cases hrun : w.run with
  | true =>
      have hsame : { w with run := true, timerArmed := w.timerArmed } = w := by rw [← hrun]
      refine ⟨w.timerArmed, ?_, ?_⟩
      · rw [hsame]
        exact .refl _ _
      · rw [hsame]
        exact h
  | false =>
      have harmed : w.timerArmed = true :=
        h.sequenced.resolve_left fun hgo => absurd (hrun.symm.trans hgo) (by simp)
      have hfires : timerCallback true w = { w with run := true, timerArmed := false } := by
        rw [timerCallback, if_pos (by simp [harmed])]
      have hstep : step p w .timer = some { w with run := true, timerArmed := false } := by
        rw [step, if_neg (by simp [h.fault]), ← hfires]
        exact if_pos harmed
      exact ⟨false, h.event hstep h.fault h.search h.unwedged⟩

/-- The clock goes on. -/
theorem clock (h : Alive p log w) (now : UInt32) :
    (firmware p).Reaches w { w with clock.now := now } ∧
      Alive p log { w with clock.now := now } := by
  have hstep : step p w (.clock now) = some { w with clock.now := now } := by
    rw [step, if_neg (by simp [h.fault])]
  exact h.event hstep h.fault h.search h.unwedged

end Alive

/-- At some time, a base is long past. -/
theorem exists_late (base : UInt64) : ∃ now : UInt32, 15000 ≤ now.toUInt64 - base := by
  by_cases h : 15000 ≤ (0 : UInt32).toUInt64 - base
  · exact ⟨0, h⟩
  · refine ⟨15000, ?_⟩
    rw [UInt64.le_iff_toNat_le] at h ⊢
    rw [UInt64.toNat_sub] at h ⊢
    have hbase := base.toNat_lt
    simp at h ⊢
    omega

/-- A pass ends with what the application has done, and with the timer as the loop leaves it. -/
theorem step_unready (hfault : w.fault = false) (hrun : w.run = true) : ∃ w₁ armed,
    appProcessAction p unready { w with clock.ahead := [] } = some w₁ ∧
      step p w (.pass unready) = some { w₁ with clock.ahead := [], timerArmed := armed } := by
  obtain ⟨w₁, happ⟩ := Option.isSome_iff_exists.mp
    (appProcessAction_isSome p unready { w with clock.ahead := [] })
  have hpass : mainLoopPass p unready w =
      (appProcessAction p unready { w with clock.ahead := [] }).bind fun w₁ =>
        if w₁.fault then some { w₁ with clock.ahead := [] }
        else if w₁.run then some { w₁ with clock.ahead := [] }
        else some { w₁ with clock.ahead := [], timerArmed := true } := by
    rw [mainLoopPass, if_pos hrun]
    rfl
  have hstep : step p w (.pass unready) = mainLoopPass p unready w := by
    rw [step, if_neg (by simp [hfault])]
  rw [hstep, hpass, happ, Option.bind_some]
  split
  · exact ⟨w₁, w₁.timerArmed, rfl, rfl⟩
  · split
    · exact ⟨w₁, w₁.timerArmed, rfl, rfl⟩
    · exact ⟨w₁, true, rfl, rfl⟩

namespace Alive

variable {log : List Obs}

/-- A suspended sending process is brought to the end of its cycle. -/
theorem endsCycle (h : Alive p log w) (hrun : w.run = true)
    (hack : w.app.sendingProcessPt = some .ack) :
    ∃ w', (firmware p).Reaches w w' ∧ Alive p log w' ∧ w'.app.sendingProcessPt = none := by
  obtain ⟨now, hnow⟩ := exists_late w.senderThen
  obtain ⟨hreach, hclock⟩ := h.clock now
  obtain ⟨w₁, armed, happ, hstep⟩ := step_unready (p := p) hclock.fault hrun
  obtain ⟨hnode, hsensor⟩ := h.suspended hack
  have hends : ∃ notes, (∀ o ∈ notes, o.settles = false) ∧ w₁.log = notes ++ w.log ∧
      w₁.fault = false ∧ w₁.app.sendingProcessPt = none ∧ w₁.app.coap = w.app.coap ∧
      w₁.coap = w.coap := by
    obtain ⟨w₂, hrunNode, hcase⟩ := appProcessAction_cases happ
    rcases runNode_cases hrunNode with ⟨-, rfl⟩ | ⟨hnot, -⟩
    · rcases hcase with ⟨hstuck, -⟩ | ⟨-, w₃, hrunSensor, hrunSender⟩
      · exact absurd (h.fault.symm.trans hstuck) Bool.false_ne_true
      · rcases runSensor_cases hrunSensor with ⟨-, rfl⟩ | ⟨hnot, -⟩
        · have hdeadline : 5000 ≤ now.toUInt64 - w.senderThen := UInt64.le_trans (by decide) hnow
          have hdone : (w.app.pThreadDone1 && true && w.app.pThreadDone3 && true) = true := by
            simp [hnode, hsensor]
          obtain ⟨notes, hended⟩ := runSender_late hrunSender rfl hdeadline hack hdone
          exact ⟨notes, hended⟩
        · exact absurd (hnot.symm.trans hsensor) Bool.false_ne_true
    · exact absurd (hnot.symm.trans hnode) Bool.false_ne_true
  obtain ⟨notes, hnotes, hlog, hfault, hended, hptr, hsvc⟩ := hends
  obtain ⟨hreach', halive⟩ := hclock.event hstep hfault
    (by
      rw [hlog, searchOf_append hnotes]
      exact h.search)
    (by
      rw [Wedged, hptr, hsvc]
      exact h.unwedged)
  exact ⟨_, hreach.trans hreach', halive, hended⟩

/-- The request that keeps the client busy is answered. -/
theorem frees (h : Alive p log w) : ∃ w', (firmware p).Reaches w w' ∧ Alive p log w' ∧
    w'.app = w.app ∧ w'.run = w.run ∧ (w'.app.coap = .client → w'.coap.client.busy = false) := by
  by_cases hfree : w.app.coap = .client → w.coap.client.busy = false
  · exact ⟨w, .refl _ _, h, rfl, rfl, hfree⟩
  · obtain ⟨hclient, hbusy⟩ := Classical.not_imp.mp hfree
    obtain ⟨r, rest, hout⟩ := List.exists_cons_of_ne_nil fun hnil =>
      h.unwedged ⟨hclient, Bool.not_eq_false _ ▸ hbusy, hnil⟩
    have hr : w.coap.outstanding[0]? = some r := by rw [hout]; rfl
    obtain ⟨svc, -, -, hsvc, heq⟩ :=
      h.searchInvariant.services.requestCallback_eq hr .none false
    have hidle : svc.client.busy = false := by rw [hsvc]
    have hstep : step p w (.callback 0 .none false) = some (requestCallback w 0 r .none false) := by
      rw [step, if_neg (by simp [h.fault])]
      exact congrArg (Option.map _) hr
    rw [heq] at hstep
    have hsettles : ∀ o ∈ [Obs.callback r.message .none], o.settles = false := by
      simp [Obs.settles, Obs.disturbs]
    have hsearch := searchOf_append hsettles w.log
    obtain ⟨hreach, halive⟩ := h.event hstep h.fault
      (fun hlost => h.search (hsearch.symm.trans hlost))
      (fun hwedged => absurd (hidle.symm.trans hwedged.2.1) Bool.false_ne_true)
    exact ⟨_, hreach, halive, rfl, rfl, fun _ => hidle⟩

end Alive

/-- A new cycle runs, and nothing has been posted in it. -/
structure Awake (p : Platform) (log : List Obs) (w : World) : Prop extends Alive p log w where
  run : w.run = true
  unposted : w.app.sendingProcessPt = none
  free : w.app.coap = .client → w.coap.client.busy = false

/-- Every firmware that is not silenced comes to a new cycle. -/
theorem Alive.awakes {log : List Obs} (h : Alive p log w) :
    ∃ w', (firmware p).Reaches w w' ∧ Awake p log w' := by
  have hunposted : ∃ w', (firmware p).Reaches w w' ∧ Alive p log w' ∧
      w'.app.sendingProcessPt = none := by
    cases hack : w.app.sendingProcessPt with
    | none => exact ⟨w, .refl _ _, h, hack⟩
    | some l =>
        obtain ⟨armed, hreach, halive⟩ := h.wakes
        obtain ⟨w₁, hreach', hends⟩ := halive.endsCycle rfl hack
        exact ⟨w₁, hreach.trans hreach', hends⟩
  obtain ⟨w₁, hreach₁, h₁, hended⟩ := hunposted
  obtain ⟨armed, hreach₂, h₂⟩ := h₁.wakes
  obtain ⟨w₃, hreach₃, h₃, happ, hrun, hfree⟩ := h₂.frees
  exact ⟨w₃, (hreach₁.trans hreach₂).trans hreach₃,
    { h₃ with run := hrun, unposted := by rw [happ]; exact hended, free := hfree }⟩

/-! ### What the environment does before a pass -/

/-- An answer without TXT data: the address stays what it is. -/
def bareResponse : BrowseResponse := ⟨.none, .none, .none, []⟩

/-- It ends the browse without an error. -/
theorem browseCallback_bare (h : Services w) (hout : w.dns.outstanding ≠ []) : ∃ dns mem,
    dns.outstanding = [] ∧ dns.client.ready = w.dns.client.ready ∧ mem.bool .app = true ∧
      mem.error .app = .none ∧ browseCallback p w 0 .none bareResponse [] =
        ({ w with dns := dns, mem := mem } : World).note
          (.browseDone (w.app.pThread1.any NodeWait.pastTest) .none) := by
  rcases h.browse with ⟨-, hnil⟩ | ⟨⟨a, d, e⟩, -, hone, haddr, hdone, herr⟩
  · exact absurd hnil hout
  · obtain rfl := h.browseDone d hdone
    obtain rfl := h.browseError e herr
    have hresult : browseResult p.ip6FromString .none bareResponse [] (w.mem.address a) =
        some (.none, w.mem.address a) := rfl
    have hcallback := result_eq_some haddr hdone herr hresult 0
    refine ⟨{ w.dns with client := { w.dns.client with busy := false },
                         outstanding := w.dns.outstanding.eraseIdx 0 },
      ((w.mem.setAddress a (w.mem.address a)).setBool .app true).setError .app .none, ?_, rfl,
      by simp, by simp, ?_⟩
    · rw [hone]
      rfl
    · rw [browseCallback, hcallback]
      simp

/-- How far the post of the cycle is: the connection thread has to end, and then the sensor
thread. -/
def distance (w : World) : ℕ := 3 * nodeLeft w + sensorDistance w

/-- The environment has brought the post no farther away, and left the bases of the sleeps alone. -/
structure Environs (w w' : World) : Prop where
  distance : distance w' = distance w
  ended : w'.app.pThreadDone1 = w.app.pThreadDone1
  thenTime : w'.app.thenTime = w.app.thenTime
  timeLog : w'.timeLog = w.timeLog

/-- One after the other. -/
theorem Environs.trans {w₁ w₂ w₃ : World} (h : Environs w₁ w₂) (h' : Environs w₂ w₃) :
    Environs w₁ w₃ :=
  ⟨h'.distance.trans h.distance, h'.ended.trans h.ended, h'.thenTime.trans h.thenTime,
    h'.timeLog.trans h.timeLog⟩

namespace Awake

variable {log : List Obs}

/-- An event that neither posts nor stops the loop. -/
theorem event (h : Awake p log w) {e : Event} (hstep : step p w e = some w')
    (hfault : w'.fault = false) (hsearch : searchOf w'.log ≠ .lost) (hrun : w'.run = true)
    (hunposted : w'.app.sendingProcessPt = none)
    (hfree : w'.app.coap = .client → w'.coap.client.busy = false) :
    (firmware p).Reaches w w' ∧ Awake p log w' := by
  obtain ⟨hreach, halive⟩ := h.toAlive.event hstep hfault hsearch
    fun hwedged => absurd ((hfree hwedged.1).symm.trans hwedged.2.1) Bool.false_ne_true
  exact ⟨hreach, { halive with run := hrun, unposted := hunposted, free := hfree }⟩

/-- The node is attached. -/
theorem attaches (h : Awake p log w) : ∃ w', (firmware p).Reaches w w' ∧ Awake p log w' ∧
    Environs w w' ∧ w'.app.connected = true := by
  have hstep : step p w (.role true .child) =
      some (({ w with app.connected := true }).note (.role true)) := by
    rw [step, if_neg (by simp [h.fault])]
    rfl
  have hsettles : ∀ o ∈ [Obs.role true], o.settles = false := by
    simp [Obs.settles, Obs.disturbs]
  have hsearch := searchOf_append hsettles w.log
  obtain ⟨hreach, hawake⟩ := h.event hstep h.fault
    (fun hlost => h.search (hsearch.symm.trans hlost)) h.run h.unposted h.free
  exact ⟨_, hreach, hawake, ⟨rfl, rfl, rfl, rfl⟩, rfl⟩

/-- The service discovery client, where there is one, is ready. -/
theorem readies (h : Awake p log w) : ∃ w', (firmware p).Reaches w w' ∧ Awake p log w' ∧
    Environs w w' ∧ w'.app.connected = w.app.connected ∧
    (w'.app.mdns = .client → w'.dns.client.ready = true) := by
  by_cases hclient : w.app.mdns = .client
  · have hregistered := h.hasMdns.registered hclient
    have hstep : step p w (.autostart (some ⟨0, 53⟩)) =
        some { w with dns := w.dns.autostart (some ⟨0, 53⟩) } := by
      rw [step, if_neg (by simp [h.fault])]
      exact if_pos hregistered
    obtain ⟨hreach, hawake⟩ := h.event hstep h.fault h.search h.run h.unposted h.free
    exact ⟨_, hreach, hawake, ⟨rfl, rfl, rfl, rfl⟩, rfl, fun _ => rfl⟩
  · exact ⟨w, .refl _ _, h, ⟨rfl, rfl, rfl, rfl⟩, rfl, fun hptr => absurd hptr hclient⟩

/-- A browse, if its thread waits for it, is answered. -/
theorem answers (h : Awake p log w) : ∃ w', (firmware p).Reaches w w' ∧ Awake p log w' ∧
    Environs w w' ∧ w'.app = w.app ∧ w'.dns.client.ready = w.dns.client.ready ∧
    (w'.app.pThread1.any NodeWait.pastTest = true → w'.dns.outstanding = []) := by
  have hservices := h.searchInvariant.services
  by_cases hwaits : w.app.pThread1.any NodeWait.pastTest = true ∧ w.dns.outstanding ≠ []
  · obtain ⟨hpast, hout⟩ := hwaits
    obtain ⟨dns, mem, hnil, hready, hdone, herror, heq⟩ :=
      browseCallback_bare (p := p) hservices hout
    have hstep : step p w (.browseResult 0 .none bareResponse []) =
        some (browseCallback p w 0 .none bareResponse []) := by
      rw [step, if_neg (by simp [h.fault])]
      exact if_pos (List.length_pos_of_ne_nil hout)
    rw [heq, hpast] at hstep
    have hsettles : ∀ o ∈ [Obs.browseDone true .none], o.settles = false := by
      simp [Obs.settles, Obs.disturbs]
    have hsearch := searchOf_append hsettles w.log
    obtain ⟨hreach, hawake⟩ := h.event hstep h.fault
      (fun hlost => h.search (hsearch.symm.trans hlost)) h.run h.unposted h.free
    refine ⟨_, hreach, hawake, ⟨?_, rfl, rfl, rfl⟩, rfl, hready, fun _ => hnil⟩
    have hgood : GoodAnswer (({ w with dns := dns, mem := mem } : World).note
      (.browseDone true .none)) := ⟨hdone, herror⟩
    have hbefore := nodeDistance_past hpast (Or.inl hout)
    have hafter := nodeDistance_past hpast (Or.inr hgood)
    exact congrArg (fun n => 3 * (if w.app.pThreadDone1 then 0 else n) + sensorDistance w)
      (hafter.trans hbefore.symm)
  · refine ⟨w, .refl _ _, h, ⟨rfl, rfl, rfl, rfl⟩, rfl, rfl, fun hpast => ?_⟩
    by_contra hout
    exact hwaits ⟨hpast, hout⟩

/-- The clock goes on until a base is long past. -/
theorem late (h : Awake p log w) (base : UInt64) : ∃ now : UInt32,
    15000 ≤ now.toUInt64 - base ∧
      (firmware p).Reaches w { w with clock := ⟨now, w.clock.ahead⟩ } ∧
      Awake p log { w with clock := ⟨now, w.clock.ahead⟩ } := by
  obtain ⟨now, hnow⟩ := exists_late base
  have hstep : step p w (.clock now) = some { w with clock := ⟨now, w.clock.ahead⟩ } := by
    rw [step, if_neg (by simp [h.fault])]
  exact ⟨now, hnow, h.event hstep h.fault h.search h.run h.unposted h.free⟩

/-- **Before a pass** the environment can do all that the threads wait for, and let the clock go on
until a base is long past. -/
theorem prepared (h : Awake p log w) (base : UInt64) : ∃ w', (firmware p).Reaches w w' ∧
    Awake p log w' ∧ Environs w w' ∧ w'.app.connected = true ∧
    (w'.app.mdns = .client → w'.dns.client.ready = true) ∧
    (w'.app.pThread1.any NodeWait.pastTest = true → w'.dns.outstanding = []) ∧
    15000 ≤ w'.clock.now.toUInt64 - base := by
  obtain ⟨w₁, hreach₁, h₁, henv₁, hconnected₁⟩ := h.attaches
  obtain ⟨w₂, hreach₂, h₂, henv₂, hconnected₂, hready₂⟩ := h₁.readies
  obtain ⟨w₃, hreach₃, h₃, henv₃, happ₃, hready₃, hanswered₃⟩ := h₂.answers
  obtain ⟨now, hnow, hreach₄, h₄⟩ := h₃.late base
  have hreach := ((hreach₁.trans hreach₂).trans hreach₃).trans hreach₄
  have henv := (henv₁.trans henv₂).trans henv₃
  refine ⟨_, hreach, h₄, ⟨henv.distance, henv.ended, henv.thenTime, henv.timeLog⟩, ?_, ?_,
    hanswered₃, hnow⟩
  · rw [happ₃]
    exact hconnected₂.trans hconnected₁
  · rw [happ₃, hready₃]
    exact hready₂

end Awake

/-! ### A pass -/

/-- What the rule of passes says of the call of the sending process. -/
theorem PassRule.beforeSender {I : World → Prop} (hI : PassRule p I) {w₁ w₂ : World}
    (hfault : w.fault = false) (h : I w)
    (hnode : runNode p inp { w with clock.ahead := inp.clock } = some w₁)
    (hfault₁ : w₁.fault = false)
    (hsensor : runSensor inp { w₁ with app.pThreadDone2 := true } = some w₂) :
    I { w₂ with app.pThreadDone4 := true } := by
  have hbegin := hI.idle ⟨w.clock.now, inp.clock⟩ w.run w.timerArmed w.app.pThreadDone2
    w.app.pThreadDone4 h
  have h₁ : I w₁ := by
    refine hI.node ?_ hbegin hnode
    exact hfault
  have hsecond := hI.idle w₁.clock w₁.run w₁.timerArmed true w₁.app.pThreadDone4 h₁
  have h₂ : I w₂ := by
    refine hI.sensor ?_ hsecond hsensor
    exact hfault₁
  exact hI.idle w₂.clock w₂.run w₂.timerArmed w₂.app.pThreadDone2 true h₂

/-- A post since the log was `log` is accepted, and its request outstanding. -/
def Posted (p : Platform) (log : List Obs) (w : World) : Prop :=
  (∃ now, (firmware p).Reaches (boot now) w) ∧ w.fault = false ∧
    ∃ r q new earlier, w.log = new ++ .post r :: (earlier ++ log) ∧
      r.accepted = some q.message ∧ q ∈ w.coap.outstanding

/-- The environment has done what the threads wait for, and the base of the thread that has to go on
is long past. -/
structure SetUp (p : Platform) (log : List Obs) (w : World) : Prop extends Awake p log w where
  connected : w.app.connected = true
  ready : w.app.mdns = .client → w.dns.client.ready = true
  answered : w.app.pThread1.any NodeWait.pastTest = true → w.dns.outstanding = []
  late : w.app.pThreadDone1 = false → Late w
  sensorLate : w.app.pThreadDone1 = true → SensorLate w

namespace SetUp

variable {log : List Obs}

/-- The connection thread gets closer to its end, or has ended and is not called. -/
theorem node (hp : p.Fits) (h : SetUp p log w) {w₁ : World}
    (hrun : runNode p unready { w with clock.ahead := [] } = some w₁) :
    Unhindered w₁ ∧ w₁.fault = false ∧ sensorDistance w₁ = sensorDistance w ∧
      ((w.app.pThreadDone1 = false ∧ nodeLeft w₁ < nodeLeft w) ∨
        (w₁.app.pThreadDone1 = true ∧ nodeLeft w₁ = nodeLeft w ∧ SensorLate w₁)) := by
  have hun : Unhindered { w with clock.ahead := [] } := ⟨rfl, h.connected, h.search, h.free⟩
  rcases runNode_cases hrun with ⟨hdone, rfl⟩ | ⟨hdone, w₂, j, hresume, heq⟩
  · exact ⟨hun, h.fault, rfl, Or.inr ⟨hdone, rfl, h.sensorLate hdone⟩⟩
  · have hs := (searchInvariant_runRule p).idle ⟨w.clock.now, []⟩ w.run w.timerArmed
      w.app.pThreadDone2 w.app.pThreadDone4 h.searchInvariant
    have hprepared : Prepared { w with clock.ahead := [] } :=
      ⟨hs.services, hs.prospect, hun, h.late hdone, h.ready, h.answered, h.hasMdns.client⟩
    obtain ⟨hun', hfault', hless⟩ := runNode_progress hp hprepared hdone hrun
    refine ⟨hun', hfault', ?_, Or.inl ⟨hdone, hless⟩⟩
    obtain ⟨_, _, _, _, _, _, _, _, _, rfl⟩ := nodeConnectThread_frame hresume
    rw [heq]
    rfl

/-- The sensor thread gets closer to its end, or the connection thread did. -/
theorem sensor (hp : p.Fits) (h : SetUp p log w) {w₁ w₂ : World}
    (hnode : runNode p unready { w with clock.ahead := [] } = some w₁)
    (hsensor : runSensor unready { w₁ with app.pThreadDone2 := true } = some w₂) :
    searchOf w₂.log ≠ .lost ∧ (w₂.app.coap = .client → w₂.coap.client.busy = false) ∧
      w₂.fault = false ∧ w₂.app.pThreadDone2 = true ∧ (distance w₂ < distance w ∨
        (w₂.app.pThreadDone1 = true ∧ w₂.app.pThreadDone3 = true)) := by
  obtain ⟨hun, hfault, hsame, hcase⟩ := h.node hp hnode
  obtain ⟨hle, hlt⟩ := runSensor_distance (w := { w₁ with app.pThreadDone2 := true }) hun.ahead
    hsensor
  have hsearch := (LeavesSearch.runSensor hsensor).2.searchOf_eq
  have hframe : w₂.app.coap = w₁.app.coap ∧ w₂.coap = w₁.coap ∧ w₂.fault = w₁.fault ∧
      nodeLeft w₂ = nodeLeft w₁ ∧ w₂.app.pThreadDone1 = w₁.app.pThreadDone1 ∧
      w₂.app.pThreadDone2 = true := by
    rcases runSensor_cases hsensor with ⟨-, rfl⟩ | ⟨-, w₃, j, hresume, rfl⟩
    · exact ⟨rfl, rfl, rfl, rfl, rfl, rfl⟩
    · obtain ⟨_, _, _, _, _, _, _, _, rfl, -⟩ := scd41UpdateValueThread_frame hresume
      exact ⟨rfl, rfl, rfl, rfl, rfl, rfl⟩
  obtain ⟨hptr, hsvc, hfault', hleft, hended, hsecond⟩ := hframe
  refine ⟨fun hlost => hun.search (hsearch.symm.trans hlost), ?_, hfault'.trans hfault, hsecond, ?_⟩
  · rw [hptr, hsvc]
    exact hun.free
  · have hsensor₁ : sensorDistance { w₁ with app.pThreadDone2 := true } = sensorDistance w := hsame
    rcases hcase with ⟨-, hless⟩ | ⟨hdone, heq, hlate⟩
    · have hbound := sensorDistance_le w
      left
      rw [distance, distance]
      omega
    · by_cases hzero : sensorDistance w = 0
      · right
        refine ⟨hended.trans hdone, sensorDistance_eq_zero.mp ?_⟩
        omega
      · left
        have hless := hlt hlate (by omega)
        rw [distance, distance]
        omega

/-- **A pass** posts, or brings the post closer. -/
theorem pass (hp : p.Fits) (h : SetUp p log w) : ∃ w', (firmware p).Reaches w w' ∧
    (Posted p log w' ∨ (Awake p log w' ∧ distance w' < distance w)) := by
  obtain ⟨w₃, armed, happ, hstep⟩ := step_unready (p := p) h.fault h.run
  have hsystem : (firmware p).step w (.pass unready) =
      some { w₃ with clock.ahead := [], timerArmed := armed } := hstep
  have hreach : (firmware p).Reaches w { w₃ with clock.ahead := [], timerArmed := armed } :=
    .head hsystem (.refl _ _)
  obtain ⟨w₁, hnode, hcase⟩ := appProcessAction_cases happ
  obtain ⟨-, hfault₁, -, -⟩ := h.node hp hnode
  rcases hcase with ⟨hstuck, -⟩ | ⟨-, w₂, hsensor, hsender⟩
  · exact absurd (hfault₁.symm.trans hstuck) Bool.false_ne_true
  obtain ⟨hsearch, hfree, hfault₂, hsecond, hcloser⟩ := h.sensor hp hnode hsensor
  have hunposted : w₂.app.sendingProcessPt = none :=
    ((LeavesSender.runSensor hsensor).suspended.trans
      (LeavesSender.runNode hnode).suspended).trans h.unposted
  by_cases hdone : w₂.app.pThreadDone1 = true ∧ w₂.app.pThreadDone3 = true
  · have hs := (searchInvariant_runRule p).toPassRule.beforeSender h.fault h.searchInvariant
      hnode hfault₁ hsensor
    have hmeasured := (measured_runRule p).toPassRule.beforeSender h.fault h.measured
      hnode hfault₁ hsensor
    obtain ⟨earlier, hearlier, -⟩ := (logSince_runRule p log).toPassRule.beforeSender h.fault
      h.since hnode hfault₁ hsensor
    have hclient : w₂.app.coap = .client := (hs.prospect.coap_iff hdone.1).mpr (by
      by_contra hdisturbed
      exact hsearch (searchOf_eq_lost_iff.mpr hdisturbed))
    have hall : (w₂.app.pThreadDone1 && w₂.app.pThreadDone2 && w₂.app.pThreadDone3 && true) =
        true := by
      simp [hdone, hsecond]
    obtain ⟨r, q, new, hlog, haccepted, hmem, hfault₃⟩ :=
      runSender_accepted hp hsender hclient (hfree hclient) hmeasured hunposted hall
    obtain ⟨now, hboot⟩ := h.reached
    refine ⟨_, hreach, Or.inl ⟨⟨now, hboot.trans hreach⟩, hfault₃, r, q, new, earlier, ?_,
      haccepted, hmem⟩⟩
    rw [hlog, hearlier]
  · rcases runSender_cases hsender with ⟨-, rfl⟩ | ⟨hdone₁, hdone₃, -⟩
    · have hrun₁ : w₁.run = true := (runNode_run hnode).trans h.run
      have hrun : w₂.run = true := (runSensor_run hsensor).trans hrun₁
      obtain ⟨hreach', hawake⟩ := h.event hstep hfault₂ hsearch hrun hunposted hfree
      exact ⟨_, hreach', Or.inr ⟨hawake, hcloser.resolve_right hdone⟩⟩
    · exact absurd ⟨hdone₁, hdone₃⟩ hdone

end SetUp

/-- **Progress.** From a new cycle the environment leads the firmware to a post, or brings the post
closer. -/
theorem Awake.progress {log : List Obs} (hp : p.Fits) (h : Awake p log w) : ∃ w',
    (firmware p).Reaches w w' ∧
      (Posted p log w' ∨ (Awake p log w' ∧ distance w' < distance w)) := by
  have hsetUp : ∃ w₁, (firmware p).Reaches w w₁ ∧ SetUp p log w₁ ∧ distance w₁ = distance w := by
    -- the thread that has to go on is the one whose base has to be past
    cases hdone : w.app.pThreadDone1 with
    | false =>
        obtain ⟨w₁, hreach, hawake, henv, hconnected, hready, hanswered, hlate⟩ :=
          h.prepared w.app.thenTime
        have hdone₁ : w₁.app.pThreadDone1 = false := henv.ended.trans hdone
        have hlate₁ : Late w₁ := by
          rw [Late, henv.thenTime]
          exact hlate
        exact ⟨w₁, hreach, ⟨hawake, hconnected, hready, hanswered, fun _ => hlate₁, fun hend =>
          absurd (hdone₁.symm.trans hend) Bool.false_ne_true⟩, henv.distance⟩
    | true =>
        obtain ⟨w₁, hreach, hawake, henv, hconnected, hready, hanswered, hlate⟩ :=
          h.prepared w.timeLog
        have hdone₁ : w₁.app.pThreadDone1 = true := henv.ended.trans hdone
        have hlate₁ : SensorLate w₁ := by
          rw [SensorLate, henv.timeLog]
          exact UInt64.le_trans (by decide) hlate
        exact ⟨w₁, hreach, ⟨hawake, hconnected, hready, hanswered, fun hopen =>
          absurd (hopen.symm.trans hdone₁) Bool.false_ne_true, fun _ => hlate₁⟩, henv.distance⟩
  obtain ⟨w₁, hreach₁, hset, hsame⟩ := hsetUp
  obtain ⟨w₂, hreach₂, hcase⟩ := hset.pass hp
  rw [hsame] at hcase
  exact ⟨w₂, hreach₁.trans hreach₂, hcase⟩

/-! ### Reports -/

/-- Some events lead to a report: a new post that is accepted, and the callback of its request,
without an error. -/
def CanReport (p : Platform) (w : World) : Prop :=
  ∃ es w' m r between earlier, (firmware p).run w es = some w' ∧
    w'.log = .callback m .none :: (between ++ .post r :: (earlier ++ w.log)) ∧ r.accepted = some m

/-- An accepted post is acknowledged. -/
theorem Posted.acknowledged {log : List Obs} (h : Posted p log w) : ∃ w' m r between earlier,
    (firmware p).Reaches w w' ∧ r.accepted = some m ∧
      w'.log = .callback m .none :: (between ++ .post r :: (earlier ++ log)) := by
  obtain ⟨⟨now, es, hrun⟩, hfault, r, q, between, earlier, hlog, haccepted, hmem⟩ := h
  have hservices : Services w :=
    ((searchInvariant_runRule p).run_all (boot_searchInvariant now) hrun).services
  obtain ⟨i, hi, hget⟩ := List.getElem_of_mem hmem
  have hq : w.coap.outstanding[i]? = some q := by rw [List.getElem?_eq_getElem hi, hget]
  obtain ⟨svc, -, -, -, heq⟩ := hservices.requestCallback_eq hq .none false
  have hstep : (firmware p).step w (.callback i .none false) =
      some (requestCallback w i q .none false) := by
    have hmap : step p w (.callback i .none false) =
        w.coap.outstanding[i]?.map fun r => requestCallback w i r .none false := by
      rw [step, if_neg (by simp [hfault])]
    exact hmap.trans (congrArg (Option.map _) hq)
  rw [heq] at hstep
  refine ⟨_, q.message, r, between, earlier, .head hstep (.refl _ _), haccepted, ?_⟩
  exact congrArg (List.cons _) hlog

/-- **The node can report again unless it is silenced**: in every reachable state some events lead
to a report, if and only if no operation was undefined, the search was not disturbed, and the
client is not busy with nothing. -/
theorem canReport_iff (hp : p.Fits) (now : UInt32) (es : List Event)
    (hrun : (firmware p).run (boot now) es = some w) : CanReport p w ↔ ¬ Silenced w := by
  constructor
  · rintro ⟨es', w', m, r, between, earlier, hrun', hlog, haccepted⟩ hsilenced
    have hsearch := (searchInvariant_runRule p).run_all (boot_searchInvariant now) hrun
    have hsame := hsilenced.accepted_eq hsearch hrun'
    rw [hlog] at hsame
    simp [accepted, Obs.isAccepted, haccepted] at hsame
    omega
  · intro hsilenced
    have halive : Alive p w.log w := by
      refine ⟨⟨now, es, hrun⟩, ?_, ?_, ?_, [], rfl, by simp⟩
      · exact Bool.not_eq_true _ ▸ fun hfault => hsilenced (Or.inl hfault)
      · exact fun hlost => hsilenced (Or.inr (Or.inl (searchOf_eq_lost_iff.mp hlost)))
      · exact fun hwedged => hsilenced (Or.inr (Or.inr hwedged))
    obtain ⟨w₁, hreach₁, hawake⟩ := halive.awakes
    obtain ⟨w₂, hreach₂, hposted⟩ :=
      StepSystem.Reaches.of_rank distance (fun _ h => h.progress hp) hawake
    obtain ⟨w₃, m, r, between, earlier, hreach₃, haccepted, hlog⟩ := hposted.acknowledged
    obtain ⟨es', hrun'⟩ := (hreach₁.trans hreach₂).trans hreach₃
    exact ⟨es', w₃, m, r, between, earlier, hrun', hlog, haccepted⟩

/-- The texts of `config_.h` and `config_.c` fit. -/
theorem Platform.configured_fits (ip6FromString : List UInt8 → Ip6Address → OtError × Ip6Address) :
    (Platform.configured ip6FromString).Fits where
  serviceName := (by decide : appServiceName.length < serviceMaxLen)
  uri := (by decide : (appUriTemplate appToken).length < uriMaxLen)
  message _ _ _ hco2 hrh htemp := ⟨_, rfl, appMessageTemplate_length_lt hco2 hrh htemp⟩

/-- The first cycle. -/
theorem first_canReport_iff : ∃ w,
    (firmware (.configured parseLoopback)).run (boot 0) firstCycle = some w ∧
      (CanReport (.configured parseLoopback) w ↔ ¬ Silenced w) :=
  ⟨_, rfl, canReport_iff (Platform.configured_fits parseLoopback) 0 firstCycle rfl⟩

end SmartCO2
