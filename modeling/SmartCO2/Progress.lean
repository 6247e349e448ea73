import SmartCO2.NodeProgress
import SmartCO2.Payload

/-!
# Progress of the Sensor Thread and the Sending Process

What the calls of the other two threads do in a pass in which the clock stands still and the
sensor is not ready, and what holds in every reachable state when they are made.

## Main results

* `hasMdns_runRule`, `measured_runRule`: the connection thread has its client where it uses it, and
  the measurement in `_app` is one that can be sent.
* `runSensor_distance`: a call of the sensor thread brings it closer to its end.
* `runSender_accepted`: with a free client, the post of a new cycle is accepted.
* `runSender_late`: a suspended sending process ends its cycle when its deadline has passed.
-/

namespace SmartCO2

variable {p : Platform} {inp : PassInput} {w w' : World}

/-! ### Invariants -/

/-- From the wait behind its start on, the connection thread has its service discovery client, and
the client has registered its callback. -/
structure HasMdns (w : World) : Prop where
  client : ∀ l, w.app.pThread1 = some l → l ≠ .connectSleep → l ≠ .mdnsRetrySleep →
    w.app.mdns = .client
  registered : w.app.mdns = .client → w.dns.registered = true

/-- The assertion at a jump of the connection thread. -/
def NodeHasMdns (j : Jump NodeWait) (w : World) : Prop :=
  j ≠ .stuck ∧
    (∀ l, j = .wait l → l ≠ .connectSleep → l ≠ .mdnsRetrySleep → w.app.mdns = .client) ∧
    (w.app.mdns = .client → w.dns.registered = true)

/-- Autostart callbacks do not register anything. -/
theorem foldl_autostart_registered (autostarts : List (Option SockAddr)) (svc : DnsService Var) :
    (autostarts.foldl DnsService.autostart svc).registered = svc.registered := by
  induction autostarts generalizing svc with
  | nil => rfl
  | cons sock autostarts ih => exact ih (svc.autostart sock)

/-- The connection test. -/
theorem nodeWaitConnected_hasMdns (h : w.app.mdns = .client → w.dns.registered = true) :
    NodeHasMdns (nodeWaitConnected p inp w).2 (nodeWaitConnected p inp w).1 := by
  rw [nodeWaitConnected]
  split
  · rw [nodeInitMdns]
    split
    · next hclient => exact ⟨by simp, fun _ _ _ _ => hclient, h⟩
    · rw [mdnsInit]
      split
      · refine ⟨by simp, fun l hl _ hretry => ?_, fun hclient => absurd hclient (by simp)⟩
        exact absurd (Jump.wait.inj hl).symm hretry
      · exact ⟨by simp, fun _ _ _ _ => rfl, fun _ => foldl_autostart_registered inp.autostarts _⟩
  · refine ⟨by simp, fun l hl hconnect _ => ?_, h⟩
    exact absurd (Jump.wait.inj hl).symm hconnect

/-- A search leaves the registration alone. -/
theorem mdnsScheduleSearch_registered (svc : DnsService Var) (mem : Memory Var)
    (address done error : Var) (browse : OtError) :
    (mdnsScheduleSearch svc mem address done error browse).2.1.registered = svc.registered := by
  rw [mdnsScheduleSearch]
  split
  · rfl
  · split <;> rfl

/-- The tests. Only that of `mdns_is_ready` can be undefined, and there the client is there. -/
theorem nodeGuard_hasMdns {l : NodeWait} (h : NodeHasMdns (.wait l) w) :
    NodeHasMdns (.wait l) (nodeGuard l w).1 ∧ (nodeGuard l w).2 ≠ none := by
  obtain ⟨clock, notes, heq, -⟩ := nodeGuard_eq l w
  refine ⟨?_, ?_⟩
  · rw [heq]
    exact h
  · have hsleep : ∀ x, (nodeSleep l x w).2 ≠ none := by simp [nodeSleep]
    cases l with
    | mdnsReady =>
        have hptr := h.2.1 .mdnsReady rfl (by simp) (by simp)
        simp [nodeGuard, hptr]
    | answer =>
        simp only [nodeGuard]
        split <;> simp
    | _ => exact hsleep _

/-- The blocks of the connection thread. -/
theorem nodeBody_hasMdns {l : NodeWait} (h : NodeHasMdns (.wait l) w) :
    NodeHasMdns (nodeBody p inp l w).2 (nodeBody p inp l w).1 := by
  obtain ⟨-, hclient, hregistered⟩ := h
  cases l with
  | connectSleep =>
      obtain ⟨clock, htick⟩ := w.tick_eq
      simp only [nodeBody, World.now, htick]
      exact nodeWaitConnected_hasMdns hregistered
  | mdnsRetrySleep => exact ⟨by simp [nodeBody], by simp [nodeBody], hregistered⟩
  | searchSleep =>
      have hptr := hclient .searchSleep rfl (by simp) (by simp)
      obtain ⟨clock, htick⟩ := World.tick_eq
        { w with mem := (w.mem.setBool .app false).setError .app .none }
      simp only [nodeBody, nodeSearch, World.now, htick, hptr]
      split
      · exact ⟨by simp [nodeEnd], by simp [nodeEnd], hregistered⟩
      · have hsame := mdnsScheduleSearch_registered w.dns
          ((w.mem.setBool .app false).setError .app .none) .app .app .app inp.browse
        split <;> exact ⟨by simp, fun _ _ _ _ => rfl, fun _ => hsame.trans (hregistered hptr)⟩
  | mdnsInitSleep | mdnsReady | launchSleep | answer =>
      exact ⟨by simp [nodeBody], fun _ _ _ _ => hclient _ rfl (by simp) (by simp), hregistered⟩
  | answerSleep =>
      refine ⟨?_, fun _ _ _ _ => hclient _ rfl (by simp) (by simp), hregistered⟩
      simp only [nodeBody]
      split <;> simp
  | resultSleep =>
      have hptr := hclient .resultSleep rfl (by simp) (by simp)
      simp only [nodeBody]
      split
      · exact ⟨by simp, fun _ _ _ _ => hptr, hregistered⟩
      · rw [nodeInitCoap]
        split
        · exact ⟨by simp [nodeEnd], fun _ _ _ _ => hptr, hregistered⟩
        · simp only
          split <;> exact ⟨by simp [nodeEnd], fun _ _ _ _ => hptr, hregistered⟩

/-- The thread keeps its client, and is never stuck. -/
theorem nodeConnectThread_hasMdns (p : Platform) (inp : PassInput) :
    (nodeConnectThread p inp).Keeps NodeHasMdns where
  blocked {l s s'} hj hguard := by
    obtain rfl : (nodeGuard l s).1 = s' := congrArg Prod.fst hguard
    exact (nodeGuard_hasMdns hj).1
  passed {l s s'} hj hguard := by
    obtain rfl : (nodeGuard l s).1 = s' := congrArg Prod.fst hguard
    exact nodeBody_hasMdns (nodeGuard_hasMdns hj).1
  undefined hj hguard := absurd (congrArg Prod.snd hguard) (nodeGuard_hasMdns hj).2

/-- What leaves the thread, its client and the registration alone. -/
theorem HasMdns.leaves (h : HasMdns w) (hnode : w'.app.pThread1 = w.app.pThread1)
    (hmdns : w'.app.mdns = w.app.mdns) (hregistered : w'.dns.registered = w.dns.registered) :
    HasMdns w' := by
  refine ⟨fun l hl hconnect hretry => ?_, fun hclient => ?_⟩
  · exact hmdns.trans (h.client l (hnode.symm.trans hl) hconnect hretry)
  · exact hregistered.trans (h.registered (hmdns.symm.trans hclient))

/-- A call of thread 1: it does not get stuck. -/
theorem HasMdns.runNode (h : HasMdns w) (hrun : runNode p inp w = some w') :
    HasMdns w' ∧ (w'.fault = true → w.fault = true) := by
  rcases runNode_cases hrun with ⟨-, rfl⟩ | ⟨-, w₁, j, hresume, rfl⟩
  · exact ⟨h, id⟩
  · have hj : NodeHasMdns j w₁ := by
      refine (nodeConnectThread_hasMdns p inp).resume
        (fun _ => nodeWaitConnected_hasMdns h.registered) ?_ hresume
      rintro l hl
      refine ⟨by simp, ?_, h.registered⟩
      rintro l' hl' hconnect hretry
      obtain rfl := Jump.wait.inj hl'
      exact h.client l hl hconnect hretry
    obtain ⟨hdefined, hclient, hregistered⟩ := hj
    refine ⟨⟨fun l hl hconnect hretry => ?_, hregistered⟩, fun hfault => ?_⟩
    · cases j with
      | wait l' => exact hclient l (congrArg Jump.wait (Option.some.inj hl)) hconnect hretry
      | restart | exit | finish | stuck => exact absurd hl (by simp [Jump.continuation])
    · exact absurd (of_decide_eq_true hfault) hdefined

/-- **The service discovery client in runs.** -/
theorem hasMdns_runRule (p : Platform) : RunRule p (fun _ _ => True) HasMdns where
  idle _ _ _ _ _ h := h.leaves rfl rfl rfl
  node _ h hrun := (h.runNode hrun).1
  sensor _ h hrun := by
    rcases runSensor_cases hrun with ⟨-, rfl⟩ | ⟨-, w₁, j, hresume, rfl⟩
    · exact h
    · obtain ⟨_, _, _, _, _, _, _, _, rfl, -⟩ := scd41UpdateValueThread_frame hresume
      exact h.leaves rfl rfl rfl
  sender _ h hrun := by
    rcases runSender_cases hrun with ⟨-, rfl⟩ | ⟨-, -, w₁, j, hresume, rfl⟩
    · exact h
    · obtain ⟨_, _, _, _, _, _, _, _, _, _, _, rfl⟩ := coapSendingProcess_frame hresume
      exact h.leaves rfl rfl rfl
  role changed role _ h := by
    rw [handleNetifStateChanged.eq_def]
    split
    · cases role <;> exact h.leaves rfl rfl rfl
    · exact h
  autostart _ _ h := h.leaves rfl rfl rfl
  browse error response stack _ _ h := by
    rw [browseCallback]
    split
    · next hres =>
        obtain ⟨_, _, _, _, _, -, -, -, -, rfl, -⟩ := DnsService.result_inv hres
        exact h.leaves rfl rfl rfl
    · exact h.leaves rfl rfl rfl
  request error response _ _ _ h := by
    rw [requestCallback]
    split <;> exact h.leaves rfl rfl rfl

/-- There is no client yet. -/
theorem boot_hasMdns (now : UInt32) : HasMdns (boot now) := by
  constructor <;> simp [boot]

/-- A measurement of `uint16_t` values. -/
def Triple.InRange (t : Triple) : Prop :=
  ∃ co2 rh temp : ℕ, co2 ≤ 65535 ∧ rh ≤ 65535 ∧ temp ≤ 65535 ∧ t = ⟨co2, rh, temp⟩

/-- The measurement in `_app` is one. -/
def Measured (w : World) : Prop := w.triple.InRange

/-- A measurement that is decoded is. -/
theorem decode_inRange (rxBuffer : Fin scd41RxBufferSize → UInt8) :
    (decode rxBuffer).InRange := by
  have hword : ∀ n : UInt16, n.toNat ≤ 65535 := fun n => Nat.le_of_lt_succ n.toNat_lt
  exact ⟨_, _, _, hword _, hword _, hword _, rfl⟩

/-- What leaves the measurement alone. -/
theorem Measured.leaves (h : Measured w) (htriple : w'.triple = w.triple) : Measured w' := by
  obtain ⟨co2, rh, temp, hco2, hrh, htemp, heq⟩ := h
  exact ⟨co2, rh, temp, hco2, hrh, htemp, htriple.trans heq⟩

/-- A call of thread 3. -/
theorem Measured.runSensor (h : Measured w) (hrun : runSensor inp w = some w') : Measured w' := by
  rcases runSensor_cases hrun with ⟨-, rfl⟩ | ⟨-, w₁, j, hresume, rfl⟩
  · exact h
  · have hcommand : ∀ l cmd transfer s,
        Measured s → Measured (sensorCommand l cmd transfer s).1 := by
      intro l cmd transfer s hs
      obtain ⟨clock, htick⟩ := s.tick_eq
      simp only [sensorCommand, World.now, htick]
      exact hs.leaves rfl
    have hkeeps : (scd41UpdateValueThread inp).Keeps fun _ s => Measured s := by
      refine Protothread.Keeps.of_tests ?_ ?_ (fun _ _ _ _ hs => hs)
      · intro l s hs
        obtain ⟨clock, htick⟩ := s.tick_eq
        simp only [scd41UpdateValueThread, sensorGuard, World.now, htick]
        exact hs.leaves rfl
      · intro l s hs
        cases l with
        | readySleep =>
            simp only [scd41UpdateValueThread, sensorBody]
            split
            · exact hs.leaves rfl
            · exact hcommand _ _ _ _ (hs.leaves rfl)
        | measSleep =>
            obtain ⟨co2, rh, temp, hco2, hrh, htemp, heq⟩ :=
              decode_inRange (i2cRead s.rxBuffer 9 inp.measRead)
            refine ⟨co2, rh, temp, hco2, hrh, htemp, ?_⟩
            simp only [scd41UpdateValueThread, sensorBody, heq]
            rfl
    have hentry := hcommand .readySleep scd41GetDataRdy inp.readyCmd w h
    have hresumed := hkeeps.resume (fun _ => hentry) (fun _ _ => h) hresume
    exact hresumed.leaves rfl

/-- **The measurement in runs.** -/
theorem measured_runRule (p : Platform) : RunRule p (fun _ _ => True) Measured where
  idle _ _ _ _ _ h := h.leaves rfl
  node _ h hrun := by
    rcases runNode_cases hrun with ⟨-, rfl⟩ | ⟨-, w₁, j, hresume, rfl⟩
    · exact h
    · obtain ⟨_, _, _, _, _, _, _, _, _, rfl⟩ := nodeConnectThread_frame hresume
      exact h.leaves rfl
  sensor _ h hrun := h.runSensor hrun
  sender _ h hrun := by
    rcases runSender_cases hrun with ⟨-, rfl⟩ | ⟨-, -, w₁, j, hresume, rfl⟩
    · exact h
    · obtain ⟨_, _, _, _, _, _, _, _, _, _, _, rfl⟩ := coapSendingProcess_frame hresume
      exact h.leaves rfl
  role changed role _ h := by
    rw [handleNetifStateChanged.eq_def]
    split
    · cases role <;> exact h.leaves rfl
    · exact h
  autostart _ _ h := h.leaves rfl
  browse error response stack _ _ h := by
    rw [browseCallback]
    split <;> exact h.leaves rfl
  request error response _ _ _ h := by
    rw [requestCallback]
    split <;> exact h.leaves rfl

/-- The log has gone on since it was `log`. -/
def LogSince (log : List Obs) (w : World) : Prop := Continues (fun _ => True) log w.log

/-- More of the log. -/
theorem LogSince.grow {log : List Obs} (h : LogSince log w) (new : List Obs)
    (heq : w'.log = new ++ w.log) : LogSince log w' :=
  Continues.trans h ⟨new, heq, fun _ _ => trivial⟩

/-- **The log in runs**: it only grows. -/
theorem logSince_runRule (p : Platform) (log : List Obs) :
    RunRule p (fun _ _ => True) (LogSince log) where
  idle _ _ _ _ _ h := h
  node _ h hrun := by
    obtain ⟨new, heq, -⟩ := (LeavesSender.runNode hrun).log
    exact h.grow new heq
  sensor _ h hrun := by
    obtain ⟨new, heq, -⟩ := (LeavesSender.runSensor hrun).log
    exact h.grow new heq
  sender _ h hrun := by
    rcases runSender_cases hrun with ⟨-, rfl⟩ | ⟨-, -, w₁, j, hresume, rfl⟩
    · exact h
    · obtain ⟨_, _, _, _, _, _, _, _, _, _, new, rfl⟩ := coapSendingProcess_frame hresume
      exact h.grow new rfl
  role {w} changed role _ h := by
    obtain ⟨new, heq, -⟩ := (LeavesSender.role changed role w).log
    exact h.grow new heq
  autostart _ _ h := h
  browse error response stack _ _ h := by
    rw [browseCallback]
    split
    · exact h.grow [_] rfl
    · exact h
  request error response _ _ _ h := by
    rw [requestCallback]
    split
    · exact h.grow [_] rfl
    · exact h

/-! ### Calls of the sensor thread -/

/-- How far the sensor thread is from its end. -/
def sensorDistance (w : World) : ℕ :=
  if w.app.pThreadDone3 then 0
  else
    match w.app.pThread3 with
    | none => 2
    | some _ => 1

/-- The thread is at its end when it has ended. -/
theorem sensorDistance_eq_zero : sensorDistance w = 0 ↔ w.app.pThreadDone3 = true := by
  rw [sensorDistance]
  split
  · next hdone => exact ⟨fun _ => hdone, fun _ => rfl⟩
  · next hdone => split <;> simp [hdone]

/-- A whole cycle of it is two steps. -/
theorem sensorDistance_le (w : World) : sensorDistance w ≤ 2 := by
  rw [sensorDistance]
  split
  · exact Nat.zero_le 2
  · split <;> decide

/-- The base of the sensor's sleeps is past. -/
def SensorLate (w : World) : Prop := 2 ≤ w.clock.now.toUInt64 - w.timeLog

/-- A command, and on to its sleep, which has just begun. -/
theorem sensorEntry_still (h : w.clock.ahead = []) :
    (scd41UpdateValueThread unready).resume 2 none w =
      some ({ w with timeLog := w.clock.now.toUInt64 }, .wait .readySleep) := by
  have hstill : ({ w with timeLog := w.clock.now.toUInt64 } : World).tick =
      { w with timeLog := w.clock.now.toUInt64 } := World.tick_of_ahead_nil h
  simp [Protothread.resume, Protothread.follow, scd41UpdateValueThread, sensorEntry,
    sensorCommand, sensorGuard, World.now, World.tick_of_ahead_nil h, hstill]

/-- A sleep that is not over. -/
theorem sensorWait_early (h : w.clock.ahead = []) (hlate : ¬ SensorLate w) (l : SensorWait) :
    (scd41UpdateValueThread unready).resume 2 (some l) w = some (w, .wait l) := by
  have hfailed : decide (2 ≤ w.clock.now.toUInt64 - w.timeLog) = false := decide_eq_false hlate
  simp only [Protothread.resume, Protothread.follow, scd41UpdateValueThread, sensorGuard,
    World.now, World.tick_of_ahead_nil h, hfailed]

/-- A sleep that is over: a sensor that is not ready ends the thread. -/
theorem sensorWait_late (h : w.clock.ahead = []) (hlate : SensorLate w) (l : SensorWait) :
    ∃ w' j, (scd41UpdateValueThread unready).resume 2 (some l) w = some (w', j) ∧
      w'.app.pThreadDone3 = true := by
  have hready : ∀ rx : Fin scd41RxBufferSize → UInt8,
      rdyValue (i2cRead rx 3 unready.readyRead) = 0 := by
    intro rx
    have hhi : i2cRead rx 3 unready.readyRead 0 = 0x80 := rfl
    have hlo : i2cRead rx 3 unready.readyRead 1 = 0x00 := rfl
    rw [rdyValue, hhi, hlo]
    decide
  have hpassed : decide (2 ≤ w.clock.now.toUInt64 - w.timeLog) = true := decide_eq_true hlate
  simp only [Protothread.resume, Protothread.follow, scd41UpdateValueThread, sensorGuard,
    World.now, World.tick_of_ahead_nil h, hpassed]
  cases l with
  | readySleep =>
      simp only [sensorBody, hready, if_true]
      refine ⟨_, _, rfl, ?_⟩
      rfl
  | measSleep =>
      refine ⟨_, _, rfl, ?_⟩
      rfl

/-- **Progress of the sensor thread.** A call never takes it farther from its end, and brings it
closer if its sleep is over. -/
theorem runSensor_distance (h : w.clock.ahead = []) (hrun : runSensor unready w = some w') :
    sensorDistance w' ≤ sensorDistance w ∧
      (SensorLate w → 0 < sensorDistance w → sensorDistance w' < sensorDistance w) := by
  rcases runSensor_cases hrun with ⟨hdone, rfl⟩ | ⟨hdone, w₁, j, hresume, rfl⟩
  · refine ⟨le_rfl, fun _ hpos => ?_⟩
    rw [sensorDistance, if_pos hdone] at hpos
    exact absurd hpos (by simp)
  · have hnone : ∀ lc, w.app.pThread3 = lc → sensorDistance w = if lc.isNone then 2 else 1 := by
      intro lc hlc
      rw [sensorDistance, hlc, hdone]
      cases lc <;> rfl
    cases hlc : w.app.pThread3 with
    | none =>
        rw [hlc, sensorEntry_still h] at hresume
        obtain ⟨rfl, rfl⟩ := Prod.mk.inj (Option.some.inj hresume)
        rw [hnone none hlc]
        simp [sensorDistance, hdone, Jump.continuation]
    | some l =>
        rw [hnone (some l) hlc]
        rw [hlc] at hresume
        by_cases hlate : SensorLate w
        · obtain ⟨w₂, j₂, heq, hended⟩ := sensorWait_late h hlate l
          rw [heq] at hresume
          obtain ⟨rfl, rfl⟩ := Prod.mk.inj (Option.some.inj hresume)
          simp [sensorDistance, hended]
        · rw [sensorWait_early h hlate] at hresume
          obtain ⟨rfl, rfl⟩ := Prod.mk.inj (Option.some.inj hresume)
          simp [sensorDistance, hdone, Jump.continuation, hlate]

/-! ### Calls of the sending process -/

/-- With a free client a message that fits is accepted. -/
theorem coapSendingProcess_accepted (hp : p.Fits) (hclient : w.app.coap = .client)
    (hfree : w.coap.client.busy = false) (hmeasured : Measured w) :
    ∃ r q, ((coapSendingProcess p unready).entry w).1.log = .post r :: w.log ∧
      r.accepted = some q.message ∧
      ((coapSendingProcess p unready).entry w).1.coap.outstanding = w.coap.outstanding ++ [q] ∧
      ((coapSendingProcess p unready).entry w).2 = .wait .ack := by
  obtain ⟨co2, rh, temp, hco2, hrh, htemp, htriple⟩ := hmeasured
  obtain ⟨text, hformat, hlen⟩ := hp.message co2 rh temp hco2 hrh htemp
  obtain ⟨hvalue₁, hvalue₂, hvalue₃⟩ := Triple.mk.inj htriple
  have hbuilt := buildMessage_fits p w.app.message co2 rh temp hformat hlen
  have hsize : (UInt16.ofInt (text.length : ℤ)).toNat < msgMaxLen := by
    have hmax : appMessageMaxLen = 1024 := rfl
    rw [UInt16.ofInt_natCast_toNat (by omega)]
    exact hlen
  have hpost : unready.post = .success := rfl
  obtain ⟨clock, hbuild⟩ := senderBuild_eq p w
  simp only [coapSendingProcess, senderPost, hbuild, hvalue₁, hvalue₂, hvalue₃, hbuilt, hclient,
    hpost, coapSchedulePost_of_success hfree hsize]
  exact ⟨_, _, rfl, rfl, rfl, trivial⟩

/-- The request of a post is outstanding, and the log has gone on from it. -/
def AfterPost (log : List Obs) (q : Request) (j : Jump SenderWait) (w : World) : Prop :=
  j ≠ .stuck ∧ Continues (fun _ => True) log w.log ∧ q ∈ w.coap.outstanding

/-- The rest of the process leaves it so. -/
theorem afterPost_keeps (p : Platform) (inp : PassInput) (log : List Obs) (q : Request) :
    (coapSendingProcess p inp).Keeps (AfterPost log q) where
  blocked {l s s'} hj hguard := by
    obtain ⟨clock, notes, heq, -⟩ := senderGuard_eq l s
    obtain rfl : s' = _ := (congrArg Prod.fst hguard).symm.trans heq
    exact ⟨by simp, hj.2.1.trans ⟨notes, rfl, fun _ _ => trivial⟩, hj.2.2⟩
  passed {l s s'} hj hguard := by
    obtain ⟨clock, notes, heq, -⟩ := senderGuard_eq l s
    obtain rfl : s' = _ := (congrArg Prod.fst hguard).symm.trans heq
    obtain ⟨reports, hreport, -⟩ := senderReport_eq
      { s with clock := clock, log := notes ++ s.log }
    simp only [coapSendingProcess, senderBody, hreport]
    refine ⟨by simp, hj.2.1.trans ⟨.cycleEnded :: (reports ++ notes), ?_, ?_⟩, hj.2.2⟩
    · simp [World.note]
    · exact fun _ _ => trivial
  undefined {l s s'} _ hguard := by
    obtain ⟨_, _, _, _, -, hdefined⟩ := senderGuard_log l s
    exact absurd ((congrArg Prod.snd hguard).symm.trans hdefined) (by simp)

/-- A new execution of the sending process has its post accepted. -/
theorem runSender_accepted (hp : p.Fits) (hrun : runSender p unready w = some w')
    (hclient : w.app.coap = .client) (hfree : w.coap.client.busy = false)
    (hmeasured : Measured w) (hunposted : w.app.sendingProcessPt = none)
    (hdone : (w.app.pThreadDone1 && w.app.pThreadDone2 && w.app.pThreadDone3 &&
      w.app.pThreadDone4) = true) :
    ∃ r q new, w'.log = new ++ .post r :: w.log ∧ r.accepted = some q.message ∧
      q ∈ w'.coap.outstanding ∧ w'.fault = false := by
  obtain ⟨r, q, hlog, haccepted, hout, hwait⟩ :=
    coapSendingProcess_accepted hp hclient hfree hmeasured
  rcases runSender_cases hrun with ⟨hnot, -⟩ | ⟨-, -, w₁, j, hresume, rfl⟩
  · exact absurd (hdone.symm.trans hnot) (by simp)
  · have hentry : AfterPost (.post r :: w.log) q ((coapSendingProcess p unready).entry w).2
        ((coapSendingProcess p unready).entry w).1 := by
      refine ⟨by simp [hwait], ⟨[], hlog, by simp⟩, ?_⟩
      rw [hout]
      exact List.mem_append_right _ List.mem_cons_self
    obtain ⟨hdefined, ⟨new, heq, -⟩, hmem⟩ := (afterPost_keeps p unready _ q).resume
      (fun _ => hentry) (fun l hl => absurd (hunposted.symm.trans hl) (by simp)) hresume
    exact ⟨r, q, new, heq, haccepted, hmem, decide_eq_false hdefined⟩

/-- The deadline of the sending process has passed. -/
def SenderLate (w : World) : Prop := 5000 ≤ w.clock.now.toUInt64 - w.senderThen

/-- A suspended sending process ends the cycle when its deadline has passed. -/
theorem resume_ack_late (h : w.clock.ahead = []) (hlate : SenderLate w) :
    ∃ notes, (∀ o ∈ notes, o.settles = false) ∧
      (coapSendingProcess p unready).resume 1 (some .ack) w =
        some ({ w with app.pThreadDone1 := false, app.pThreadDone2 := false,
                       app.pThreadDone3 := false, app.pThreadDone4 := false, run := false,
                       log := notes ++ w.log }, .finish) := by
  have hguard : ∃ o, o.settles = false ∧ senderGuard .ack w = (w.note o, some true) := by
    have hpassed : decide (5000 ≤ w.clock.now.toUInt64 - w.senderThen) = true :=
      decide_eq_true hlate
    rw [senderGuard]
    split
    · exact ⟨_, rfl, rfl⟩
    · simp only [World.now, World.tick_of_ahead_nil h, hpassed]
      exact ⟨_, rfl, rfl⟩
  obtain ⟨o, ho, heq⟩ := hguard
  obtain ⟨reports, hreport, hreports⟩ := senderReport_eq (w.note o)
  refine ⟨.cycleEnded :: (reports ++ [o]), ?_, ?_⟩
  · intro a ha
    simp only [List.mem_cons, List.mem_append, List.not_mem_nil, or_false] at ha
    rcases ha with rfl | ha | rfl
    · rfl
    · rcases hreports a ha with rfl | rfl <;> rfl
    · exact ho
  · simp only [Protothread.resume, Protothread.follow, coapSendingProcess, heq, senderBody, hreport]
    simp [World.note]

/-- A call of the suspended process ends the cycle when its deadline has passed. -/
theorem runSender_late (hrun : runSender p unready w = some w') (h : w.clock.ahead = [])
    (hlate : SenderLate w) (hack : w.app.sendingProcessPt = some .ack)
    (hdone : (w.app.pThreadDone1 && w.app.pThreadDone2 && w.app.pThreadDone3 &&
      w.app.pThreadDone4) = true) :
    ∃ notes, (∀ o ∈ notes, o.settles = false) ∧ w'.log = notes ++ w.log ∧ w'.fault = false ∧
      w'.app.sendingProcessPt = none ∧ w'.app.coap = w.app.coap ∧ w'.coap = w.coap := by
  obtain ⟨notes, hnotes, heq⟩ := resume_ack_late (p := p) h hlate
  rcases runSender_cases hrun with ⟨hnot, -⟩ | ⟨-, -, w₁, j, hresume, rfl⟩
  · exact absurd (hdone.symm.trans hnot) (by simp)
  · rw [hack, heq] at hresume
    obtain ⟨rfl, rfl⟩ := Prod.mk.inj (Option.some.inj hresume)
    exact ⟨notes, hnotes, rfl, rfl, rfl, rfl, rfl⟩

end SmartCO2
