import SmartCO2.CoapRuns
import SmartCO2.Cycle
import SmartCO2.DnsRuns
import SmartCO2.Pass

/-!
# The Clients inside the Firmware

The invariants of the two clients, carried over to runs of the firmware. There each client
has one user: the connection thread searches into the result variables of `_app`, and the
sending process posts into its own. So a browse callback never writes what the sending process
waits for.

## Main results

* `services_runRule`: at most one browse and one request are outstanding, and each client
  points at the result variables of its user only.
* `LeavesSender`: what the sending process waits for is only changed by itself and by the
  callback of a request.
* `SenderRule.runRule`: the **rule of the sending process**. What its calls and the callbacks
  of its requests keep is kept by every event.
-/

namespace SmartCO2

variable {p : Platform} {inp : PassInput} {w w' : World}

/-! ### The clients -/

/-- The invariants of the two clients, whose result locations are those of their users, and
which have not been used before they exist. -/
structure Services (w : World) : Prop where
  browse : OneBrowse w.dns
  unsearched : w.app.mdns = .null → w.dns.outstanding = []
  browseDone : ∀ l, w.dns.client.done = some l → l = .app
  browseError : ∀ l, w.dns.client.error = some l → l = .app
  request : AtMostOne w.coap
  unposted : w.app.coap = .null → w.coap.outstanding = []
  requestDone : ∀ l, w.coap.client.done = some l → l = .sender
  requestError : ∀ l, w.coap.client.error = some l → l = .sender

/-- Autostart callbacks leave the browses and the result locations alone. -/
theorem foldl_autostart (autostarts : List (Option SockAddr)) (svc : DnsService Var) :
    (autostarts.foldl DnsService.autostart svc).outstanding = svc.outstanding ∧
      (autostarts.foldl DnsService.autostart svc).client.done = svc.client.done ∧
      (autostarts.foldl DnsService.autostart svc).client.error = svc.client.error := by
  induction autostarts generalizing svc with
  | nil => exact ⟨rfl, rfl, rfl⟩
  | cons sock autostarts ih =>
      have hsock : (svc.autostart sock).client.done = svc.client.done ∧
          (svc.autostart sock).client.error = svc.client.error := by
        cases sock <;> exact ⟨rfl, rfl⟩
      obtain ⟨hout, hdone, herror⟩ := ih (svc.autostart sock)
      exact ⟨hout, hdone.trans hsock.1, herror.trans hsock.2⟩

/-- `mdns_init` leaves the browses alone and forgets the result locations, or leaves them
alone as well. -/
theorem mdnsInit_results (svc : DnsService Var) (serviceName : List UInt8)
    (autostarts : List (Option SockAddr)) :
    (mdnsInit svc serviceName autostarts).2.outstanding = svc.outstanding ∧
      (∀ l, (mdnsInit svc serviceName autostarts).2.client.done = some l →
        svc.client.done = some l) ∧
      ∀ l, (mdnsInit svc serviceName autostarts).2.client.error = some l →
        svc.client.error = some l := by
  rw [mdnsInit]
  split
  · exact ⟨rfl, fun _ h => h, fun _ h => h⟩
  · obtain ⟨hout, hdone, herror⟩ := foldl_autostart autostarts
      { svc with
        client := ⟨false, false, serviceName, none, none, none⟩
        registered := true
        autostarts := [] }
    refine ⟨hout, fun l hl => ?_, fun l hl => ?_⟩
    · exact absurd (hdone.symm.trans hl) (by simp)
    · exact absurd (herror.symm.trans hl) (by simp)

/-- A search points the client at its own result locations, or changes nothing. -/
theorem mdnsScheduleSearch_results (svc : DnsService Var) (mem : Memory Var)
    (address done error : Var) (browse : OtError) :
    (mdnsScheduleSearch svc mem address done error browse).2.1.client.done ∈
        [svc.client.done, some done] ∧
      (mdnsScheduleSearch svc mem address done error browse).2.1.client.error ∈
        [svc.client.error, some error] := by
  rw [mdnsScheduleSearch]
  split
  · simp
  · split <;> simp

/-- A search writes its own result variables only. -/
theorem mdnsScheduleSearch_memory (svc : DnsService Var) (mem : Memory Var)
    (address done error : Var) (browse : OtError) :
    (∀ l, l ≠ done →
      (mdnsScheduleSearch svc mem address done error browse).2.2.bool l = mem.bool l) ∧
    ∀ l, l ≠ error →
      (mdnsScheduleSearch svc mem address done error browse).2.2.error l = mem.error l := by
  rw [mdnsScheduleSearch]
  split
  · exact ⟨fun _ _ => rfl, fun _ _ => rfl⟩
  · split
    · exact ⟨fun l hl => by simp [hl], fun l hl => by simp [hl]⟩
    · exact ⟨fun l hl => by simp [hl], fun l hl => by simp⟩

/-- A post writes its own result variables only. -/
theorem coapSchedulePost_memory (svc : CoapService Var) (mem : Memory Var)
    (message : List UInt8) (size : UInt16) (done errorOut : Var) (out : PostOutcome) :
    (∀ l, l ≠ done →
      (coapSchedulePost svc mem message size done errorOut out).2.2.bool l = mem.bool l) ∧
    ∀ l, l ≠ errorOut →
      (coapSchedulePost svc mem message size done errorOut out).2.2.error l = mem.error l := by
  obtain ⟨error, svc', mem', heq, hcase⟩ :=
    coapSchedulePost_cases svc mem message size done errorOut out
  rw [heq]
  rcases hcase with ⟨-, -, -, rfl⟩ | ⟨-, -, -, rfl⟩ | ⟨-, -, -, ⟨-, rfl, -⟩ | ⟨-, -, rfl⟩⟩
  · exact ⟨fun _ _ => rfl, fun _ _ => rfl⟩
  · exact ⟨fun _ _ => rfl, fun _ _ => rfl⟩
  · exact ⟨fun l hl => by simp [hl], fun l hl => by simp⟩
  · exact ⟨fun l hl => by simp [hl], fun l hl => by simp [hl]⟩

/-- `coap_init` leaves the result locations alone. -/
theorem coapInit_results (svc : CoapService Var) (target : Ip6Address) (token : List UInt8)
    (start : OtError) :
    (coapInit svc target token start).2.client.done = svc.client.done ∧
      (coapInit svc target token start).2.client.error = svc.client.error := by
  rw [coapInit]
  simp only
  split
  · exact ⟨rfl, rfl⟩
  · split <;> exact ⟨rfl, rfl⟩

namespace Services

/-- The bring-up of the service discovery client. -/
theorem nodeInitMdns (h : Services w) : Services (nodeInitMdns p inp w).1 := by
  rw [SmartCO2.nodeInitMdns]
  split
  · exact h
  · next hnull =>
      have hnone := h.unsearched hnull
      obtain ⟨hout, hdone, herror⟩ := mdnsInit_results w.dns p.serviceName inp.autostarts
      exact
        { h with
          browse := OneBrowse.init hnone p.serviceName inp.autostarts
          unsearched := fun _ => hout.trans hnone
          browseDone := fun l hl => h.browseDone l (hdone l hl)
          browseError := fun l hl => h.browseError l (herror l hl) }

/-- The connection test. -/
theorem nodeWaitConnected (h : Services w) : Services (nodeWaitConnected p inp w).1 := by
  rw [SmartCO2.nodeWaitConnected]
  split
  · exact nodeInitMdns (w := w.note .seenConnected) { h with }
  · exact h

/-- A search into the result variables of `_app`. -/
theorem search (h : Services w) (hclient : w.app.mdns = .client) (mem mem' : Memory Var)
    (browse : OtError) (time : UInt64) (clock : Clock) (log : List Obs) :
    Services
      { w with
        dns := (mdnsScheduleSearch w.dns mem .app .app .app browse).2.1
        mem := mem', app.thenTime := time, clock := clock, log := log } := by
  obtain ⟨hdone, herror⟩ := mdnsScheduleSearch_results w.dns mem .app .app .app browse
  refine
    { h with
      browse := h.browse.search mem .app .app .app browse
      unsearched := fun hnull => absurd (hclient.symm.trans hnull) (by simp)
      browseDone := fun l hl => ?_
      browseError := fun l hl => ?_ }
  · rw [hl, List.mem_pair] at hdone
    exact hdone.elim (fun hold => h.browseDone l hold.symm) Option.some.inj
  · rw [hl, List.mem_pair] at herror
    exact herror.elim (fun hold => h.browseError l hold.symm) Option.some.inj

/-- The test of `_app.done` and the search. -/
theorem nodeSearch (h : Services w) : Services (nodeSearch inp w).1 := by
  rw [SmartCO2.nodeSearch]
  split
  · exact { h with }
  · obtain ⟨clock, htick⟩ := World.tick_eq
      { w with mem := (w.mem.setBool .app false).setError .app .none }
    simp only [World.now, htick]
    split
    · exact { h with }
    · next hclient =>
        split <;> exact h.search hclient ..

/-- The start of the CoAP client. -/
theorem nodeInitCoap (h : Services w) : Services (nodeInitCoap p inp w).1 := by
  rw [SmartCO2.nodeInitCoap]
  split
  · exact { h with }
  · next hnull =>
      have hnone := h.unposted hnull
      have hout := coapInit_outstanding w.coap (w.mem.address .app) p.token inp.coapStart
      obtain ⟨hdone, herror⟩ :=
        coapInit_results w.coap (w.mem.address .app) p.token inp.coapStart
      have hinit : ∀ app log, app.mdns = w.app.mdns → Services
          { w with
            coap := (coapInit w.coap (w.mem.address .app) p.token inp.coapStart).2
            app := app, log := log } := by
        intro app log hmdns
        exact
          { h with
            unsearched := fun hnull => h.unsearched (hmdns.symm.trans hnull)
            request := Or.inl (hout.trans hnone)
            unposted := fun _ => hout.trans hnone
            requestDone := fun l hl => h.requestDone l (hdone.symm.trans hl)
            requestError := fun l hl => h.requestError l (herror.symm.trans hl) }
      simp only
      split
      · exact hinit _ _ rfl
      · exact hinit _ _ rfl

/-- The tests of the connection thread. -/
theorem nodeGuard (h : Services w) (l : NodeWait) : Services (nodeGuard l w).1 := by
  obtain ⟨clock, notes, heq, -⟩ := nodeGuard_eq l w
  rw [heq]
  exact { h with }

/-- The blocks of the connection thread. -/
theorem nodeBody (h : Services w) (l : NodeWait) : Services (nodeBody p inp l w).1 := by
  cases l with
  | connectSleep =>
      obtain ⟨clock, htick⟩ := w.tick_eq
      simp only [SmartCO2.nodeBody, World.now, htick]
      refine nodeWaitConnected ?_
      exact { h with }
  | searchSleep => exact h.nodeSearch
  | resultSleep =>
      rw [SmartCO2.nodeBody]
      split
      · exact h
      · exact h.nodeInitCoap
  | _ => exact h

/-- A call of thread 1. -/
theorem runNode (h : Services w) (hrun : runNode p inp w = some w') : Services w' := by
  rcases runNode_cases hrun with ⟨-, rfl⟩ | ⟨-, w₁, j, hresume, rfl⟩
  · exact h
  · have hkeeps : (nodeConnectThread p inp).Keeps fun _ s => Services s :=
      Protothread.Keeps.of_tests (fun l _ hs => hs.nodeGuard l) (fun l _ hs => hs.nodeBody l)
        (fun _ _ _ _ hs => hs)
    have h₁ : Services w₁ := hkeeps.resume (fun _ => h.nodeWaitConnected) (fun _ _ => h) hresume
    exact { h₁ with }

/-- A call of thread 3. -/
theorem runSensor (h : Services w) (hrun : runSensor inp w = some w') : Services w' := by
  rcases runSensor_cases hrun with ⟨-, rfl⟩ | ⟨-, w₁, j, hresume, rfl⟩
  · exact h
  · obtain ⟨_, _, _, _, _, _, _, _, rfl, -⟩ := scd41UpdateValueThread_frame hresume
    exact { h with }

/-- A post into the result variables of the sending process. -/
theorem post (h : Services w) (hclient : w.app.coap = .client) (mem : Memory Var)
    (message : List UInt8) (size : UInt16) (out : PostOutcome) :
    Services
      { w with coap := (coapSchedulePost w.coap mem message size .sender .sender out).2.1 } := by
  have hrequest := h.request.post mem message size .sender .sender out
  obtain ⟨error, svc, mem', heq, hcase⟩ :=
    coapSchedulePost_cases w.coap mem message size .sender .sender out
  rw [heq] at hrequest ⊢
  have hposted : w.app.coap = .null → svc.outstanding = [] :=
    fun hnull => absurd (hclient.symm.trans hnull) (by simp)
  rcases hcase with ⟨-, -, rfl, -⟩ | ⟨-, -, rfl, -⟩ | ⟨-, hdone, herr, -⟩
  · exact { h with }
  · exact { h with }
  · exact
      { h with
        request := hrequest
        unposted := hposted
        requestDone := fun l hl => (Option.some.inj (hdone.symm.trans hl)).symm
        requestError := fun l hl => (Option.some.inj (herr.symm.trans hl)).symm }

/-- The sending process up to its wait. -/
theorem senderPost (h : Services w) : Services (senderPost inp w).1 := by
  rw [SmartCO2.senderPost]
  split
  · exact { h with }
  · next hclient =>
      have hpost := h.post hclient w.mem w.app.message (UInt16.ofInt w.messageSize) inp.post
      exact { hpost with }

/-- What is built before. -/
theorem senderBuild (h : Services w) : Services (senderBuild p w) := by
  obtain ⟨clock, heq⟩ := senderBuild_eq p w
  rw [heq]
  exact { h with }

/-- A call of the sending process. -/
theorem runSender (h : Services w) (hrun : runSender p inp w = some w') : Services w' := by
  rcases runSender_cases hrun with ⟨-, rfl⟩ | ⟨-, -, w₁, j, hresume, rfl⟩
  · exact h
  · have hkeeps : (coapSendingProcess p inp).Keeps fun _ s => Services s := by
      refine Protothread.Keeps.of_tests ?_ ?_ (fun _ _ _ _ hs => hs)
      · intro l s hs
        obtain ⟨clock, notes, heq, -⟩ := senderGuard_eq l s
        simp only [coapSendingProcess, heq]
        exact { hs with }
      · intro l s hs
        obtain ⟨notes, heq, -⟩ := senderReport_eq s
        simp only [coapSendingProcess, senderBody, heq]
        exact { hs with }
    have h₁ : Services w₁ :=
      hkeeps.resume (fun _ => h.senderBuild.senderPost) (fun _ _ => h) hresume
    exact { h₁ with }

/-- The browse callback. -/
theorem browseCallback (h : Services w) {i : ℕ} (hi : i < w.dns.outstanding.length)
    (error : OtError) (response : BrowseResponse) (stack : List UInt8) :
    Services (browseCallback p w i error response stack) := by
  rw [SmartCO2.browseCallback]
  split
  · next dns mem hres =>
      have hbrowse := h.browse.result hi hres
      obtain ⟨_, _, _, _, _, -, -, -, -, rfl, -⟩ := DnsService.result_inv hres
      refine { h with browse := hbrowse, unsearched := fun hnull => ?_ }
      rw [h.unsearched hnull] at hi
      exact absurd hi (Nat.not_lt_zero i)
  · exact { h with }

/-- **What the callback of a request does**: it ends the one request and stores its result in
the variables of the sending process. -/
theorem requestCallback_eq (h : Services w) {i : ℕ} {r : Request}
    (hr : w.coap.outstanding[i]? = some r) (error : OtError) (response : Bool) :
    ∃ svc, w.coap.outstanding = [r] ∧ svc.outstanding = [] ∧
      svc.client = { w.coap.client with busy := false } ∧
      requestCallback w i r error response =
        { w with coap := svc, mem := (w.mem.setBool .sender true).setError .sender error }.note
          (.callback r.message error) := by
  obtain ⟨hi, hget⟩ := List.getElem?_eq_some_iff.mp hr
  obtain ⟨r', svc, done, err, hone, hdone, herr, hcb, hout, hclient⟩ :=
    h.request.callback w.mem hi error response
  obtain rfl := h.requestDone done hdone
  obtain rfl := h.requestError err herr
  have hsame : w.coap.outstanding = [r] := by
    obtain rfl : i = 0 := by
      rw [hone, List.length_singleton] at hi
      omega
    rw [hone] at hr
    rw [hone, Option.some.inj hr]
  refine ⟨svc, hsame, hout, hclient, ?_⟩
  rw [SmartCO2.requestCallback, hcb]

/-- The callback of a request. -/
theorem requestCallback (h : Services w) {i : ℕ} {r : Request}
    (hr : w.coap.outstanding[i]? = some r) (error : OtError) (response : Bool) :
    Services (requestCallback w i r error response) := by
  obtain ⟨svc, -, hout, hclient, heq⟩ := h.requestCallback_eq hr error response
  have hdone : svc.client.done = w.coap.client.done := by rw [hclient]
  have herror : svc.client.error = w.coap.client.error := by rw [hclient]
  rw [heq]
  exact
    { h with
      request := Or.inl hout
      unposted := fun _ => hout
      requestDone := fun l hl => h.requestDone l (hdone.symm.trans hl)
      requestError := fun l hl => h.requestError l (herror.symm.trans hl) }

end Services

/-- **The clients keep their invariants** in every run. -/
theorem services_runRule (p : Platform) : RunRule p (fun _ _ => True) Services where
  idle _ _ _ _ _ h := { h with }
  node _ h hrun := h.runNode hrun
  sensor _ h hrun := h.runSensor hrun
  sender _ h hrun := h.runSender hrun
  role changed role _ h := by
    rw [handleNetifStateChanged.eq_def]
    split
    · cases role <;> exact { h with }
    · exact h
  autostart sock _ h :=
    { h with
      browse := h.browse.autostart sock
      browseDone := by cases sock <;> exact h.browseDone
      browseError := by cases sock <;> exact h.browseError }
  browse error response stack _ hi h := h.browseCallback hi error response stack
  request error response _ _ hr h := h.requestCallback hr error response

/-- The clients boot with their invariants. -/
theorem boot_services (now : UInt32) : Services (boot now) where
  browse := Or.inl ⟨rfl, rfl⟩
  unsearched _ := rfl
  browseDone _ hl := absurd hl (by simp [boot, DnsService.zero])
  browseError _ hl := absurd hl (by simp [boot, DnsService.zero])
  request := Or.inl rfl
  unposted _ := rfl
  requestDone _ hl := absurd hl (by simp [boot, CoapService.zero])
  requestError _ hl := absurd hl (by simp [boot, CoapService.zero])

/-! ### What the sending process waits for -/

/-- The observations of the sending process and of the callbacks of its requests. -/
def Obs.ofSender : Obs → Bool
  | .post _ | .tested .. | .timedOut | .coapError | .cycleEnded | .callback .. => true
  | _ => false

/-- A post is one of them. -/
theorem isPost_of_ofSender {o : Obs} (h : o.ofSender = false) : o.isPost = false := by
  cases o <;> first | rfl | cases h

/-- The sending process, its result variables and its requests are left alone. -/
structure LeavesSender (w w' : World) : Prop where
  suspended : w'.app.sendingProcessPt = w.app.sendingProcessPt
  done : w'.sendDone = w.sendDone
  error : w'.sendError = w.sendError
  senderThen : w'.senderThen = w.senderThen
  outstanding : w'.coap.outstanding = w.coap.outstanding
  log : Continues (fun o => o.ofSender = false) w.log w'.log

namespace LeavesSender

/-- Nothing has happened. -/
theorem refl (w : World) : LeavesSender w w :=
  ⟨rfl, rfl, rfl, rfl, rfl, [], rfl, by simp⟩

/-- One after the other. -/
theorem trans {w₁ w₂ w₃ : World} (h : LeavesSender w₁ w₂) (h' : LeavesSender w₂ w₃) :
    LeavesSender w₁ w₃ :=
  ⟨h'.suspended.trans h.suspended, h'.done.trans h.done, h'.error.trans h.error,
    h'.senderThen.trans h.senderThen, h'.outstanding.trans h.outstanding, h.log.trans h'.log⟩

/-- The clock and the timer go on, and threads 2 and 4 are done. -/
theorem idle (w : World) (clock : Clock) (run armed done2 done4 : Bool) :
    LeavesSender w
      { w with clock := clock, run := run, timerArmed := armed, app.pThreadDone2 := done2,
               app.pThreadDone4 := done4 } :=
  ⟨rfl, rfl, rfl, rfl, rfl, [], rfl, by simp⟩

/-- An autostart callback. -/
theorem autostart (sock : Option SockAddr) (w : World) :
    LeavesSender w { w with dns := w.dns.autostart sock } :=
  ⟨rfl, rfl, rfl, rfl, rfl, [], rfl, by simp⟩

/-- The clock goes on. -/
theorem tick (w : World) : LeavesSender w w.tick := by
  obtain ⟨clock, heq⟩ := w.tick_eq
  rw [heq]
  exact ⟨rfl, rfl, rfl, rfl, rfl, [], rfl, by simp⟩

/-- The end of the connection thread. -/
theorem nodeEnd (w : World) : LeavesSender w (nodeEnd w).1 :=
  ⟨rfl, rfl, rfl, rfl, rfl, [.nodeEnded], rfl, by simp [Obs.ofSender]⟩

/-- The connection test. -/
theorem nodeWaitConnected (p : Platform) (inp : PassInput) (w : World) :
    LeavesSender w (nodeWaitConnected p inp w).1 := by
  rw [SmartCO2.nodeWaitConnected]
  split
  · rw [nodeInitMdns]
    split <;> exact ⟨rfl, rfl, rfl, rfl, rfl, [.seenConnected], rfl, by simp [Obs.ofSender]⟩
  · exact refl w

/-- The search writes the result variables of `_app` only. -/
theorem nodeSearch (inp : PassInput) (w : World) : LeavesSender w (nodeSearch inp w).1 := by
  rw [SmartCO2.nodeSearch]
  split
  · exact nodeEnd w
  · obtain ⟨clock, htick⟩ := World.tick_eq
      { w with mem := (w.mem.setBool .app false).setError .app .none }
    simp only [World.now, htick]
    split
    · exact ⟨rfl, rfl, rfl, rfl, rfl, [], rfl, by simp⟩
    · obtain ⟨hdone, herror⟩ := mdnsScheduleSearch_memory w.dns
        ((w.mem.setBool .app false).setError .app .none) .app .app .app inp.browse
      split
      · exact ⟨rfl, hdone .sender (by simp), herror .sender (by simp), rfl, rfl, [], rfl, by simp⟩
      · exact ⟨rfl, hdone .sender (by simp), herror .sender (by simp), rfl, rfl,
          [.browse inp.browse], rfl, by simp [Obs.ofSender]⟩

/-- The start of the CoAP client. -/
theorem nodeInitCoap (p : Platform) (inp : PassInput) (w : World) :
    LeavesSender w (nodeInitCoap p inp w).1 := by
  rw [SmartCO2.nodeInitCoap]
  split
  · exact nodeEnd w
  · have hout := coapInit_outstanding w.coap (w.mem.address .app) p.token inp.coapStart
    simp only
    split
    · exact ⟨rfl, rfl, rfl, rfl, hout, [.coapInit _], rfl, by simp [Obs.ofSender]⟩
    · exact ⟨rfl, rfl, rfl, rfl, hout, [.nodeEnded, .coapInit _], rfl, by simp [Obs.ofSender]⟩

/-- The blocks of the connection thread. -/
theorem nodeBody (p : Platform) (inp : PassInput) (l : NodeWait) (w : World) :
    LeavesSender w (nodeBody p inp l w).1 := by
  cases l with
  | connectSleep =>
      have hcaught : LeavesSender w.tick
          { w.tick with app.thenTime := w.tick.clock.now.toUInt64 } :=
        ⟨rfl, rfl, rfl, rfl, rfl, [], rfl, by simp⟩
      exact ((tick w).trans hcaught).trans (nodeWaitConnected p inp _)
  | searchSleep => exact nodeSearch inp w
  | resultSleep =>
      rw [SmartCO2.nodeBody]
      split
      · exact refl w
      · exact nodeInitCoap p inp w
  | _ => exact refl w

/-- A call of thread 1. -/
theorem runNode (hrun : runNode p inp w = some w') : LeavesSender w w' := by
  rcases runNode_cases hrun with ⟨-, rfl⟩ | ⟨-, w₁, j, hresume, rfl⟩
  · exact refl _
  · have hkeeps : (nodeConnectThread p inp).Keeps fun _ s => LeavesSender w s := by
      refine Protothread.Keeps.of_tests ?_ ?_ (fun _ _ _ _ hs => hs)
      · intro l s hs
        obtain ⟨clock, notes, heq, hnotes⟩ := nodeGuard_eq l s
        refine hs.trans ?_
        simp only [nodeConnectThread, heq]
        refine ⟨rfl, rfl, rfl, rfl, rfl, notes, rfl, fun o ho => ?_⟩
        obtain ⟨time, passed, rfl⟩ := hnotes o ho
        rfl
      · exact fun l s hs => hs.trans (nodeBody p inp l s)
    have h₁ : LeavesSender w w₁ :=
      hkeeps.resume (fun _ => nodeWaitConnected p inp w) (fun _ _ => refl w) hresume
    exact { h₁ with }

/-- A call of thread 3. -/
theorem runSensor (hrun : runSensor inp w = some w') : LeavesSender w w' := by
  rcases runSensor_cases hrun with ⟨-, rfl⟩ | ⟨-, w₁, j, hresume, rfl⟩
  · exact refl _
  · obtain ⟨_, _, _, _, _, _, _, new, rfl, hnew⟩ := scd41UpdateValueThread_frame hresume
    refine ⟨rfl, rfl, rfl, rfl, rfl, new, rfl, fun o ho => ?_⟩
    have hsensor := hnew o ho
    cases o <;> first | rfl | exact absurd hsensor Bool.false_ne_true

/-- A role change. -/
theorem role (changed : Bool) (role : DeviceRole) (w : World) :
    LeavesSender w (handleNetifStateChanged changed role w) := by
  have hset : ∀ b, LeavesSender w (({ w with app.connected := b }).note (.role b)) :=
    fun b => ⟨rfl, rfl, rfl, rfl, rfl, [.role b], rfl, by simp [Obs.ofSender]⟩
  rw [handleNetifStateChanged.eq_def]
  split
  · cases role <;> exact hset _
  · exact refl w

/-- A browse callback writes the result variables of `_app` only. -/
theorem browseCallback (h : Services w) {i : ℕ} (error : OtError) (response : BrowseResponse)
    (stack : List UInt8) : LeavesSender w (browseCallback p w i error response stack) := by
  rw [SmartCO2.browseCallback]
  split
  · next dns mem hres =>
      obtain ⟨_, done, err, _, _, -, hdone, herr, -, rfl, rfl⟩ := DnsService.result_inv hres
      obtain rfl := h.browseDone done hdone
      obtain rfl := h.browseError err herr
      refine ⟨rfl, ?_, ?_, rfl, rfl, [.browseDone _ _], rfl, by simp [Obs.ofSender]⟩
      · simp [World.note, World.sendDone]
      · simp [World.note, World.sendError]
  · exact ⟨rfl, rfl, rfl, rfl, rfl, [], rfl, by simp⟩

end LeavesSender

/-! ### The rule of the sending process -/

/-- What has to be shown of a property for it to be kept by every event, if it depends on
what the sending process waits for only: the calls of the process and the callbacks of its
requests that meet the condition `C` keep it. -/
structure SenderRule (p : Platform) (C : World → Event → Prop) (I : World → Prop) : Prop where
  leaves : ∀ {w w'}, LeavesSender w w' → I w → I w'
  sender : ∀ {inp w w'}, Services w → I w → runSender p inp w = some w' → I w'
  request : ∀ {w i r} error response, Services w → C w (.callback i error response) →
    w.coap.outstanding[i]? = some r → I w → I (requestCallback w i r error response)

/-- **The rule of the sending process.** Together with the invariants of the clients, such a
property is kept by every event. -/
theorem SenderRule.runRule {C : World → Event → Prop} {I : World → Prop}
    (hI : SenderRule p C I) : RunRule p C fun w => Services w ∧ I w where
  idle clock run armed done2 done4 h :=
    ⟨{ h.1 with }, hI.leaves (.idle _ clock run armed done2 done4) h.2⟩
  node _ h hrun := ⟨h.1.runNode hrun, hI.leaves (.runNode hrun) h.2⟩
  sensor _ h hrun := ⟨h.1.runSensor hrun, hI.leaves (.runSensor hrun) h.2⟩
  sender _ h hrun := ⟨h.1.runSender hrun, hI.sender h.1 h.2 hrun⟩
  role changed role hfault h :=
    ⟨(services_runRule p).role changed role hfault h.1, hI.leaves (.role changed role _) h.2⟩
  autostart sock hfault h :=
    ⟨(services_runRule p).autostart sock hfault h.1, hI.leaves (.autostart sock _) h.2⟩
  browse error response stack _ hi h :=
    ⟨h.1.browseCallback hi error response stack,
      hI.leaves (.browseCallback h.1 error response stack) h.2⟩
  request error response _ hC hr h :=
    ⟨h.1.requestCallback hr error response, hI.request error response h.1 hC hr h.2⟩

end SmartCO2
