import SmartCO2.Causes
import SmartCO2.CycleRuns
import SmartCO2.Library.Json

/-!
# What the Server Is Told

The requests that the firmware has handed to OpenThread, followed from the measurement to the text
that the server reads. A request goes to the telemetry path of the token, and its payload is a JSON
object: the measurement that was the last one to be decoded when the request was posted.

## Main results

* `object_appMessageTemplate`: the text of a measurement is read as the measurement.
* `outstanding_reports`: what every request of every run tells the server.
-/

namespace SmartCO2

variable {p : Platform} {inp : PassInput} {w w' : World}

/-! ### The text of a measurement as JSON -/

/-- What the server is told of a measurement. -/
def Triple.members (t : Triple) : List (List UInt8 × ℚ) :=
  [(ascii "co2", t.co2), (ascii "rh", t.rh), (ascii "temp", t.temp)]

/-- The conversion `%.2f` of a number denotes the number. -/
theorem fixed2_denotes (n : ℕ) : Json.Denotes (fixed2 n) n := by
  have hdigits : ∀ b ∈ [(48 : UInt8), 48], Json.isDigit b = true :=
    List.all_eq_true.mp (by decide)
  have hdenotes := Json.denotes_digits n (List.cons_ne_nil 48 [48]) hdigits
  have hzero : Json.ofDigits [48, 48] = 0 := by decide
  rw [hzero, Nat.cast_zero, zero_div, add_zero] at hdenotes
  rw [fixed2_natCast]
  exact hdenotes

/-- The members of the object that `APP_MESSAGE_TEMPLATE` writes. -/
def measurementFields (co2 rh temp : ℕ) : List Json.Field :=
  [⟨ascii "co2", fixed2 co2, co2, List.all_eq_true.mp (by decide), fixed2_denotes co2⟩,
    ⟨ascii "rh", fixed2 rh, rh, List.all_eq_true.mp (by decide), fixed2_denotes rh⟩,
    ⟨ascii "temp", fixed2 temp, temp, List.all_eq_true.mp (by decide), fixed2_denotes temp⟩]

/-- The template writes an object. -/
theorem appMessageTemplate_eq_write (co2 rh temp : ℕ) :
    appMessageTemplate co2 rh temp = Json.write (measurementFields co2 rh temp) := by
  have hco2 : ascii "\x7b\"co2\": " = 123 :: 34 :: (ascii "co2" ++ [34, 58, 32]) := by decide
  have hrh : ascii ", \"rh\": " = 44 :: 32 :: 34 :: (ascii "rh" ++ [34, 58, 32]) := by decide
  have htemp : ascii ", \"temp\": " = 44 :: 32 :: 34 :: (ascii "temp" ++ [34, 58, 32]) := by decide
  have hclose : ascii "\x7d" = [125] := by decide
  rw [appMessageTemplate, hco2, hrh, htemp, hclose]
  simp [Json.write, Json.writeFields, Json.Field.write, measurementFields]

/-- **The text of a measurement is read as the measurement.** -/
theorem object_appMessageTemplate (co2 rh temp : ℕ) :
    Json.object (appMessageTemplate co2 rh temp) = some (Triple.members ⟨co2, rh, temp⟩) := by
  rw [appMessageTemplate_eq_write, Json.object_write]
  simp [measurementFields, Triple.members]

/-! ### Requests and their posts -/

/-- The request goes to the telemetry path of the token, and it carries the text of a post that
was accepted as its message, when the last measurement was one of `uint16_t` values. -/
structure Reports (p : Platform) (log : List Obs) (q : Request) : Prop where
  uriPath : q.uriPath = (appUriTemplate p.token).take (uriMaxLen - 1)
  port : q.target.2 = appServicePort
  posted : ∃ r later earlier, log = later ++ .post r :: earlier ∧ r.accepted = some q.message ∧
    q.payload = r.text.take r.size.toNat ∧ (lastDecoded earlier).InRange

/-- The log goes on. -/
theorem Reports.later {log : List Obs} {q : Request} (h : Reports p log q) (new : List Obs) :
    Reports p (new ++ log) q where
  uriPath := h.uriPath
  port := h.port
  posted := by
    obtain ⟨r, later, earlier, rfl, hrest⟩ := h.posted
    exact ⟨r, new ++ later, earlier, (List.append_assoc ..).symm, hrest⟩

/-- The requests are those of posts, and so will be the next one. -/
structure Sends (p : Platform) (w : World) : Prop where
  uri : w.app.coap = .client → w.coap.client.uri = (appUriTemplate p.token).take (uriMaxLen - 1)
  port : w.app.coap = .client → w.coap.client.target.2 = appServicePort
  reports : ∀ q ∈ w.coap.outstanding, Reports p w.log q

namespace Sends

/-- The log goes on, and the client stays what it is. -/
theorem noted (h : Sends p w) {new : List Obs} (hlog : w'.log = new ++ w.log)
    (hptr : w'.app.coap = w.app.coap) (hcoap : w'.coap = w.coap) : Sends p w' where
  uri hclient := by
    rw [hcoap]
    exact h.uri (hptr.symm.trans hclient)
  port hclient := by
    rw [hcoap]
    exact h.port (hptr.symm.trans hclient)
  reports q hq := by
    rw [hcoap] at hq
    rw [hlog]
    exact (h.reports q hq).later new

/-- What leaves the sending process alone, and at most brings the client up. -/
theorem leaves (h : Sends p w) (hleaves : LeavesSender w w') (hup : BringsUp p w w') :
    Sends p w' := by
  obtain ⟨new, hlog, -⟩ := hleaves.log
  rcases hup with ⟨hptr, hcoap⟩ | ⟨-, hnew⟩
  · exact h.noted hlog hptr hcoap
  · refine ⟨fun hclient => (hnew hclient).uri, fun hclient => (hnew hclient).port, ?_⟩
    intro q hq
    rw [hleaves.outstanding] at hq
    rw [hlog]
    exact (h.reports q hq).later new

/-- The post of a cycle. -/
theorem post (h : Sends p w) (hlast : (lastDecoded w.log).InRange) :
    Sends p ((coapSendingProcess p inp).entry w).1 := by
  obtain ⟨w₁, j, r, hentry, hlog, hclient, hptr, -, huri, htarget, hcase⟩ :=
    coapSendingProcess_posts p inp w
  rw [hentry]
  refine ⟨fun hc => ?_, fun hc => ?_, fun q hq => ?_⟩
  · rw [huri]
    exact h.uri (hptr.symm.trans hc)
  · rw [htarget]
    exact h.port (hptr.symm.trans hc)
  · have hold : q ∈ w.coap.outstanding → Reports p w₁.log q := by
      intro hmem
      rw [hlog]
      exact (h.reports q hmem).later [.post r]
    rcases hcase with ⟨hcoap, -⟩ | ⟨hc, -, -, ⟨-, -, hout⟩ | ⟨q', haccepted, hout, hrequest⟩⟩
    · rw [hcoap] at hq
      exact hold hq
    · rw [hout] at hq
      exact hold hq
    · rw [hout] at hq
      rcases List.mem_append.mp hq with hmem | hmem
      · exact hold hmem
      · obtain rfl := List.mem_singleton.mp hmem
        have hthere := hclient.symm.trans hc
        obtain ⟨hpath, htarget', hpayload⟩ := hrequest
        refine ⟨hpath.trans (h.uri hthere), ?_, r, [], w.log, hlog, haccepted, hpayload, hlast⟩
        rw [htarget']
        exact h.port hthere

/-- A call of the sending process. -/
theorem runSender (h : Sends p w) (hlast : (lastDecoded w.log).InRange)
    (hrun : runSender p inp w = some w') : Sends p w' := by
  rcases runSender_cases hrun with ⟨-, rfl⟩ | ⟨-, -, w₁, j, hresume, rfl⟩
  · exact h
  · have hkeeps : (coapSendingProcess p inp).Keeps fun _ s => Sends p s := by
      refine Protothread.Keeps.of_tests ?_ ?_ (fun _ _ _ _ hs => hs)
      · intro l s hs
        obtain ⟨clock, notes, heq, -⟩ := senderGuard_eq l s
        simp only [coapSendingProcess, heq]
        exact hs.noted rfl rfl rfl
      · intro l s hs
        obtain ⟨reports, heq, -⟩ := senderReport_eq s
        simp only [coapSendingProcess, senderBody, heq]
        exact hs.noted List.cons_append.symm rfl rfl
    have hresumed := hkeeps.resume (fun _ => h.post hlast) (fun _ _ => h) hresume
    exact ⟨hresumed.uri, hresumed.port, hresumed.reports⟩

/-- The callback of a request ends it. -/
theorem requestCallback (hs : Services w) (h : Sends p w) {i : ℕ} {r : Request}
    (hr : w.coap.outstanding[i]? = some r) (error : OtError) (response : Bool) :
    Sends p (requestCallback w i r error response) := by
  obtain ⟨svc, -, hnil, hclient, heq⟩ := hs.requestCallback_eq hr error response
  rw [heq]
  refine ⟨fun hc => ?_, fun hc => ?_, fun q hq => ?_⟩
  · have huri : svc.client.uri = w.coap.client.uri := by rw [hclient]
    exact huri.trans (h.uri hc)
  · have htarget : svc.client.target = w.coap.client.target := by rw [hclient]
    exact (congrArg Prod.snd htarget).trans (h.port hc)
  · have hmem : q ∈ svc.outstanding := hq
    rw [hnil] at hmem
    exact absurd hmem List.not_mem_nil

end Sends

/-! ### Runs -/

/-- What the runs keep. -/
structure Reporting (p : Platform) (w : World) : Prop where
  services : Services w
  measured : Measured w
  cycle : CycleInvariant p w
  sends : Sends p w

/-- What a post would render is a measurement of `uint16_t` values. -/
theorem Reporting.last (h : Reporting p w) (hfault : w.fault = false) :
    (lastDecoded w.log).InRange := by
  obtain ⟨c, hacc, htracks⟩ := h.cycle
  have hlast : lastDecoded w.log = w.triple :=
    (triple_eq_lastDecoded hacc).symm.trans (htracks hfault).triple
  rw [hlast]
  exact h.measured

/-- **Requests in runs.** -/
theorem reporting_runRule (p : Platform) : RunRule p (fun _ _ => True) (Reporting p) where
  idle {w} clock run armed done2 done4 h :=
    { services := (services_runRule p).idle clock run armed done2 done4 h.services
      measured := (measured_runRule p).idle clock run armed done2 done4 h.measured
      cycle := (cycleInvariant_runRule p).idle clock run armed done2 done4 h.cycle
      sends := h.sends.leaves (.idle w clock run armed done2 done4) (Or.inl ⟨rfl, rfl⟩) }
  node hfault h hrun :=
    { services := h.services.runNode hrun
      measured := (measured_runRule p).node hfault h.measured hrun
      cycle := (cycleInvariant_runRule p).node hfault h.cycle hrun
      sends := h.sends.leaves (.runNode hrun) (runNode_bringsUp hrun) }
  sensor hfault h hrun :=
    { services := h.services.runSensor hrun
      measured := (measured_runRule p).sensor hfault h.measured hrun
      cycle := (cycleInvariant_runRule p).sensor hfault h.cycle hrun
      sends := h.sends.leaves (.runSensor hrun) (runSensor_bringsUp p hrun) }
  sender hfault h hrun :=
    { services := h.services.runSender hrun
      measured := (measured_runRule p).sender hfault h.measured hrun
      cycle := (cycleInvariant_runRule p).sender hfault h.cycle hrun
      sends := h.sends.runSender (h.last hfault) hrun }
  role {w} changed role hfault h :=
    { services := (services_runRule p).role changed role hfault h.services
      measured := (measured_runRule p).role changed role hfault h.measured
      cycle := (cycleInvariant_runRule p).role changed role hfault h.cycle
      sends := h.sends.leaves (.role changed role w) (role_bringsUp p changed role w) }
  autostart {w} sock hfault h :=
    { services := (services_runRule p).autostart sock hfault h.services
      measured := (measured_runRule p).autostart sock hfault h.measured
      cycle := (cycleInvariant_runRule p).autostart sock hfault h.cycle
      sends := h.sends.leaves (.autostart sock w) (Or.inl ⟨rfl, rfl⟩) }
  browse {w i} error response stack hfault hi h :=
    { services := h.services.browseCallback hi error response stack
      measured := (measured_runRule p).browse error response stack hfault hi h.measured
      cycle := (cycleInvariant_runRule p).browse error response stack hfault hi h.cycle
      sends := h.sends.leaves (.browseCallback h.services error response stack)
        (browseCallback_bringsUp p w i error response stack) }
  request error response hfault _ hr h :=
    { services := h.services.requestCallback hr error response
      measured := (measured_runRule p).request error response hfault trivial hr h.measured
      cycle := (cycleInvariant_runRule p).request error response hfault trivial hr h.cycle
      sends := h.sends.requestCallback h.services hr error response }

/-- The firmware boots into the invariant. -/
theorem boot_reporting (p : Platform) (now : UInt32) : Reporting p (boot now) where
  services := boot_services now
  measured := ⟨0, 0, 0, by decide, by decide, by decide, rfl⟩
  cycle := boot_cycleInvariant p now
  sends := ⟨fun hclient => absurd hclient (by simp [boot]),
    fun hclient => absurd hclient (by simp [boot]), fun _ hq => absurd hq List.not_mem_nil⟩

/-- Every post renders the measurement that was decoded last. -/
theorem posts_render_last {now : UInt32} {es : List Event}
    (hrun : (firmware p).run (boot now) es = some w) :
    Always (fun o earlier => ∀ r, o = .post r → Renders p (lastDecoded earlier) r.text r.size)
      w.log := by
  obtain ⟨c, hacc, -⟩ := firmware_accepted hrun
  refine always_of_allows hacc ?_
  rintro o earlier c hstate hallows r rfl
  obtain ⟨-, -, -, -, hrenders⟩ := hallows
  rw [triple_eq_lastDecoded hstate] at hrenders
  exact hrenders

/-- A measurement of `uint16_t` values is sent whole. -/
theorem payload_of_renders {ip6FromString : List UInt8 → Ip6Address → OtError × Ip6Address}
    {co2 rh temp : ℕ} {text : List UInt8} {size : UInt16}
    (hco2 : co2 ≤ 65535) (hrh : rh ≤ 65535) (htemp : temp ≤ 65535)
    (hrenders : Renders (.configured ip6FromString) ⟨co2, rh, temp⟩ text size) :
    text.take size.toNat = appMessageTemplate co2 rh temp := by
  have hlen := appMessageTemplate_length_lt hco2 hrh htemp
  simp only [Renders, Platform.configured, if_pos hlen] at hrenders
  obtain ⟨htext, hsize⟩ := hrenders
  have hsmall : appMessageMaxLen = 1024 := rfl
  have hcut : (appMessageTemplate co2 rh temp).take (appMessageMaxLen - 1) =
      appMessageTemplate co2 rh temp := List.take_of_length_le (by omega)
  rw [htext, hsize, hcut, UInt16.ofInt_natCast_toNat (by omega), List.take_length]

/-- **What the server is told.** In every run of the firmware as it is configured, every request
that OpenThread has not answered yet goes to the telemetry path of the token, on the port of the
server, and it was accepted in a post. Its payload is a JSON object with the members `co2`, `rh`
and `temp`, whose values are those of the last measurement that was decoded before the post, or
zeros if there was none. -/
theorem outstanding_reports
    (ip6FromString : List UInt8 → Ip6Address → OtError × Ip6Address) (now : UInt32)
    (es : List Event) (hrun : (firmware (.configured ip6FromString)).run (boot now) es = some w) :
    ∀ q ∈ w.coap.outstanding, q.uriPath = appUriTemplate appToken ∧
      q.target.2 = appServicePort ∧
      ∃ r later earlier, w.log = later ++ .post r :: earlier ∧ r.accepted = some q.message ∧
        Json.object q.payload = some (lastDecoded earlier).members := by
  intro q hq
  have h : Reporting (.configured ip6FromString) w :=
    (reporting_runRule _).run_all (boot_reporting _ now) hrun
  obtain ⟨huri, hport, r, later, earlier, hlog, haccepted, hpayload, hrange⟩ :=
    h.sends.reports q hq
  have hwhole : (appUriTemplate appToken).take (uriMaxLen - 1) = appUriTemplate appToken := by
    decide
  refine ⟨huri.trans hwhole, hport, r, later, earlier, hlog, haccepted, ?_⟩
  have halways := posts_render_last hrun
  rw [hlog] at halways
  have hrenders := halways.of_append.1 r rfl
  obtain ⟨co2, rh, temp, hco2, hrh, htemp, hlast⟩ := hrange
  rw [hlast] at hrenders ⊢
  rw [hpayload, payload_of_renders hco2 hrh htemp hrenders, object_appMessageTemplate]

/-- The request of the first cycle: the first post has been made, and its callback is to come. -/
theorem first_outstanding_reports : ∃ w,
    (firmware (.configured parseLoopback)).run (boot 0)
        (connecting 0 measuring ++ [.pass measuring]) = some w ∧
      ∀ q ∈ w.coap.outstanding, q.uriPath = appUriTemplate appToken ∧
        q.target.2 = appServicePort ∧
        ∃ r later earlier, w.log = later ++ .post r :: earlier ∧ r.accepted = some q.message ∧
          Json.object q.payload = some (lastDecoded earlier).members :=
  ⟨_, rfl, outstanding_reports parseLoopback 0 (connecting 0 measuring ++ [.pass measuring]) rfl⟩

end SmartCO2
