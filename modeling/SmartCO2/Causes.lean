import SmartCO2.Progress
import SmartCO2.Silence

/-!
# What Silences the Firmware

The causes in `Silenced`, read off what has happened. The client stays busy with nothing exactly
if a post that nothing stood in the way of was not accepted. An operation is undefined exactly if
a message was posted to `NULL`, or if the last event was an answer that does not fit into `ip`.

## Main results

* `wedged_iff`: every accepted request is answered or outstanding, and the client is wedged
  exactly if some post was not taken on.
* `fault_iff`: the two ways to an undefined operation.
-/

namespace SmartCO2

variable {p : Platform} {inp : PassInput} {w w' : World}

/-! ### Requests -/

/-- The callback of a request. -/
def Obs.isCallback : Obs → Bool
  | .callback .. => true
  | _ => false

/-- The number of the callbacks of requests. -/
def answered (l : List Obs) : ℕ := l.countP Obs.isCallback

/-- A post that nothing stands in the way of is accepted: there is a client, the message is not
too long, and every accepted request has had its callback. -/
def TakenOn (o : Obs) (earlier : List Obs) : Prop :=
  ∀ r, o = .post r → r.client = .client → r.size.toNat < msgMaxLen →
    accepted earlier = answered earlier → r.accepted.isSome = true

/-- Only posts are taken on. -/
theorem takenOn_of_isPost {o : Obs} (h : o.isPost = false) (earlier : List Obs) :
    TakenOn o earlier := by
  rintro r rfl
  exact absurd h (by simp [Obs.isPost])

/-- Neither a post nor a callback. -/
def Obs.isAside (o : Obs) : Bool := !o.isPost && !o.isCallback

/-- Its two parts. -/
theorem isAside_iff {o : Obs} : o.isAside = true ↔ o.isPost = false ∧ o.isCallback = false := by
  simp [Obs.isAside]

/-- It is not accepted. -/
theorem isAccepted_of_isAside {o : Obs} (h : o.isAside = true) : o.isAccepted = false := by
  cases o <;> first | rfl | exact absurd h (by simp [Obs.isAside, Obs.isPost])

/-- What is not of the sending process is neither. -/
theorem isAside_of_ofSender {o : Obs} (h : o.ofSender = false) : o.isAside = true := by
  cases o <;> first | rfl | cases h

/-- The accounts of the requests: each accepted one is answered or outstanding, and the client is
wedged if and only if a post was not taken on. -/
structure Accounted (w : World) : Prop where
  count : accepted w.log = answered w.log + w.coap.outstanding.length
  wedged : Wedged w ↔ ¬ Always TakenOn w.log

namespace Accounted

/-- Observations that do not count. -/
theorem notes (h : Accounted w) {new : List Obs} (hlog : w'.log = new ++ w.log)
    (hnew : ∀ o ∈ new, o.isAside = true) (hout : w'.coap.outstanding = w.coap.outstanding)
    (hwedged : Wedged w' ↔ Wedged w) : Accounted w' := by
  have hanswered : answered (new ++ w.log) = answered w.log := by
    have hnone : new.countP Obs.isCallback = 0 := by
      rw [List.countP_eq_zero]
      exact fun o ho => by simp [(isAside_iff.mp (hnew o ho)).2]
    rw [answered, List.countP_append, hnone, Nat.zero_add, answered]
  have htaken : Always TakenOn (new ++ w.log) ↔ Always TakenOn w.log := by
    refine ⟨Always.of_append, fun halways => halways.append fun o ho => ?_⟩
    exact takenOn_of_isPost (isAside_iff.mp (hnew o ho)).1
  refine ⟨?_, ?_⟩
  · rw [hlog, accepted_append fun o ho => isAccepted_of_isAside (hnew o ho), hanswered, hout]
    exact h.count
  · rw [hwedged, h.wedged, hlog, htaken]

/-- What leaves the sending process alone, and at most brings the client up. -/
theorem leaves (h : Accounted w) (hleaves : LeavesSender w w') (hup : BringsUp p w w') :
    Accounted w' := by
  obtain ⟨new, hlog, hnew⟩ := hleaves.log
  refine h.notes hlog (fun o ho => isAside_of_ofSender (hnew o ho)) hleaves.outstanding ?_
  rcases hup with ⟨hptr, hsvc⟩ | ⟨hnull, hnew⟩
  · rw [Wedged, hptr, hsvc, Wedged]
  · constructor
    · rintro ⟨hptr, hbusy, -⟩
      exact absurd ((hnew hptr).busy.symm.trans hbusy) Bool.false_ne_true
    · rintro ⟨hptr, -, -⟩
      exact absurd (hnull.symm.trans hptr) (by simp)

end Accounted

/-- A post keeps the target. -/
theorem coapSchedulePost_target (svc : CoapService Var) (mem : Memory Var) (message : List UInt8)
    (size : UInt16) (done errorOut : Var) (out : PostOutcome) :
    (coapSchedulePost svc mem message size done errorOut out).2.1.client.target =
      svc.client.target := by
  cases hbusy : svc.client.busy with
  | true => rw [coapSchedulePost_of_busy hbusy]
  | false =>
      rcases le_or_gt msgMaxLen size.toNat with hsize | hsize
      · rw [coapSchedulePost_of_long hbusy hsize]
      · by_cases hok : out = .success
        · rw [hok, coapSchedulePost_of_success hbusy hsize]
        · cases hnew : out.newMessage with
          | false =>
              rw [coapSchedulePost_of_noMessage hbusy hsize hnew]
              rfl
          | true =>
              obtain ⟨error, -, hpost⟩ :=
                coapSchedulePost_of_failedCall hbusy hsize hnew hok mem message done errorOut
              rw [hpost]
              rfl

/-- **What a new execution of the sending process does**: it posts to `NULL` and is stuck, its post
is refused and leaves the client as it is, or a free client takes up the post and accepts it or
is left busy. The URI and the target of the client stay what they are. -/
theorem coapSendingProcess_posts (p : Platform) (inp : PassInput) (w : World) : ∃ w₁ j r,
    (coapSendingProcess p inp).entry w = (w₁, j) ∧ w₁.log = .post r :: w.log ∧
      r.client = w.app.coap ∧ w₁.app.coap = w.app.coap ∧ (j = .stuck ↔ r.client = .null) ∧
      w₁.coap.client.uri = w.coap.client.uri ∧ w₁.coap.client.target = w.coap.client.target ∧
      ((w₁.coap = w.coap ∧ r.accepted = none ∧
          (r.client = .client → w.coap.client.busy = true ∨ msgMaxLen ≤ r.size.toNat)) ∨
        (r.client = .client ∧ r.size.toNat < msgMaxLen ∧ w.coap.client.busy = false ∧
          ((r.accepted = none ∧ w₁.coap.client.busy = true ∧
              w₁.coap.outstanding = w.coap.outstanding) ∨
            ∃ q, r.accepted = some q.message ∧
              w₁.coap.outstanding = w.coap.outstanding ++ [q] ∧
              q.uriPath = w.coap.client.uri ∧ q.target = w.coap.client.target ∧
              q.payload = r.text.take r.size.toNat))) := by
  obtain ⟨clock, hbuild⟩ := senderBuild_eq p w
  cases hptr : w.app.coap with
  | null =>
      simp only [coapSendingProcess, senderPost, hbuild, hptr]
      exact ⟨_, _, _, rfl, rfl, rfl, rfl, by simp, rfl, rfl,
        Or.inl ⟨rfl, rfl, by simp⟩⟩
  | client =>
      simp only [coapSendingProcess, senderPost, hbuild, hptr]
      cases hbusy : w.coap.client.busy with
      | true =>
          simp only [coapSchedulePost_of_busy hbusy]
          exact ⟨_, _, _, rfl, rfl, rfl, rfl, by simp, rfl, rfl,
            Or.inl ⟨rfl, rfl, fun _ => Or.inl trivial⟩⟩
      | false =>
          rcases le_or_gt msgMaxLen (UInt16.ofInt
            (buildMessage p w.app.message w.app.co2 w.app.rh w.app.temp).1).toNat with
            hsize | hsize
          · simp only [coapSchedulePost_of_long hbusy hsize]
            exact ⟨_, _, _, rfl, rfl, rfl, rfl, by simp, rfl, rfl,
              Or.inl ⟨rfl, rfl, fun _ => Or.inr hsize⟩⟩
          · by_cases hok : inp.post = .success
            · simp only [hok, coapSchedulePost_of_success hbusy hsize]
              exact ⟨_, _, _, rfl, rfl, rfl, rfl, by simp, rfl, rfl,
                Or.inr ⟨rfl, hsize, trivial, Or.inr ⟨_, rfl, rfl, rfl, rfl, rfl⟩⟩⟩
            · obtain ⟨error, svc', heq, herror, hbusy', hout, -, -⟩ :=
                coapSchedulePost_of_failure hbusy hsize hok
                  ((w.mem.setBool .sender false).setError .sender .none)
                  (buildMessage p w.app.message w.app.co2 w.app.rh w.app.temp).2 .sender .sender
              have huri := (coapSchedulePost_uri w.coap
                ((w.mem.setBool .sender false).setError .sender .none)
                (buildMessage p w.app.message w.app.co2 w.app.rh w.app.temp).2
                (UInt16.ofInt (buildMessage p w.app.message w.app.co2 w.app.rh w.app.temp).1)
                .sender .sender inp.post).1
              have htarget := coapSchedulePost_target w.coap
                ((w.mem.setBool .sender false).setError .sender .none)
                (buildMessage p w.app.message w.app.co2 w.app.rh w.app.temp).2
                (UInt16.ofInt (buildMessage p w.app.message w.app.co2 w.app.rh w.app.temp).1)
                .sender .sender inp.post
              rw [heq] at huri htarget
              simp only [heq]
              exact ⟨_, _, _, rfl, rfl, rfl, rfl, by simp, huri, htarget,
                Or.inr ⟨rfl, hsize, trivial, Or.inl ⟨if_neg herror, hbusy', hout⟩⟩⟩

/-- The post of a cycle. -/
theorem Accounted.post (hs : Services w) (h : Accounted w) :
    Accounted ((coapSendingProcess p inp).entry w).1 := by
  obtain ⟨w₁, j, r, hentry, hlog, hclient, hptr, -, -, -, hcase⟩ := coapSendingProcess_posts p inp w
  rw [hentry]
  rcases hcase with ⟨hsvc, hnone, hwhy⟩ | ⟨hc, hsize, hidle, hcase⟩
  · have hsame : Wedged w₁ ↔ Wedged w := by rw [Wedged, hptr, hsvc, Wedged]
    refine ⟨?_, ?_⟩
    · rw [hlog, hsvc]
      simpa [accepted, answered, Obs.isAccepted, Obs.isCallback, hnone] using h.count
    · rw [hsame, hlog, always_cons]
      refine ⟨fun hwedged halways => h.wedged.mp hwedged halways.2, fun hnot => ?_⟩
      -- a client that is not wedged refuses the post because of a request or of the size
      by_contra hfree
      have halways : Always TakenOn w.log := by
        by_contra hnever
        exact hfree (h.wedged.mpr hnever)
      refine hnot ⟨?_, halways⟩
      rintro r' hr' hc hsize hsettled
      obtain rfl := Obs.post.inj hr'
      have hout : w.coap.outstanding = [] := by
        have hcount := h.count
        rw [hsettled, Nat.left_eq_add] at hcount
        exact List.length_eq_zero_iff.mp hcount
      rcases hwhy hc with hbusy | hlong
      · exact absurd ⟨hclient.symm.trans hc, hbusy, hout⟩ hfree
      · omega
  · have hout := hs.request.outstanding_eq_nil hidle
    have hcount := h.count
    rw [hout, List.length_nil, Nat.add_zero] at hcount
    have hfree : ¬ Wedged w := fun hwedged =>
      absurd (hidle.symm.trans hwedged.2.1) Bool.false_ne_true
    have halways : Always TakenOn w.log := by
      by_contra hnever
      exact hfree (h.wedged.mpr hnever)
    rcases hcase with ⟨hnone, hbusy, hsame⟩ | ⟨q, hsome, hone, -⟩
    · refine ⟨?_, ?_⟩
      · rw [hlog, hsame, hout]
        simpa [accepted, answered, Obs.isAccepted, Obs.isCallback, hnone] using hcount
      · rw [hlog, always_cons]
        refine ⟨fun _ hnow => ?_, fun _ => ⟨hptr.trans (hclient.symm.trans hc), hbusy, ?_⟩⟩
        · have htaken := hnow.1 r rfl hc hsize hcount
          rw [hnone] at htaken
          exact absurd htaken (by simp)
        · rw [hsame, hout]
    · refine ⟨?_, ?_⟩
      · rw [hlog, hone, hout]
        simpa [accepted, answered, Obs.isAccepted, Obs.isCallback, hsome] using hcount
      · rw [hlog, always_cons]
        refine ⟨fun hwedged => ?_, fun hnot => ?_⟩
        · have hnil := hwedged.2.2
          rw [hone] at hnil
          exact absurd hnil (by simp)
        · refine absurd ⟨?_, halways⟩ hnot
          rintro r' hr' - - -
          obtain rfl := Obs.post.inj hr'
          rw [hsome]
          rfl

/-- A call of the sending process. -/
theorem Accounted.runSender (hs : Services w) (h : Accounted w)
    (hrun : runSender p inp w = some w') : Accounted w' := by
  rcases runSender_cases hrun with ⟨-, rfl⟩ | ⟨-, -, w₁, j, hresume, rfl⟩
  · exact h
  · have hkeeps : (coapSendingProcess p inp).Keeps fun _ s => Accounted s := by
      refine Protothread.Keeps.of_tests ?_ ?_ (fun _ _ _ _ hs => hs)
      · intro l s hs
        obtain ⟨clock, notes, heq, hnotes⟩ := senderGuard_eq l s
        simp only [coapSendingProcess, heq]
        refine hs.notes rfl (fun o ho => ?_) rfl Iff.rfl
        obtain ⟨_, _, _, _, rfl⟩ := hnotes o ho
        rfl
      · intro l s hs
        obtain ⟨reports, heq, hreports⟩ := senderReport_eq s
        simp only [coapSendingProcess, senderBody, heq]
        have hnotes : ∀ o ∈ .cycleEnded :: reports, o.isAside = true := by
          intro o ho
          rcases List.mem_cons.mp ho with rfl | ho
          · rfl
          · rcases hreports o ho with rfl | rfl <;> rfl
        exact hs.notes rfl hnotes rfl Iff.rfl
    have hresumed := hkeeps.resume (fun _ => h.post hs) (fun _ _ => h) hresume
    exact ⟨hresumed.count, hresumed.wedged⟩

/-- The callback of a request. -/
theorem Accounted.requestCallback (hs : Services w) (h : Accounted w) {i : ℕ} {r : Request}
    (hr : w.coap.outstanding[i]? = some r) (error : OtError) (response : Bool) :
    Accounted (requestCallback w i r error response) := by
  obtain ⟨svc, hone, hnil, hidle, heq⟩ := hs.requestCallback_eq hr error response
  have hcount := h.count
  rw [hone, List.length_singleton] at hcount
  have hfree : ¬ Wedged w := fun hwedged => absurd (hone.symm.trans hwedged.2.2) (by simp)
  have halways : Always TakenOn w.log := by
    by_contra hnever
    exact hfree (h.wedged.mpr hnever)
  rw [heq]
  refine ⟨?_, fun hwedged => ?_, fun hnot => ?_⟩
  · have hlog : accepted (.callback r.message error :: w.log) =
        answered (.callback r.message error :: w.log) + svc.outstanding.length := by
      rw [hnil]
      simpa [accepted, answered, Obs.isAccepted, Obs.isCallback, List.countP_cons] using hcount
    exact hlog
  · have hbusy : svc.client.busy = true := hwedged.2.1
    rw [hidle] at hbusy
    exact absurd hbusy Bool.false_ne_true
  · have hnow : Always TakenOn (.callback r.message error :: w.log) :=
      ⟨takenOn_of_isPost rfl _, halways⟩
    exact absurd hnow hnot

/-- **The accounts in runs.** -/
theorem accounted_runRule (p : Platform) :
    RunRule p (fun _ _ => True) fun w => Services w ∧ Accounted w where
  idle {w} clock run armed done2 done4 h :=
    ⟨{ h.1 with }, h.2.leaves (p := p) (.idle w clock run armed done2 done4) (Or.inl ⟨rfl, rfl⟩)⟩
  node _ h hrun := ⟨h.1.runNode hrun, h.2.leaves (.runNode hrun) (runNode_bringsUp hrun)⟩
  sensor _ h hrun := ⟨h.1.runSensor hrun, h.2.leaves (.runSensor hrun) (runSensor_bringsUp p hrun)⟩
  sender _ h hrun := ⟨h.1.runSender hrun, h.2.runSender h.1 hrun⟩
  role {w} changed role hfault h :=
    ⟨(services_runRule p).role changed role hfault h.1,
      h.2.leaves (.role changed role w) (role_bringsUp p changed role w)⟩
  autostart {w} sock hfault h :=
    ⟨(services_runRule p).autostart sock hfault h.1,
      h.2.leaves (p := p) (.autostart sock w) (Or.inl ⟨rfl, rfl⟩)⟩
  browse {w i} error response stack _ hi h :=
    ⟨h.1.browseCallback hi error response stack,
      h.2.leaves (.browseCallback h.1 error response stack)
        (browseCallback_bringsUp p w i error response stack)⟩
  request error response _ _ hr h :=
    ⟨h.1.requestCallback hr error response, h.2.requestCallback h.1 hr error response⟩

/-- **When the client is wedged.** In every reachable state the accepted requests are the answered
and the outstanding ones, and the client is busy with nothing if and only if there was a post that
nothing stood in the way of, and that was not accepted. -/
theorem wedged_iff (p : Platform) (now : UInt32) (es : List Event)
    (hrun : (firmware p).run (boot now) es = some w) :
    accepted w.log = answered w.log + w.coap.outstanding.length ∧
      (Wedged w ↔ ¬ Always TakenOn w.log) := by
  have hboot : Accounted (boot now) := ⟨rfl, by simp [Wedged, boot], by simp [boot, Always]⟩
  obtain ⟨-, hcount, hwedged⟩ :=
    (accounted_runRule p).run_all ⟨boot_services now, hboot⟩ hrun
  exact ⟨hcount, hwedged⟩

/-- The first cycle. -/
theorem first_wedged_iff : ∃ w,
    (firmware (.configured parseLoopback)).run (boot 0) firstCycle = some w ∧
      accepted w.log = answered w.log + w.coap.outstanding.length ∧
      (Wedged w ↔ ¬ Always TakenOn w.log) :=
  ⟨_, rfl, wedged_iff (.configured parseLoopback) 0 firstCycle rfl⟩

/-! ### Undefined operations -/

/-- A message was posted to `NULL`. -/
def NullPosted (l : List Obs) : Prop := ∃ r, .post r ∈ l ∧ r.client = .null

/-- An answer to a browse whose value does not fit into `ip`. -/
def Event.Overflows : Event → Prop
  | .browseResult _ error response _ => OverflowsIp error response
  | _ => False

/-- Observations without a post. -/
theorem nullPosted_append {new : List Obs} (h : ∀ o ∈ new, o.isPost = false) (l : List Obs) :
    NullPosted (new ++ l) ↔ NullPosted l := by
  constructor
  · rintro ⟨r, hmem, hnull⟩
    rcases List.mem_append.mp hmem with hnew | hl
    · exact absurd (h _ hnew) (by simp [Obs.isPost])
    · exact ⟨r, hl, hnull⟩
  · rintro ⟨r, hmem, hnull⟩
    exact ⟨r, List.mem_append_right new hmem, hnull⟩

/-- One post more. -/
theorem nullPosted_post (r : PostRecord) (l : List Obs) :
    NullPosted (.post r :: l) ↔ r.client = .null ∨ NullPosted l := by
  simp [NullPosted, or_and_right, exists_or]

/-- The sending process is stuck exactly if it has posted to `NULL`. -/
theorem coapSendingProcess_explained (p : Platform) (inp : PassInput) :
    (coapSendingProcess p inp).Keeps fun j s => j = .stuck ↔ NullPosted s.log where
  blocked {l s s'} hj hguard := by
    obtain ⟨clock, notes, heq, hnotes⟩ := senderGuard_eq l s
    obtain rfl : s' = _ := (congrArg Prod.fst hguard).symm.trans heq
    refine hj.trans (nullPosted_append (fun o ho => ?_) s.log).symm
    obtain ⟨_, _, _, _, rfl⟩ := hnotes o ho
    rfl
  passed {l s s'} hj hguard := by
    obtain ⟨clock, notes, heq, hnotes⟩ := senderGuard_eq l s
    obtain rfl : s' = _ := (congrArg Prod.fst hguard).symm.trans heq
    obtain ⟨reports, hreport, hreports⟩ := senderReport_eq
      { s with clock := clock, log := notes ++ s.log }
    have haside : ∀ o ∈ .cycleEnded :: (reports ++ notes), o.isPost = false := by
      intro o ho
      simp only [List.mem_cons, List.mem_append] at ho
      rcases ho with rfl | ho | ho
      · rfl
      · rcases hreports o ho with rfl | rfl <;> rfl
      · obtain ⟨_, _, _, _, rfl⟩ := hnotes o ho
        rfl
    have hsame := nullPosted_append haside s.log
    rw [List.cons_append, List.append_assoc] at hsame
    simp only [coapSendingProcess, senderBody, hreport]
    have hopen : ¬ NullPosted s.log := fun hnull => absurd (hj.mpr hnull) (by simp)
    exact iff_of_false (by simp) fun hnull => hopen (hsame.mp hnull)
  undefined {l s s'} _ hguard := by
    obtain ⟨_, _, _, _, -, hdefined⟩ := senderGuard_log l s
    exact absurd ((congrArg Prod.snd hguard).symm.trans hdefined) (by simp)

/-- An undefined operation is explained by a post to `NULL`. -/
structure Explained (w : World) : Prop where
  mdns : HasMdns w
  fault : w.fault = true ↔ NullPosted w.log

namespace Explained

/-- What leaves the sending process alone, and does not get stuck. -/
theorem leaves (h : Explained w) (hmdns : HasMdns w') (hleaves : LeavesSender w w')
    (hfault : w'.fault = w.fault) : Explained w' := by
  obtain ⟨new, hlog, hnew⟩ := hleaves.log
  refine ⟨hmdns, ?_⟩
  rw [hfault, hlog, nullPosted_append fun o ho => isPost_of_ofSender (hnew o ho)]
  exact h.fault

/-- A call of the sending process: it is stuck exactly if it posts to `NULL`. -/
theorem runSender (h : Explained w) (hfault : w.fault = false)
    (hrun : runSender p inp w = some w') : Explained w' := by
  refine ⟨(hasMdns_runRule p).sender hfault h.mdns hrun, ?_⟩
  have hnone : ¬ NullPosted w.log := fun hnull =>
    absurd (hfault.symm.trans (h.fault.mpr hnull)) Bool.false_ne_true
  rcases runSender_cases hrun with ⟨-, rfl⟩ | ⟨-, -, w₁, j, hresume, rfl⟩
  · exact h.fault
  · have hentry : ((coapSendingProcess p inp).entry w).2 = .stuck ↔
        NullPosted ((coapSendingProcess p inp).entry w).1.log := by
      obtain ⟨w₂, j₂, r, hentry, hlog, -, -, hstuck, -⟩ := coapSendingProcess_posts p inp w
      rw [hentry, hlog, nullPosted_post, hstuck]
      simp [hnone]
    have hj := (coapSendingProcess_explained p inp).resume (fun _ => hentry)
      (fun _ _ => by simp [hnone]) hresume
    exact decide_eq_true_iff.trans hj

end Explained

/-- **Where a pass gets stuck.** The calls of the threads keep it explained. -/
theorem explained_passRule (p : Platform) : PassRule p Explained where
  idle _ _ _ _ _ h := ⟨h.mdns.leaves rfl rfl rfl, h.fault⟩
  node hfault h hrun := by
    obtain ⟨hmdns, hdefined⟩ := h.mdns.runNode hrun
    refine h.leaves hmdns (.runNode hrun) ?_
    rw [hfault]
    exact Bool.not_eq_true _ ▸ fun hstuck => absurd (hfault.symm.trans (hdefined hstuck)) (by simp)
  sensor hfault h hrun :=
    h.leaves ((hasMdns_runRule p).sensor hfault h.mdns hrun) (.runSensor hrun)
      (runSensor_fault hrun)
  sender hfault h hrun := h.runSender hfault hrun

/-- A browse callback is undefined exactly if it overflows `ip`. -/
theorem browseCallback_fault (h : Services w) (hfault : w.fault = false) {i : ℕ}
    (hi : i < w.dns.outstanding.length) (error : OtError) (response : BrowseResponse)
    (stack : List UInt8) :
    (browseCallback p w i error response stack).fault = true ↔ OverflowsIp error response := by
  rcases h.browse with ⟨-, hnil⟩ | ⟨b, -, -, haddr, hdone, herr⟩
  · rw [hnil] at hi
    exact absurd hi (by simp)
  · have hundefined : browseResult p.ip6FromString error response stack
        (w.mem.address b.address) = none ↔ OverflowsIp error response := browseResult_eq_none_iff
    rw [← hundefined]
    cases hresult : browseResult p.ip6FromString error response stack
        (w.mem.address b.address) with
    | none =>
        have hnone : w.dns.result p.ip6FromString w.mem i error response stack = none := by
          simp [DnsService.result, dnsResultCallback, haddr, hdone, herr, hresult]
        simp [browseCallback, hnone]
    | some r =>
        rw [browseCallback, result_eq_some haddr hdone herr hresult i]
        simp [World.note, hfault]

/-- **One event**: a browse callback that overflows `ip` is undefined, and after every other event
an undefined operation is explained by a post to `NULL`. -/
theorem Explained.step {e : Event} (hs : Services w) (h : Explained w)
    (hstep : step p w e = some w') :
    (e.Overflows ∧ w'.fault = true) ∨ (¬ e.Overflows ∧ Explained w') := by
  have hmdns := (hasMdns_runRule p).step h.mdns trivial hstep
  rw [step.eq_def] at hstep
  split at hstep
  · exact absurd hstep (by simp)
  next hfault =>
  have hfault : w.fault = false := Bool.not_eq_true _ ▸ hfault
  cases e with
  | pass inp => exact Or.inr ⟨id, (explained_passRule p).mainLoopPass hfault h hstep⟩
  | clock now =>
      obtain rfl := Option.some.inj hstep
      exact Or.inr ⟨id, hmdns, h.fault⟩
  | role changed role =>
      obtain rfl := Option.some.inj hstep
      refine Or.inr ⟨id, h.leaves hmdns (.role changed role w) ?_⟩
      rw [handleNetifStateChanged.eq_def]
      split
      · cases role <;> rfl
      · rfl
  | autostart sock =>
      simp only at hstep
      split at hstep
      · obtain rfl := Option.some.inj hstep
        exact Or.inr ⟨id, hmdns, h.fault⟩
      · exact absurd hstep (by simp)
  | browseResult i error response stack =>
      simp only at hstep
      split at hstep
      · next hi =>
          obtain rfl := Option.some.inj hstep
          have hundefined := browseCallback_fault (p := p) hs hfault hi error response stack
          by_cases hoverflow : OverflowsIp error response
          · exact Or.inl ⟨hoverflow, hundefined.mpr hoverflow⟩
          · refine Or.inr ⟨hoverflow, h.leaves hmdns (.browseCallback hs error response stack) ?_⟩
            rw [hfault]
            exact Bool.not_eq_true _ ▸ fun hstuck => hoverflow (hundefined.mp hstuck)
      · exact absurd hstep (by simp)
  | callback i error response =>
      obtain ⟨r, hr, rfl⟩ := Option.map_eq_some_iff.mp hstep
      obtain ⟨svc, -, -, -, heq⟩ := hs.requestCallback_eq hr error response
      refine Or.inr ⟨id, hmdns, ?_⟩
      have haside : ∀ o ∈ [Obs.callback r.message error], o.isPost = false := by
        simp [Obs.isPost]
      rw [heq]
      exact h.fault.trans (nullPosted_append haside w.log).symm
  | timer =>
      simp only at hstep
      split at hstep
      · obtain rfl := Option.some.inj hstep
        obtain ⟨run, armed, heq⟩ := timerCallback_eq true w
        refine Or.inr ⟨id, hmdns, ?_⟩
        rw [heq]
        exact h.fault
      · exact absurd hstep (by simp)

/-- Nothing happens any more after an undefined operation. -/
theorem step_fault {e : Event} (hstep : step p w e = some w') : w.fault = false := by
  rw [step.eq_def] at hstep
  split at hstep
  · exact absurd hstep (by simp)
  · next hfault => exact Bool.not_eq_true _ ▸ hfault

/-- **The ways to an undefined operation.** In a run, an operation is undefined if and only if a
message was posted to `NULL`, or the last event was an answer to a browse that overflows `ip`. -/
theorem fault_iff (p : Platform) (now : UInt32) (es : List Event)
    (hrun : (firmware p).run (boot now) es = some w) :
    w.fault = true ↔ NullPosted w.log ∨ ∃ e ∈ es.getLast?, e.Overflows := by
  have hboot : Explained (boot now) := ⟨boot_hasMdns now, by simp [boot, NullPosted]⟩
  rcases es.eq_nil_or_concat with rfl | ⟨before, e, rfl⟩
  · obtain rfl := Option.some.inj hrun
    simpa using hboot.fault
  · rw [List.concat_eq_append] at hrun ⊢
    obtain ⟨w₀, hrun₀, hstep⟩ := StepSystem.run_concat_eq_some.mp hrun
    have hkeep : ∀ s e s', (Services s ∧ (s.fault = false → Explained s)) →
        (firmware p).step s e = some s' → Services s' ∧ (s'.fault = false → Explained s') := by
      rintro s e s' ⟨hs, h⟩ hstep
      refine ⟨(services_runRule p).step hs trivial hstep, fun hfault => ?_⟩
      rcases (h (step_fault hstep)).step hs hstep with ⟨-, hstuck⟩ | ⟨-, h'⟩
      · exact absurd (hfault.symm.trans hstuck) Bool.false_ne_true
      · exact h'
    obtain ⟨hs, h⟩ := StepSystem.run_invariant hkeep ⟨boot_services now, fun _ => hboot⟩ hrun₀
    rw [List.getLast?_concat]
    rcases (h (step_fault hstep)).step hs hstep with ⟨hoverflow, hstuck⟩ | ⟨hnot, h'⟩
    · exact iff_of_true hstuck (Or.inr ⟨e, rfl, hoverflow⟩)
    · rw [h'.fault]
      refine ⟨Or.inl, fun hcase => hcase.resolve_right ?_⟩
      rintro ⟨e', he', hoverflow⟩
      obtain rfl := Option.some.inj he'
      exact hnot hoverflow

/-- The first cycle. -/
theorem first_fault_iff : ∃ w,
    (firmware (.configured parseLoopback)).run (boot 0) firstCycle = some w ∧
      (w.fault = true ↔ NullPosted w.log ∨ ∃ e ∈ firstCycle.getLast?, e.Overflows) :=
  ⟨_, rfl, fault_iff (.configured parseLoopback) 0 firstCycle rfl⟩

end SmartCO2
