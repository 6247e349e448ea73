import SmartCO2.Discovery
import SmartCO2.RequestUri

/-!
# A Node That Reports No More

What keeps the node from ever reporting again. An undefined operation ends everything. A search
that was disturbed leaves the node without a CoAP client, and no thread looks for one any more. A
post that fails on its way leaves the client busy with nothing outstanding, so that no callback
will ever free it, and every later post is refused.

## Main results

* `Silenced.accepted_eq`: once one of the three has happened, no post is accepted any more,
  whatever the environment does.
-/

namespace SmartCO2

variable {p : Platform} {inp : PassInput} {w w' : World}

/-! ### Accepted posts -/

/-- A post that OpenThread has accepted. -/
def Obs.isAccepted : Obs → Bool
  | .post r => r.accepted.isSome
  | _ => false

/-- The number of the accepted posts. -/
def accepted (l : List Obs) : ℕ := l.countP Obs.isAccepted

/-- Other observations do not count. -/
theorem accepted_append {new : List Obs} (h : ∀ o ∈ new, o.isAccepted = false) (l : List Obs) :
    accepted (new ++ l) = accepted l := by
  have hnone : accepted new = 0 := by
    rw [accepted, List.countP_eq_zero]
    exact fun o ho => by simp [h o ho]
  rw [accepted, List.countP_append]
  exact (Nat.add_eq_right).mpr hnone

/-- What leaves the sending process alone posts nothing. -/
theorem LeavesSender.accepted_eq (h : LeavesSender w w') : accepted w'.log = accepted w.log := by
  obtain ⟨new, hlog, hnew⟩ := h.log
  rw [hlog]
  refine accepted_append (fun o ho => ?_) w.log
  have hother := hnew o ho
  cases o <;> first | rfl | cases hother

/-! ### The causes -/

/-- The CoAP client is busy with nothing. -/
def Wedged (w : World) : Prop :=
  w.app.coap = .client ∧ w.coap.client.busy = true ∧ w.coap.outstanding = []

/-- The firmware is stuck, has lost its CoAP client, or has one that stays busy. -/
def Silenced (w : World) : Prop :=
  w.fault = true ∨ ¬ Always Undisturbed w.log ∨ Wedged w

instance (w : World) : Decidable (Wedged w) := inferInstanceAs (Decidable (_ ∧ _ ∧ _))

instance (w : World) : Decidable (Silenced w) := inferInstanceAs (Decidable (_ ∨ _ ∨ _))

/-- A client that was lost stays lost. -/
theorem searchOf_append_of_lost {l : List Obs} (h : searchOf l = .lost) (new : List Obs) :
    searchOf (new ++ l) = .lost := by
  induction new with
  | nil => exact h
  | cons o new ih =>
      rw [List.cons_append, searchOf, ih]
      rfl

/-- There is no client, or the client is busy. -/
def RefusesPosts (w : World) : Prop := w.app.coap = .null ∨ w.coap.client.busy = true

/-- Without a free client the sending process posts in vain, and leaves the client as it is. -/
theorem runSender_refused (h : RefusesPosts w) (hrun : runSender p inp w = some w') :
    Continues (fun o => o.isAccepted = false) w.log w'.log ∧ w'.coap = w.coap ∧
      w'.app.coap = w.app.coap := by
  rcases runSender_cases hrun with ⟨-, rfl⟩ | ⟨-, -, w₁, j, hresume, rfl⟩
  · exact ⟨⟨[], rfl, by simp⟩, rfl, rfl⟩
  · have hkeeps : (coapSendingProcess p inp).Keeps fun _ s =>
        Continues (fun o => o.isAccepted = false) w.log s.log ∧ s.coap = w.coap ∧
          s.app.coap = w.app.coap := by
      refine Protothread.Keeps.of_tests ?_ ?_ (fun _ _ _ _ hs => hs)
      · rintro l s ⟨hlog, hcoap, hclient⟩
        obtain ⟨clock, notes, heq, hnotes⟩ := senderGuard_eq l s
        simp only [coapSendingProcess, heq]
        refine ⟨hlog.trans ⟨notes, rfl, fun o ho => ?_⟩, hcoap, hclient⟩
        obtain ⟨_, _, _, _, rfl⟩ := hnotes o ho
        rfl
      · rintro l s ⟨hlog, hcoap, hclient⟩
        obtain ⟨reports, heq, hreports⟩ := senderReport_eq s
        simp only [coapSendingProcess, senderBody, heq]
        refine ⟨hlog.trans ⟨.cycleEnded :: reports, rfl, fun o ho => ?_⟩, hcoap, hclient⟩
        rcases List.mem_cons.mp ho with rfl | ho
        · rfl
        · rcases hreports o ho with rfl | rfl <;> rfl
    have hentry : Continues (fun o => o.isAccepted = false) w.log
          ((coapSendingProcess p inp).entry w).1.log ∧
        ((coapSendingProcess p inp).entry w).1.coap = w.coap ∧
        ((coapSendingProcess p inp).entry w).1.app.coap = w.app.coap := by
      obtain ⟨clock, hbuild⟩ := senderBuild_eq p w
      simp only [coapSendingProcess, senderPost, hbuild]
      split
      · exact ⟨⟨[.post _], rfl, by simp [Obs.isAccepted]⟩, rfl, rfl⟩
      · next hclient =>
          have hbusy : w.coap.client.busy = true :=
            h.resolve_left fun hnull => absurd (hnull.symm.trans hclient) (by simp)
          simp only [coapSchedulePost_of_busy hbusy]
          exact ⟨⟨[.post _], rfl, by simp [Obs.isAccepted]⟩, rfl, rfl⟩
    have hresumed := hkeeps.resume (fun _ => hentry) (fun _ _ => ⟨⟨[], rfl, by simp⟩, rfl, rfl⟩)
      hresume
    exact hresumed

/-- A client as `coap_init` leaves it. -/
structure CoapClient.IsNew (token : List UInt8) (client : CoapClient Var) : Prop where
  busy : client.busy = false
  uri : client.uri = (appUriTemplate token).take (uriMaxLen - 1)
  port : client.target.2 = appServicePort

/-- `coap_init` leaves a new client, whether it returns it or not. -/
theorem coapInit_isNew (svc : CoapService Var) (target : Ip6Address) (token : List UInt8)
    (start : OtError) : (coapInit svc target token start).2.client.IsNew token where
  busy := coapInit_busy svc target token start
  uri := coapInit_uri svc target token start
  port := by
    rw [coapInit]
    simp only
    split
    · rfl
    · split <;> rfl

/-- The CoAP client stays what it is, or is brought up: where there was none, there is a new one. -/
def BringsUp (p : Platform) (w w' : World) : Prop :=
  (w'.app.coap = w.app.coap ∧ w'.coap = w.coap) ∨
    (w.app.coap = .null ∧ (w'.app.coap = .client → w'.coap.client.IsNew p.token))

/-- One after the other. -/
theorem BringsUp.trans {w₁ w₂ w₃ : World} (h : BringsUp p w₁ w₂) (h' : BringsUp p w₂ w₃) :
    BringsUp p w₁ w₃ := by
  rcases h with ⟨hptr, hsvc⟩ | ⟨hnull, hnew⟩
  · rwa [BringsUp, hptr, hsvc] at h'
  · refine Or.inr ⟨hnull, ?_⟩
    rcases h' with ⟨hptr', hsvc'⟩ | ⟨-, hnew'⟩
    · rwa [hptr', hsvc']
    · exact hnew'

/-- A client that is there stays as it is. -/
theorem BringsUp.client (h : BringsUp p w w') (hclient : w.app.coap = .client) :
    w'.app.coap = .client ∧ w'.coap = w.coap := by
  rcases h with ⟨hptr, hsvc⟩ | ⟨hnull, -⟩
  · exact ⟨hptr.trans hclient, hsvc⟩
  · exact absurd (hnull.symm.trans hclient) (by simp)

/-- The connection test does not touch the client. -/
theorem nodeWaitConnected_bringsUp (p : Platform) (inp : PassInput) (w : World) :
    BringsUp p w (nodeWaitConnected p inp w).1 := by
  rw [nodeWaitConnected]
  split
  · rw [nodeInitMdns]
    split <;> exact Or.inl ⟨rfl, rfl⟩
  · exact Or.inl ⟨rfl, rfl⟩

/-- The blocks of the connection thread: step 5 brings the client up. -/
theorem nodeBody_bringsUp (p : Platform) (inp : PassInput) (l : NodeWait) (w : World) :
    BringsUp p w (nodeBody p inp l w).1 := by
  cases l with
  | connectSleep =>
      obtain ⟨clock, htick⟩ := w.tick_eq
      simp only [nodeBody, World.now, htick]
      exact nodeWaitConnected_bringsUp p inp { w with clock := clock, app.thenTime := _ }
  | searchSleep =>
      obtain ⟨clock, htick⟩ := World.tick_eq
        { w with mem := (w.mem.setBool .app false).setError .app .none }
      simp only [nodeBody, nodeSearch, World.now, htick]
      split
      · exact Or.inl ⟨rfl, rfl⟩
      · split
        · exact Or.inl ⟨rfl, rfl⟩
        · split <;> exact Or.inl ⟨rfl, rfl⟩
  | resultSleep =>
      simp only [nodeBody]
      split
      · exact Or.inl ⟨rfl, rfl⟩
      · rw [nodeInitCoap]
        split
        · exact Or.inl ⟨rfl, rfl⟩
        · next hnull =>
            have hnew := coapInit_isNew w.coap (w.mem.address .app) p.token inp.coapStart
            refine Or.inr ⟨hnull, fun _ => ?_⟩
            simp only
            split <;> exact hnew
  | _ => exact Or.inl ⟨rfl, rfl⟩

/-- A call of the connection thread. -/
theorem runNode_bringsUp (hrun : runNode p inp w = some w') : BringsUp p w w' := by
  rcases runNode_cases hrun with ⟨-, rfl⟩ | ⟨-, w₁, j, hresume, rfl⟩
  · exact Or.inl ⟨rfl, rfl⟩
  · have hkeeps : (nodeConnectThread p inp).Keeps fun _ s => BringsUp p w s := by
      refine Protothread.Keeps.of_tests ?_ ?_ (fun _ _ _ _ hs => hs)
      · intro l s hs
        obtain ⟨clock, notes, heq, -⟩ := nodeGuard_eq l s
        simp only [nodeConnectThread, heq]
        exact hs
      · exact fun l s hs => hs.trans (nodeBody_bringsUp p inp l s)
    have hresumed := hkeeps.resume (fun _ => nodeWaitConnected_bringsUp p inp w)
      (fun _ _ => Or.inl ⟨rfl, rfl⟩) hresume
    exact hresumed

/-- The sensor thread does not touch the client. -/
theorem runSensor_bringsUp (p : Platform) (hrun : runSensor inp w = some w') : BringsUp p w w' := by
  rcases runSensor_cases hrun with ⟨-, rfl⟩ | ⟨-, w₁, j, hresume, rfl⟩
  · exact Or.inl ⟨rfl, rfl⟩
  · obtain ⟨_, _, _, _, _, _, _, _, rfl, -⟩ := scd41UpdateValueThread_frame hresume
    exact Or.inl ⟨rfl, rfl⟩

/-- Nor does the callback of a role change. -/
theorem role_bringsUp (p : Platform) (changed : Bool) (role : DeviceRole) (w : World) :
    BringsUp p w (handleNetifStateChanged changed role w) := by
  rw [handleNetifStateChanged.eq_def]
  split
  · cases role <;> exact Or.inl ⟨rfl, rfl⟩
  · exact Or.inl ⟨rfl, rfl⟩

/-- Nor does that of a browse. -/
theorem browseCallback_bringsUp (p : Platform) (w : World) (i : ℕ) (error : OtError)
    (response : BrowseResponse) (stack : List UInt8) :
    BringsUp p w (browseCallback p w i error response stack) := by
  rw [browseCallback]
  split <;> exact Or.inl ⟨rfl, rfl⟩

/-! ### Silence -/

/-- What a silenced firmware keeps, `n` posts having been accepted. -/
structure Silence (n : ℕ) (w : World) : Prop where
  search : SearchInvariant w
  cause : searchOf w.log = .lost ∨ Wedged w
  accepted : accepted w.log = n

namespace Silence

variable {n : ℕ}

/-- There is no client that takes a post. -/
theorem refuses (h : Silence n w) : RefusesPosts w := by
  rcases h.cause with hlost | hwedged
  · refine Or.inl ?_
    cases hcoap : w.app.coap with
    | null => rfl
    | client =>
        have hfound := h.search.prospect.coap_eq_client_iff.mp hcoap
        exact absurd (hfound.symm.trans hlost) (by simp)
  · exact Or.inr hwedged.2.1

/-- What leaves the sending process and the client alone. -/
theorem leaves (h : Silence n w) (hsearch : SearchInvariant w') (hleaves : LeavesSender w w')
    (hup : BringsUp p w w') : Silence n w' := by
  refine ⟨hsearch, ?_, hleaves.accepted_eq.trans h.accepted⟩
  rcases h.cause with hlost | ⟨hptr, hbusy, hout⟩
  · obtain ⟨new, hlog, -⟩ := hleaves.log
    exact Or.inl (hlog ▸ searchOf_append_of_lost hlost new)
  · obtain ⟨hptr', hsvc⟩ := hup.client hptr
    refine Or.inr ⟨hptr', ?_, ?_⟩
    · rw [hsvc]
      exact hbusy
    · rw [hsvc]
      exact hout

end Silence

/-- **Silence in runs.** -/
theorem silence_runRule (p : Platform) (n : ℕ) : RunRule p (fun _ _ => True) (Silence n) where
  idle {w} clock run armed done2 done4 h :=
    h.leaves (p := p) ((searchInvariant_runRule p).idle clock run armed done2 done4 h.search)
      (.idle w clock run armed done2 done4) (Or.inl ⟨rfl, rfl⟩)
  node _ h hrun := h.leaves (h.search.runNode hrun) (.runNode hrun) (runNode_bringsUp hrun)
  sensor _ h hrun :=
    h.leaves (h.search.runSensor hrun) (.runSensor hrun) (runSensor_bringsUp p hrun)
  sender _ h hrun := by
    obtain ⟨⟨new, hlog, hnew⟩, hcoap, hclient⟩ := runSender_refused h.refuses hrun
    refine ⟨h.search.runSender hrun, ?_, ?_⟩
    · rcases h.cause with hlost | hwedged
      · exact Or.inl (hlog ▸ searchOf_append_of_lost hlost new)
      · rw [Wedged, hcoap, hclient]
        exact Or.inr hwedged
    · rw [hlog, accepted_append hnew]
      exact h.accepted
  role {w} changed role hfault h :=
    h.leaves ((searchInvariant_runRule p).role changed role hfault h.search)
      (.role changed role w) (role_bringsUp p changed role w)
  autostart {w} sock hfault h :=
    h.leaves (p := p) ((searchInvariant_runRule p).autostart sock hfault h.search)
      (.autostart sock w) (Or.inl ⟨rfl, rfl⟩)
  browse {w i} error response stack _ hi h :=
    h.leaves (h.search.browseCallback hi error response stack)
      (.browseCallback h.search.services error response stack)
      (browseCallback_bringsUp p w i error response stack)
  request {w i r} error response hfault _ hr h := by
    have hsearch := (searchInvariant_runRule p).request error response hfault trivial hr h.search
    obtain ⟨svc, hout, -, -, heq⟩ := h.search.services.requestCallback_eq hr error response
    have hlog : (requestCallback w i r error response).log =
        .callback r.message error :: w.log := by
      rw [heq]
      rfl
    refine ⟨hsearch, ?_, ?_⟩
    · rcases h.cause with hlost | ⟨-, -, hnone⟩
      · exact Or.inl (hlog ▸ searchOf_append_of_lost hlost [_])
      · exact absurd (hout.symm.trans hnone) (by simp)
    · have hother : ∀ o ∈ [Obs.callback r.message error], o.isAccepted = false := by
        simp [Obs.isAccepted]
      rw [hlog]
      exact (accepted_append hother w.log).trans h.accepted

/-- **A silenced node reports no more.** Whatever happens, the number of accepted posts stays the
same. -/
theorem Silenced.accepted_eq (hsearch : SearchInvariant w) (h : Silenced w) {es : List Event}
    (hrun : (firmware p).run w es = some w') : accepted w'.log = accepted w.log := by
  rcases h with hfault | hcause
  · cases es with
    | nil =>
        obtain rfl := Option.some.inj hrun
        rfl
    | cons e es =>
        obtain ⟨w₁, hstep, -⟩ := StepSystem.run_cons_eq_some.mp hrun
        have hnone : step p w e = none := by rw [step.eq_def, if_pos hfault]
        exact absurd (hnone.symm.trans hstep) (by simp)
  · have hsilence : Silence (accepted w.log) w :=
      ⟨hsearch, hcause.imp_left searchOf_eq_lost_iff.mpr, rfl⟩
    have hkeep : ∀ s e s', Silence (accepted w.log) s → (firmware p).step s e = some s' →
        Silence (accepted w.log) s' :=
      fun s e s' hs hstep => (silence_runRule p _).step hs trivial hstep
    exact (StepSystem.run_invariant hkeep hsilence hrun).accepted

end SmartCO2
