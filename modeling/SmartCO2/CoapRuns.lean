import SmartCO2.Library.StepSystem
import SmartCO2.Coap

/-!
# Runs of the CoAP Client

`coapSystem` lets posts and request callbacks follow each other in any order after
`coap_init`, with any outcomes of the OpenThread calls of a post. A callback needs an
accepted request without a callback, and takes it off the list, so each accepted request
gets at most one.

## Main results

* `AtMostOne.post`, `AtMostOne.callback`: whatever fails, a client with an outstanding
  request is busy, and there is never a second request.
* `busy_exact_iff`: the busy flag is exact after every step, and a failed post leaves the
  client idle, exactly when no post of an idle client fails in one of its five calls.
-/

namespace SmartCO2

variable {Loc : Type*}

/-! ### What holds whatever fails -/

/-- At most one request is outstanding; while one is, the client is busy and points at the
result variables of its post. -/
def AtMostOne (svc : CoapService Loc) : Prop :=
  svc.outstanding = [] ∨
    ∃ r done err, svc.outstanding = [r] ∧ svc.client.busy = true ∧
      svc.client.done = some done ∧ svc.client.error = some err

/-- An idle client has no outstanding request. -/
theorem AtMostOne.outstanding_eq_nil {svc : CoapService Loc} (h : AtMostOne svc)
    (hidle : svc.client.busy = false) : svc.outstanding = [] := by
  rcases h with hout | ⟨r, done, err, -, hbusy, -, -⟩
  · exact hout
  · rw [hidle] at hbusy
    exact absurd hbusy Bool.false_ne_true

/-- `coap_init` does not touch the requests. -/
theorem coapInit_outstanding (svc : CoapService Loc) (target : Ip6Address)
    (token : List UInt8) (start : OtError) :
    (coapInit svc target token start).2.outstanding = svc.outstanding := by
  rw [coapInit]
  simp only
  split
  · rfl
  · split <;> rfl

/-- `coap_init` leaves the client idle. -/
theorem coapInit_busy (svc : CoapService Loc) (target : Ip6Address)
    (token : List UInt8) (start : OtError) :
    (coapInit svc target token start).2.client.busy = false := by
  rw [coapInit]
  simp only
  split
  · rfl
  · split <;> rfl

variable [DecidableEq Loc]

/-- **A post keeps at most one request outstanding**, whatever its calls return. -/
theorem AtMostOne.post {svc : CoapService Loc} (h : AtMostOne svc) (mem : Memory Loc)
    (message : List UInt8) (size : UInt16) (done errorOut : Loc) (out : PostOutcome) :
    AtMostOne (coapSchedulePost svc mem message size done errorOut out).2.1 := by
  cases hbusy : svc.client.busy with
  | true =>
      rw [coapSchedulePost_of_busy hbusy]
      exact h
  | false =>
      have hout := h.outstanding_eq_nil hbusy
      rcases le_or_gt msgMaxLen size.toNat with hsize | hsize
      · rw [coapSchedulePost_of_long hbusy hsize]
        exact h
      · by_cases hok : out = .success
        · rw [hok, coapSchedulePost_of_success hbusy hsize]
          exact Or.inr ⟨_, done, errorOut, by rw [hout]; rfl, rfl, rfl, rfl⟩
        · obtain ⟨error, svc', heq, -, -, hout', -, -⟩ :=
            coapSchedulePost_of_failure hbusy hsize hok mem message done errorOut
          rw [heq]
          exact Or.inl (hout'.trans hout)

/-- **A callback ends the outstanding request** and leaves the client idle. -/
theorem AtMostOne.callback {svc : CoapService Loc} (h : AtMostOne svc) (mem : Memory Loc)
    {i : ℕ} (hi : i < svc.outstanding.length) (error : OtError) (response : Bool) :
    ∃ r svc' done err, svc.outstanding = [r] ∧ svc.client.done = some done ∧
      svc.client.error = some err ∧
      svc.callback mem i error response =
        some (svc', (mem.setBool done true).setError err error) ∧
      svc'.outstanding = [] ∧ svc'.client = { svc.client with busy := false } := by
  rcases h with hout | ⟨r, done, err, hout, -, hdone, herr⟩
  · rw [hout] at hi
    exact absurd hi (Nat.not_lt_zero i)
  · obtain rfl : i = 0 := by
      rw [hout, List.length_singleton] at hi
      omega
    obtain ⟨svc', hcb, hclient, hout'⟩ := callback_eq_some hdone herr mem 0 error response
    refine ⟨r, svc', done, err, hout, hdone, herr, hcb, ?_, hclient⟩
    rw [hout', hout]
    rfl

/-! ### The system -/

/-- What can happen to the client after `coap_init`: a post with its result variables and the
outcomes of its calls, or the callback of an accepted request. -/
inductive CoapEvent (Loc : Type*)
  | post (message : List UInt8) (size : UInt16) (done errorOut : Loc) (out : PostOutcome)
  | callback (i : ℕ) (error : OtError) (response : Bool)

/-- The client with the result variables of its callers. -/
structure CoapState (Loc : Type*) where
  service : CoapService Loc
  memory : Memory Loc

/-- One event. -/
def coapStep (s : CoapState Loc) : CoapEvent Loc → Option (CoapState Loc)
  | .post message size done errorOut out =>
      let r := coapSchedulePost s.service s.memory message size done errorOut out
      some ⟨r.2.1, r.2.2⟩
  | .callback i error response =>
      if i < s.service.outstanding.length then
        (s.service.callback s.memory i error response).map fun r => ⟨r.1, r.2⟩
      else none

/-- The client with posts and callbacks in any order. -/
def coapSystem (Loc : Type*) [DecidableEq Loc] : StepSystem (CoapState Loc) (CoapEvent Loc) :=
  ⟨coapStep⟩

/-- The state in which a first `coap_init` returns. -/
def coapStart (memory : Memory Loc) (target : Ip6Address) (token : List UInt8)
    (start : OtError) : CoapState Loc :=
  ⟨(coapInit .zero target token start).2, memory⟩

/-! ### The busy flag -/

/-- The client is busy exactly when a request is outstanding, and at most one is. -/
def BusyExact (svc : CoapService Loc) : Prop :=
  (svc.client.busy = true ↔ svc.outstanding.length = 1) ∧ svc.outstanding.length ≤ 1

/-- What one step has to do about the busy flag: it is exact afterwards, and a post that
fails on an idle client leaves it able to accept the next one. -/
def KeepsBusy (s : CoapState Loc) (e : CoapEvent Loc) (s' : CoapState Loc) : Prop :=
  BusyExact s'.service ∧
  match e with
  | .post message size done errorOut out =>
      s.service.client.busy = false →
        (coapSchedulePost s.service s.memory message size done errorOut out).1 ≠ .none →
          s'.service.client.busy = false
  | .callback .. => True

/-- A post that reaches its calls, because the client is idle and the message not too long,
succeeds in all five of them. -/
def PostSucceeds (s : CoapState Loc) : CoapEvent Loc → Prop
  | .post _ size _ _ out =>
      s.service.client.busy = false → size.toNat < msgMaxLen → out = .success
  | .callback .. => True

/-- A post keeps the busy flag exact exactly when it does not fail in one of its calls. -/
theorem keepsBusy_post_iff {s s' : CoapState Loc} {message : List UInt8} {size : UInt16}
    {done errorOut : Loc} {out : PostOutcome} (hone : AtMostOne s.service)
    (hexact : BusyExact s.service)
    (hstep : coapStep s (.post message size done errorOut out) = some s') :
    KeepsBusy s (.post message size done errorOut out) s' ↔
      PostSucceeds s (.post message size done errorOut out) := by
  obtain rfl := Option.some.inj hstep
  cases hbusy : s.service.client.busy with
  | true =>
      have hsame := coapSchedulePost_of_busy hbusy s.memory message size done errorOut out
      simp [KeepsBusy, PostSucceeds, hsame, hbusy, hexact]
  | false =>
      have hout := hone.outstanding_eq_nil hbusy
      rcases le_or_gt msgMaxLen size.toNat with hsize | hsize
      · have hsame := coapSchedulePost_of_long hbusy hsize s.memory message done errorOut out
        simp [KeepsBusy, PostSucceeds, hsame, hbusy, hexact, not_lt.mpr hsize]
      · by_cases hok : out = .success
        · subst hok
          have hpost := coapSchedulePost_of_success hbusy hsize s.memory message done errorOut
          simp [KeepsBusy, PostSucceeds, BusyExact, hpost, hout]
        · obtain ⟨error, svc', heq, -, hstuck, hout', -, -⟩ :=
            coapSchedulePost_of_failure hbusy hsize hok s.memory message done errorOut
          constructor
          · rintro ⟨⟨hiff, -⟩, -⟩
            simp only [heq] at hiff
            have hlen := hiff.mp hstuck
            rw [hout', hout] at hlen
            exact absurd hlen (by simp)
          · exact fun h => absurd (h hbusy hsize) hok

/-- A callback keeps the busy flag exact. -/
theorem keepsBusy_callback {s s' : CoapState Loc} {i : ℕ} {error : OtError} {response : Bool}
    (hone : AtMostOne s.service)
    (hstep : coapStep s (.callback i error response) = some s') :
    KeepsBusy s (.callback i error response) s' := by
  rw [coapStep] at hstep
  split at hstep
  · next hi =>
      obtain ⟨-, svc', done, err, -, -, -, hcb, hout, hclient⟩ :=
        hone.callback s.memory hi error response
      rw [hcb, Option.map_some] at hstep
      obtain rfl := Option.some.inj hstep
      refine ⟨⟨?_, ?_⟩, trivial⟩ <;> simp [hclient, hout]
  · exact absurd hstep (by simp)

/-- Every step keeps at most one request outstanding. -/
theorem atMostOne_step {s s' : CoapState Loc} {e : CoapEvent Loc} (hone : AtMostOne s.service)
    (hstep : coapStep s e = some s') : AtMostOne s'.service := by
  cases e with
  | post message size done errorOut out =>
      obtain rfl := Option.some.inj hstep
      exact hone.post s.memory message size done errorOut out
  | callback i error response =>
      rw [coapStep] at hstep
      split at hstep
      · next hi =>
          obtain ⟨-, svc', done, err, -, -, -, hcb, hout, -⟩ :=
            hone.callback s.memory hi error response
          rw [hcb, Option.map_some] at hstep
          obtain rfl := Option.some.inj hstep
          exact Or.inl hout
      · exact absurd hstep (by simp)

/-- **The busy flag.** After `coap_init`, every step of a run of posts and callbacks leaves
the busy flag exact and a failed post leaves the client idle, exactly when every post that
reaches its five OpenThread calls succeeds in all of them. -/
theorem busy_exact_iff (memory : Memory Loc) (target : Ip6Address) (token : List UInt8)
    (start : OtError) (es : List (CoapEvent Loc)) :
    (coapSystem Loc).EachStep KeepsBusy (coapStart memory target token start) es ↔
      (coapSystem Loc).EachStep (fun s e _ => PostSucceeds s e)
        (coapStart memory target token start) es := by
  refine StepSystem.eachStep_iff
    (I := fun s => AtMostOne s.service ∧ BusyExact s.service) ?_ ?_ ?_
  · rintro s e s' ⟨hone, hexact⟩ hstep
    cases e with
    | post => exact keepsBusy_post_iff hone hexact hstep
    | callback =>
        have hkeeps := keepsBusy_callback hone hstep
        exact ⟨fun _ => trivial, fun _ => hkeeps⟩
  · exact fun s e s' hI hstep hkeep => ⟨atMostOne_step hI.1 hstep, hkeep.1⟩
  · have hout : (coapStart memory target token start).service.outstanding = [] :=
      coapInit_outstanding .zero target token start
    have hidle : (coapStart memory target token start).service.client.busy = false :=
      coapInit_busy .zero target token start
    refine ⟨Or.inl hout, ?_, ?_⟩ <;> simp [hidle, hout]

/-- `otCoapNewMessage` has no buffer left: the client is busy with nothing outstanding. -/
theorem busy_after_noBufs :
    ¬ (coapSystem ℕ).EachStep KeepsBusy (coapStart .zero 1 appToken .none)
        [.post (ascii "x") 1 0 0 ⟨false, .none, .none, .none, .none⟩] := by
  intro h
  obtain ⟨⟨⟨hiff, -⟩, -⟩, -⟩ := (StepSystem.eachStep_cons rfl).mp h
  exact absurd hiff (by decide)

end SmartCO2
