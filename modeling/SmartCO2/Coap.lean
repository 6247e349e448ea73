import SmartCO2.Config
import SmartCO2.OpenThread

/-!
# The CoAP Client

The model of `coap_.c`. The module owns one static `CoapClient`: `coap_init` sets it up,
`coap_schedule_post` builds a message and hands it to OpenThread, and
`coap_request_callback` reports the end of the request to the caller of the post.

`CoapService` puts beside the static client what OpenThread knows of it: how many messages it
has allocated, the requests it has accepted and not yet called back, and the ledger of what
happened to each message. Messages are named by the order of their allocation.

Every message is a confirmable `POST` with a token of the default length; only the parts that
the code chooses itself, the URI path and the payload, are kept.
-/

namespace SmartCO2

/-- `URI_MAX_LEN` -/
def uriMaxLen : ℕ := 128

/-- `MSG_MAX_LEN` -/
def msgMaxLen : ℕ := 1024

/-- `struct CoapClient`: the address and port of the target, the message being built, the
URI, whether the client is busy, and where the result of the current request goes. -/
structure CoapClient (Loc : Type*) where
  target : Ip6Address × UInt16
  message : Option ℕ
  uri : List UInt8
  busy : Bool
  done : Option Loc
  error : Option Loc

/-- A request that `otCoapSendRequest` has accepted: its message and its target. -/
structure Request where
  message : ℕ
  uriPath : List UInt8
  payload : List UInt8
  target : Ip6Address × UInt16
  deriving DecidableEq, Repr

/-- What happened to messages: `otCoapNewMessage` gave one, `otCoapSendRequest` took one,
`otMessageFree` was called on a pointer, and it was called on the response of a request. -/
inductive LedgerEntry
  | alloc (message : ℕ)
  | sent (message : ℕ)
  | free (message : Option ℕ)
  | freeResponse
  deriving DecidableEq, Repr

/-- The static client of `coap_.c` and OpenThread's side of it. -/
structure CoapService (Loc : Type*) where
  client : CoapClient Loc
  allocated : ℕ
  outstanding : List Request
  ledger : List LedgerEntry

variable {Loc : Type*}

/-- The static client before `coap_init`, with nothing allocated. -/
def CoapService.zero : CoapService Loc where
  client := ⟨(0, 0), none, [], false, none, none⟩
  allocated := 0
  outstanding := []
  ledger := []

/-- `coap_init`, where `otCoapStart` returns `start`. -/
def coapInit (svc : CoapService Loc) (target : Ip6Address) (token : List UInt8)
    (start : OtError) : ClientPtr × CoapService Loc :=
  let client :=
    { svc.client with target := (target, appServicePort), busy := false, message := none }
  let (wr, uri) := snprintf uriMaxLen (some (appUriTemplate token)) client.uri
  let svc := { svc with client := { client with uri := uri } }
  if wr < 0 ∨ wr = uriMaxLen then
    (.null, svc)
  else if start ≠ .none then
    (.null, svc)
  else (.client, svc)

/-! ### Posting -/

/-- What the five OpenThread calls of a post return, in their order: whether
`otCoapNewMessage` gives a message, and the errors of `otCoapMessageAppendUriPathOptions`,
`otCoapMessageSetPayloadMarker`, `otMessageAppend` and `otCoapSendRequest`. -/
structure PostOutcome where
  newMessage : Bool
  uriPath : OtError
  payloadMarker : OtError
  append : OtError
  send : OtError
  deriving DecidableEq

/-- All five calls succeed. -/
def PostOutcome.success : PostOutcome := ⟨true, .none, .none, .none, .none⟩

variable [DecidableEq Loc]

/-- The label `cleanup` of `coap_schedule_post`: `busy` is not reset there. -/
def postCleanup (svc : CoapService Loc) (mem : Memory Loc) (done errorOut : Loc)
    (error : OtError) : OtError × CoapService Loc × Memory Loc :=
  (error, { svc with ledger := .free svc.client.message :: svc.ledger },
    (mem.setBool done true).setError errorOut .abort)

/-- `coap_schedule_post` of the first `size` bytes of `message`. -/
def coapSchedulePost (svc : CoapService Loc) (mem : Memory Loc) (message : List UInt8)
    (size : UInt16) (done errorOut : Loc) (out : PostOutcome) :
    OtError × CoapService Loc × Memory Loc :=
  if svc.client.busy then
    (.busy, svc, mem)
  else if msgMaxLen ≤ size.toNat then
    (.failed, svc, mem)
  else
    let mem := mem.setBool done false
    let client := { svc.client with busy := true, done := some done, error := some errorOut }
    if !out.newMessage then
      postCleanup { svc with client := { client with message := none } } mem done errorOut .noBufs
    else
      let id := svc.allocated
      let svc :=
        { svc with
          client := { client with message := some id }
          allocated := id + 1
          ledger := .alloc id :: svc.ledger }
      if out.uriPath ≠ .none then
        postCleanup svc mem done errorOut out.uriPath
      else if out.payloadMarker ≠ .none then
        postCleanup svc mem done errorOut out.payloadMarker
      else if out.append ≠ .none then
        postCleanup svc mem done errorOut out.append
      else if out.send ≠ .none then
        postCleanup svc mem done errorOut out.send
      else
        let request := ⟨id, svc.client.uri, message.take size.toNat, svc.client.target⟩
        (.none,
          { svc with
            outstanding := svc.outstanding ++ [request]
            ledger := .sent id :: svc.ledger },
          mem)

/-- `coap_request_callback` with the result `error` and a response message or `NULL`. -/
def coapRequestCallback (svc : CoapService Loc) (mem : Memory Loc) (error : OtError)
    (response : Bool) : Option (CoapService Loc × Memory Loc) :=
  match svc.client.done, svc.client.error with
  | some done, some err =>
      let svc := { svc with client := { svc.client with busy := false } }
      let svc :=
        if error ≠ .none ∧ response then
          { svc with ledger := .freeResponse :: svc.ledger }
        else svc
      some (svc, (mem.setBool done true).setError err error)
  | _, _ => none

/-- OpenThread makes the callback of the `i`-th outstanding request. -/
def CoapService.callback (svc : CoapService Loc) (mem : Memory Loc) (i : ℕ) (error : OtError)
    (response : Bool) : Option (CoapService Loc × Memory Loc) :=
  coapRequestCallback { svc with outstanding := svc.outstanding.eraseIdx i } mem error response

/-! ### What a post can do -/

/-- A busy client refuses the post and changes nothing. -/
theorem coapSchedulePost_of_busy {svc : CoapService Loc} (h : svc.client.busy = true)
    (mem : Memory Loc) (message : List UInt8) (size : UInt16) (done errorOut : Loc)
    (out : PostOutcome) :
    coapSchedulePost svc mem message size done errorOut out = (.busy, svc, mem) := by
  rw [coapSchedulePost, if_pos h]

/-- An idle client refuses a message that is too long and changes nothing. -/
theorem coapSchedulePost_of_long {svc : CoapService Loc} (h : svc.client.busy = false)
    {size : UInt16} (hsize : msgMaxLen ≤ size.toNat) (mem : Memory Loc) (message : List UInt8)
    (done errorOut : Loc) (out : PostOutcome) :
    coapSchedulePost svc mem message size done errorOut out = (.failed, svc, mem) := by
  rw [coapSchedulePost, h, if_neg Bool.false_ne_true, if_pos hsize]

/-- What a post of an idle client does when all five calls succeed: the request is
outstanding, the client is busy with it and points at the caller's result variables. -/
theorem coapSchedulePost_of_success {svc : CoapService Loc} (h : svc.client.busy = false)
    {size : UInt16} (hsize : size.toNat < msgMaxLen) (mem : Memory Loc) (message : List UInt8)
    (done errorOut : Loc) :
    coapSchedulePost svc mem message size done errorOut .success =
      (.none,
        { client := { svc.client with busy := true, done := some done, error := some errorOut,
                                      message := some svc.allocated }
          allocated := svc.allocated + 1
          outstanding := svc.outstanding ++ [⟨svc.allocated, svc.client.uri,
            message.take size.toNat, svc.client.target⟩]
          ledger := .sent svc.allocated :: .alloc svc.allocated :: svc.ledger },
        mem.setBool done false) := by
  rw [coapSchedulePost, h, if_neg Bool.false_ne_true, if_neg (not_le.mpr hsize)]
  rfl

/-- A post of an idle client for which `otCoapNewMessage` gives no message. -/
theorem coapSchedulePost_of_noMessage {svc : CoapService Loc} (h : svc.client.busy = false)
    {size : UInt16} (hsize : size.toNat < msgMaxLen) {out : PostOutcome}
    (hout : out.newMessage = false) (mem : Memory Loc) (message : List UInt8)
    (done errorOut : Loc) :
    coapSchedulePost svc mem message size done errorOut out =
      postCleanup
        { svc with client := { svc.client with busy := true, done := some done,
                                               error := some errorOut, message := none } }
        (mem.setBool done false) done errorOut .noBufs := by
  rw [coapSchedulePost, h, if_neg Bool.false_ne_true, if_neg (not_le.mpr hsize)]
  simp only [hout, Bool.not_false, if_true]

/-- A post of an idle client in which a later call fails. -/
theorem coapSchedulePost_of_failedCall {svc : CoapService Loc} (h : svc.client.busy = false)
    {size : UInt16} (hsize : size.toNat < msgMaxLen) {out : PostOutcome}
    (hnew : out.newMessage = true) (hout : out ≠ .success) (mem : Memory Loc)
    (message : List UInt8) (done errorOut : Loc) :
    ∃ error, error ≠ .none ∧ coapSchedulePost svc mem message size done errorOut out =
      postCleanup
        { svc with
          client := { svc.client with busy := true, done := some done, error := some errorOut,
                                      message := some svc.allocated }
          allocated := svc.allocated + 1
          ledger := .alloc svc.allocated :: svc.ledger }
        (mem.setBool done false) done errorOut error := by
  rw [coapSchedulePost, h, if_neg Bool.false_ne_true, if_neg (not_le.mpr hsize)]
  obtain ⟨newMessage, uriPath, payloadMarker, append, send⟩ := out
  obtain rfl : newMessage = true := hnew
  simp only [Bool.not_true, Bool.false_eq_true, if_false]
  by_cases h₁ : uriPath = .none
  · rw [if_neg (not_not.mpr h₁)]
    by_cases h₂ : payloadMarker = .none
    · rw [if_neg (not_not.mpr h₂)]
      by_cases h₃ : append = .none
      · rw [if_neg (not_not.mpr h₃)]
        by_cases h₄ : send = .none
        · subst h₁ h₂ h₃ h₄
          exact absurd rfl hout
        · rw [if_pos h₄]
          exact ⟨send, h₄, rfl⟩
      · rw [if_pos h₃]
        exact ⟨append, h₃, rfl⟩
    · rw [if_pos h₂]
      exact ⟨payloadMarker, h₂, rfl⟩
  · rw [if_pos h₁]
    exact ⟨uriPath, h₁, rfl⟩

/-- **What a post of an idle client does when a call fails**: the post returns an error, the
client stays busy with nothing outstanding, and the result variables report the abort. -/
theorem coapSchedulePost_of_failure {svc : CoapService Loc} (h : svc.client.busy = false)
    {size : UInt16} (hsize : size.toNat < msgMaxLen) {out : PostOutcome}
    (hout : out ≠ .success) (mem : Memory Loc) (message : List UInt8) (done errorOut : Loc) :
    ∃ error svc', coapSchedulePost svc mem message size done errorOut out =
        (error, svc', ((mem.setBool done false).setBool done true).setError errorOut .abort) ∧
      error ≠ .none ∧ svc'.client.busy = true ∧ svc'.outstanding = svc.outstanding ∧
      svc'.client.done = some done ∧ svc'.client.error = some errorOut := by
  cases hnew : out.newMessage with
  | false =>
      have hpost := coapSchedulePost_of_noMessage h hsize hnew mem message done errorOut
      exact ⟨_, _, hpost, by simp, rfl, rfl, rfl, rfl⟩
  | true =>
      obtain ⟨error, herror, hpost⟩ :=
        coapSchedulePost_of_failedCall h hsize hnew hout mem message done errorOut
      exact ⟨_, _, hpost, herror, rfl, rfl, rfl, rfl⟩

/-- **What a post can do**: it is refused and changes nothing, it is accepted, or it fails on
the way and leaves the client busy. -/
theorem coapSchedulePost_cases (svc : CoapService Loc) (mem : Memory Loc)
    (message : List UInt8) (size : UInt16) (done errorOut : Loc) (out : PostOutcome) :
    ∃ error svc' mem',
      coapSchedulePost svc mem message size done errorOut out = (error, svc', mem') ∧
      ((svc.client.busy = true ∧ error = .busy ∧ svc' = svc ∧ mem' = mem) ∨
        (svc.client.busy = false ∧ error ≠ .none ∧ svc' = svc ∧ mem' = mem) ∨
        (svc.client.busy = false ∧ svc'.client.done = some done ∧
          svc'.client.error = some errorOut ∧
          ((error = .none ∧ mem' = mem.setBool done false ∧ ∃ request : Request,
              request.message = svc.allocated ∧
                svc'.outstanding = svc.outstanding ++ [request]) ∨
            (error ≠ .none ∧ svc'.outstanding = svc.outstanding ∧
              mem' = ((mem.setBool done false).setBool done true).setError errorOut .abort)))) := by
  cases hbusy : svc.client.busy with
  | true =>
      exact ⟨_, _, _, coapSchedulePost_of_busy hbusy mem message size done errorOut out,
        Or.inl ⟨rfl, rfl, rfl, rfl⟩⟩
  | false =>
      rcases le_or_gt msgMaxLen size.toNat with hsize | hsize
      · exact ⟨_, _, _, coapSchedulePost_of_long hbusy hsize mem message done errorOut out,
          Or.inr (Or.inl ⟨rfl, by simp, rfl, rfl⟩)⟩
      · by_cases hok : out = .success
        · subst hok
          exact ⟨_, _, _, coapSchedulePost_of_success hbusy hsize mem message done errorOut,
            Or.inr (Or.inr ⟨rfl, rfl, rfl, Or.inl ⟨rfl, rfl, _, rfl, rfl⟩⟩)⟩
        · obtain ⟨error, svc', heq, herror, -, hout, hdone, herr⟩ :=
            coapSchedulePost_of_failure hbusy hsize hok mem message done errorOut
          exact ⟨_, _, _, heq,
            Or.inr (Or.inr ⟨rfl, hdone, herr, Or.inr ⟨herror, hout, rfl⟩⟩)⟩

/-! ### What a callback does -/

/-- The callback of a client with result variables ends the request and stores its result. -/
theorem callback_eq_some {svc : CoapService Loc} {done err : Loc}
    (hdone : svc.client.done = some done) (herr : svc.client.error = some err)
    (mem : Memory Loc) (i : ℕ) (error : OtError) (response : Bool) :
    ∃ svc', svc.callback mem i error response =
        some (svc', (mem.setBool done true).setError err error) ∧
      svc'.client = { svc.client with busy := false } ∧
      svc'.outstanding = svc.outstanding.eraseIdx i := by
  rw [CoapService.callback, coapRequestCallback, hdone, herr]
  refine ⟨_, rfl, ?_, ?_⟩ <;> split <;> simp [hdone, herr]

end SmartCO2
