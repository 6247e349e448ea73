import SmartCO2.CoapRuns

/-!
# The URI of a Request

`coap_init` formats the URI once, into a buffer of `URI_MAX_LEN` bytes, and every post takes it
from there. `snprintf` returns the length of the whole text, so a text that was cut is one whose
length is at least the size of the buffer; `coap_init` rejects only the length that is equal.

## Main results

* `eachStep_buildsWith`: every request is built with the URI that `coap_init` has stored.
* `uri_whole_iff`: that is the whole URI, and a text that does not fit is rejected, exactly for
  the tokens of at most 111 bytes, or if the CoAP service does not start.
-/

namespace SmartCO2

variable {Loc : Type*}

/-! ### The stored URI -/

/-- The URI is as long as the token and 17 bytes more. -/
theorem appUriTemplate_length (token : List UInt8) :
    (appUriTemplate token).length = token.length + 17 := by
  have hhead : (ascii "api/v1/").length = 7 := by decide
  have htail : (ascii "/telemetry").length = 10 := by decide
  rw [appUriTemplate, List.length_append, List.length_append, hhead, htail]
  omega

/-- `coap_init` stores what fits of the URI. -/
theorem coapInit_uri (svc : CoapService Loc) (target : Ip6Address) (token : List UInt8)
    (start : OtError) :
    (coapInit svc target token start).2.client.uri =
      (appUriTemplate token).take (uriMaxLen - 1) := by
  rw [coapInit, snprintf_some]
  simp only
  split
  · rfl
  · split <;> rfl

/-- `coap_init` returns a client exactly if the length of the URI is not that of the buffer, and
the CoAP service starts. -/
theorem coapInit_eq_client_iff (svc : CoapService Loc) (target : Ip6Address)
    (token : List UInt8) (start : OtError) :
    (coapInit svc target token start).1 = .client ↔
      (appUriTemplate token).length ≠ uriMaxLen ∧ start = .none := by
  rw [coapInit, snprintf_some]
  simp only
  split
  · next hlen =>
      have heq : (appUriTemplate token).length = uriMaxLen := by omega
      simp [heq]
  · next hlen =>
      have hne : (appUriTemplate token).length ≠ uriMaxLen := by omega
      split
      · next hstart => simp [hstart]
      · next hstart => simpa [hne] using hstart

/-! ### Posts -/

section

variable [DecidableEq Loc]

/-- A post builds its request with the stored URI, and keeps it. -/
theorem coapSchedulePost_uri (svc : CoapService Loc) (mem : Memory Loc) (message : List UInt8)
    (size : UInt16) (done errorOut : Loc) (out : PostOutcome) :
    (coapSchedulePost svc mem message size done errorOut out).2.1.client.uri = svc.client.uri ∧
      ∀ r ∈ (coapSchedulePost svc mem message size done errorOut out).2.1.outstanding,
        r ∈ svc.outstanding ∨ r.uriPath = svc.client.uri := by
  have hkept : ∀ r ∈ svc.outstanding, r ∈ svc.outstanding ∨ r.uriPath = svc.client.uri :=
    fun _ hr => Or.inl hr
  cases hbusy : svc.client.busy with
  | true =>
      rw [coapSchedulePost_of_busy hbusy]
      exact ⟨rfl, hkept⟩
  | false =>
      rcases le_or_gt msgMaxLen size.toNat with hsize | hsize
      · rw [coapSchedulePost_of_long hbusy hsize]
        exact ⟨rfl, hkept⟩
      · by_cases hok : out = .success
        · rw [hok, coapSchedulePost_of_success hbusy hsize]
          refine ⟨rfl, fun r hr => ?_⟩
          rcases List.mem_append.mp hr with hr | hr
          · exact hkept r hr
          · obtain rfl := List.mem_singleton.mp hr
            exact Or.inr rfl
        · cases hnew : out.newMessage with
          | false =>
              rw [coapSchedulePost_of_noMessage hbusy hsize hnew]
              exact ⟨rfl, hkept⟩
          | true =>
              obtain ⟨error, -, hpost⟩ :=
                coapSchedulePost_of_failedCall hbusy hsize hnew hok mem message done errorOut
              rw [hpost]
              exact ⟨rfl, hkept⟩

/-- A callback keeps the URI and builds no request. -/
theorem callback_uri {svc svc' : CoapService Loc} {mem mem' : Memory Loc} {i : ℕ}
    {error : OtError} {response : Bool}
    (h : svc.callback mem i error response = some (svc', mem')) :
    svc'.client.uri = svc.client.uri ∧ ∀ r ∈ svc'.outstanding, r ∈ svc.outstanding := by
  rw [CoapService.callback, coapRequestCallback] at h
  split at h
  · obtain ⟨rfl, -⟩ := Prod.mk.inj (Option.some.inj h)
    split <;> exact ⟨rfl, fun r hr => List.mem_of_mem_eraseIdx hr⟩
  · exact absurd h (by simp)

/-- The step builds requests with the given URI only. -/
def BuildsWith (uri : List UInt8) (s : CoapState Loc) (_ : CoapEvent Loc) (s' : CoapState Loc) :
    Prop :=
  ∀ r ∈ s'.service.outstanding, r ∈ s.service.outstanding ∨ r.uriPath = uri

/-- **Every request is built with the stored URI**, in every run of posts and callbacks. -/
theorem eachStep_buildsWith (s : CoapState Loc) (es : List (CoapEvent Loc)) :
    (coapSystem Loc).EachStep (BuildsWith s.service.client.uri) s es := by
  refine StepSystem.eachStep_of_invariant
    (I := fun s' => s'.service.client.uri = s.service.client.uri) ?_ rfl
  intro s₁ e s₂ huri hstep
  cases e with
  | post message size done errorOut out =>
      obtain rfl := Option.some.inj hstep
      obtain ⟨hkept, hbuilt⟩ :=
        coapSchedulePost_uri s₁.service s₁.memory message size done errorOut out
      exact ⟨fun r hr => huri ▸ hbuilt r hr, hkept.trans huri⟩
  | callback i error response =>
      simp only [coapSystem, coapStep] at hstep
      split at hstep
      · obtain ⟨⟨svc', mem'⟩, hcallback, rfl⟩ := Option.map_eq_some_iff.mp hstep
        obtain ⟨hkept, hout⟩ := callback_uri hcallback
        exact ⟨fun r hr => Or.inl (hout r hr), hkept.trans huri⟩
      · exact absurd hstep (by simp)

/-- **The whole URI.** If `coap_init` returns a client, every request of a later post has the
whole URI of the token as its path, and if that URI does not fit, `coap_init` returns `NULL`: so
it is if and only if the token has at most 111 bytes or the CoAP service does not start. -/
theorem uri_whole_iff (svc : CoapService Loc) (target : Ip6Address) (token : List UInt8)
    (start : OtError) :
    (((coapInit svc target token start).1 = .client → ∀ (memory : Memory Loc) es,
        (coapSystem Loc).EachStep (BuildsWith (appUriTemplate token))
          ⟨(coapInit svc target token start).2, memory⟩ es) ∧
      (uriMaxLen < (appUriTemplate token).length + 1 →
        (coapInit svc target token start).1 = .null)) ↔
    token.length ≤ 111 ∨ start ≠ .none := by
  have hlen := appUriTemplate_length token
  have hclient := coapInit_eq_client_iff svc target token start
  have hmax : uriMaxLen = 128 := rfl
  constructor
  · rintro ⟨-, hlong⟩
    by_contra hnot
    obtain ⟨hlt, hstart⟩ := not_or.mp hnot
    have hnull := hlong (by omega)
    have hsome := hclient.mpr ⟨by omega, not_not.mp hstart⟩
    exact absurd (hnull.symm.trans hsome) (by simp)
  · intro h
    constructor
    · intro hsome memory es
      obtain ⟨hne, hstart⟩ := hclient.mp hsome
      have hfits : (appUriTemplate token).length ≤ uriMaxLen - 1 := by
        rcases h with h | h
        · omega
        · exact absurd hstart h
      have huri := coapInit_uri svc target token start
      rw [List.take_of_length_le hfits] at huri
      have hbuilds := eachStep_buildsWith ⟨(coapInit svc target token start).2, memory⟩ es
      rw [← huri]
      exact hbuilds
    · intro hlong
      cases hinit : (coapInit svc target token start).1 with
      | null => rfl
      | client =>
          obtain ⟨hne, hstart⟩ := hclient.mp hinit
          rcases h with h | h
          · omega
          · exact absurd hstart h

end

/-- A token of 112 bytes: its URI has 129 bytes, is cut to 127, and is not rejected. -/
theorem long_token_not_rejected :
    ¬ (((coapInit (.zero : CoapService ℕ) 1 (List.replicate 112 97) .none).1 = .client →
        ∀ (memory : Memory ℕ) es,
          (coapSystem ℕ).EachStep (BuildsWith (appUriTemplate (List.replicate 112 97)))
            ⟨(coapInit .zero 1 (List.replicate 112 97) .none).2, memory⟩ es) ∧
      (uriMaxLen < (appUriTemplate (List.replicate 112 97)).length + 1 →
        (coapInit (.zero : CoapService ℕ) 1 (List.replicate 112 97) .none).1 = .null)) := by
  rintro ⟨-, hlong⟩
  have hlen : (appUriTemplate (List.replicate 112 97)).length = 129 := by
    rw [appUriTemplate_length, List.length_replicate]
  rw [hlen] at hlong
  have hclient := (coapInit_eq_client_iff (.zero : CoapService ℕ) 1 (List.replicate 112 97)
    .none).mpr ⟨by rw [hlen]; decide, rfl⟩
  exact absurd ((hlong (by decide)).symm.trans hclient) (by simp)

end SmartCO2
