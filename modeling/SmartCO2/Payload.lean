import SmartCO2.Library.Decimal
import SmartCO2.Library.MachineInt
import SmartCO2.Sender

/-!
# What Is Sent

The text of a measurement on its way from `build_message` through `coap_sending_process` into
the payload of the request: the size `-1` of a text that was cut or could not be formatted
becomes `0xFFFF` in the parameter of `coap_schedule_post`, which refuses it as too long.

## Main results

* `appMessageTemplate_injective`: the texts of different measurements differ.
* `payload_whole`: a post that is accepted sends the whole text, a text that does not fit is
  not sent at all, and all measurements fit.
-/

namespace SmartCO2

/-! ### Texts of measurements -/

/-- A whole number with two decimal places. -/
theorem fixed2_natCast (n : ℕ) : fixed2 n = digits n ++ 46 :: [48, 48] := by
  have hpoint : ascii ".00" = [46, 48, 48] := by decide
  rw [fixed2, ascii_append, hpoint, digits]
  rfl

/-- The text of a measurement, field by field, each ended by the point of its number. -/
theorem appMessageTemplate_eq (co2 rh temp : ℕ) :
    appMessageTemplate co2 rh temp =
      ascii "\x7b\"co2\": " ++ (digits co2 ++ 46 :: ([48, 48] ++ ascii ", \"rh\": " ++
        (digits rh ++ 46 :: ([48, 48] ++ ascii ", \"temp\": " ++
          (digits temp ++ 46 :: ([48, 48] ++ ascii "\x7d")))))) := by
  rw [appMessageTemplate, fixed2_natCast, fixed2_natCast, fixed2_natCast]
  simp

/-- **Different measurements have different texts.** -/
theorem appMessageTemplate_injective {co2 rh temp co2' rh' temp' : ℕ}
    (h : appMessageTemplate co2 rh temp = appMessageTemplate co2' rh' temp') :
    co2 = co2' ∧ rh = rh' ∧ temp = temp' := by
  rw [appMessageTemplate_eq, appMessageTemplate_eq] at h
  have hpoint : ¬ ((48 : UInt8) ≤ 46 ∧ (46 : UInt8) ≤ 57) := by decide
  obtain ⟨hco2, h⟩ := digits_cons_inj hpoint (List.append_cancel_left h)
  obtain ⟨hrh, h⟩ := digits_cons_inj hpoint (List.append_cancel_left h)
  obtain ⟨htemp, -⟩ := digits_cons_inj hpoint (List.append_cancel_left h)
  exact ⟨hco2, hrh, htemp⟩

/-- The text of a measurement in the range of a `uint16_t` fits. -/
theorem appMessageTemplate_length_lt {co2 rh temp : ℕ} (hco2 : co2 ≤ 65535) (hrh : rh ≤ 65535)
    (htemp : temp ≤ 65535) : (appMessageTemplate co2 rh temp).length < appMessageMaxLen := by
  have hlen : ∀ n ≤ 65535, (digits n).length ≤ 5 := by
    intro n hn
    exact digits_length_le (by omega) (by omega)
  have h₁ := hlen co2 hco2
  have h₂ := hlen rh hrh
  have h₃ := hlen temp htemp
  have hfixed : (ascii "\x7b\"co2\": ").length + (ascii ", \"rh\": ").length +
      (ascii ", \"temp\": ").length + (ascii "\x7d").length = 27 := by decide
  rw [appMessageTemplate_eq, appMessageMaxLen]
  simp only [List.length_append, List.length_cons, List.length_nil]
  omega

/-! ### From the text to the payload -/

section

variable (p : Platform) (message : List UInt8) (co2 rh temp : ℤ)

/-- A text that fits is built whole. -/
theorem buildMessage_fits {text : List UInt8} (hformat : p.format co2 rh temp = some text)
    (hlen : text.length < appMessageMaxLen) :
    buildMessage p message co2 rh temp = ((text.length : ℤ), text) := by
  have hcut : text.take (appMessageMaxLen - 1) = text := List.take_of_length_le (by omega)
  have hok : ¬ ((text.length : ℤ) < 0 ∨ (text.length : ℤ) ≥ appMessageMaxLen) := by omega
  rw [buildMessage, hformat, snprintf_some, hcut]
  simp only [if_neg hok]

/-- A text that does not fit, or cannot be formatted, is reported by the size `-1`. -/
theorem buildMessage_rejects
    (hlong : ∀ text, p.format co2 rh temp = some text → appMessageMaxLen ≤ text.length) :
    (buildMessage p message co2 rh temp).1 = -1 := by
  rw [buildMessage]
  cases hformat : p.format co2 rh temp with
  | none => rfl
  | some text =>
      have hlen := hlong text hformat
      have hbad : (text.length : ℤ) < 0 ∨ (text.length : ℤ) ≥ appMessageMaxLen := by omega
      rw [snprintf_some]
      simp only [if_pos hbad]

end

section

variable {Loc : Type*} [DecidableEq Loc] {svc : CoapService Loc} {mem : Memory Loc}
  {message : List UInt8} {size : UInt16} {done errorOut : Loc} {out : PostOutcome}

/-- **A post that is accepted** hands over one request with the first `size` bytes of the
message. -/
theorem coapSchedulePost_accepted
    (h : (coapSchedulePost svc mem message size done errorOut out).1 = .none) :
    (coapSchedulePost svc mem message size done errorOut out).2.1.outstanding =
      svc.outstanding ++
        [⟨svc.allocated, svc.client.uri, message.take size.toNat, svc.client.target⟩] := by
  cases hbusy : svc.client.busy with
  | true =>
      rw [coapSchedulePost_of_busy hbusy] at h
      exact absurd h (by simp)
  | false =>
      rcases le_or_gt msgMaxLen size.toNat with hsize | hsize
      · rw [coapSchedulePost_of_long hbusy hsize] at h
        exact absurd h (by simp)
      · by_cases hok : out = .success
        · rw [hok, coapSchedulePost_of_success hbusy hsize]
        · obtain ⟨error, svc', heq, herror, -⟩ :=
            coapSchedulePost_of_failure hbusy hsize hok mem message done errorOut
          rw [heq] at h
          exact absurd h herror

/-- A message that is too long is refused, and nothing changes. -/
theorem coapSchedulePost_long (svc : CoapService Loc) (mem : Memory Loc) (message : List UInt8)
    (hsize : msgMaxLen ≤ size.toNat) (done errorOut : Loc) (out : PostOutcome) :
    ∃ error, error ≠ .none ∧
      coapSchedulePost svc mem message size done errorOut out = (error, svc, mem) := by
  cases hbusy : svc.client.busy with
  | true => exact ⟨.busy, by simp, coapSchedulePost_of_busy hbusy ..⟩
  | false => exact ⟨.failed, by simp, coapSchedulePost_of_long hbusy hsize ..⟩

end

/-! ### The sending process -/

section

variable {inp : PassInput} {w : World} {r : PostRecord}

/-- A text that fits is the payload of the request, if its post is accepted. -/
theorem senderPost_fits (hlog : (senderPost inp w).1.log = .post r :: w.log)
    (hsize : w.messageSize = w.app.message.length)
    (hlen : w.app.message.length < appMessageMaxLen) {id : ℕ} (hid : r.accepted = some id) :
    ∃ q, (senderPost inp w).1.coap.outstanding = w.coap.outstanding ++ [q] ∧ q.message = id ∧
      q.payload = w.app.message := by
  have htoNat : (UInt16.ofInt w.messageSize).toNat = w.app.message.length := by
    rw [hsize]
    exact UInt16.ofInt_natCast_toNat (hlen.trans (by decide))
  rw [senderPost] at hlog ⊢
  cases hcoap : w.app.coap with
  | null =>
      simp only [hcoap] at hlog
      obtain rfl := Obs.post.inj (List.cons.inj hlog).1
      exact absurd hid (by simp)
  | client =>
      simp only [hcoap] at hlog ⊢
      obtain rfl := Obs.post.inj (List.cons.inj hlog).1
      simp only at hid
      split at hid
      · next haccepted =>
          obtain rfl := Option.some.inj hid
          have hout := coapSchedulePost_accepted haccepted
          rw [htoNat, List.take_length] at hout
          exact ⟨_, hout, rfl, rfl⟩
      · exact absurd hid (by simp)

/-- The size `-1` is refused, and nothing is sent. -/
theorem senderPost_rejects (hlog : (senderPost inp w).1.log = .post r :: w.log)
    (hsize : w.messageSize = -1) :
    r.accepted = none ∧ (senderPost inp w).1.coap = w.coap ∧
      (w.app.coap = .client → (senderPost inp w).1.sendError ≠ .none) := by
  have hlong : msgMaxLen ≤ (UInt16.ofInt w.messageSize).toNat := by
    rw [hsize]
    decide
  rw [senderPost] at hlog ⊢
  cases hcoap : w.app.coap with
  | null =>
      simp only [hcoap] at hlog
      obtain rfl := Obs.post.inj (List.cons.inj hlog).1
      exact ⟨rfl, rfl, fun hclient => absurd hclient (by simp)⟩
  | client =>
      obtain ⟨error, herror, hpost⟩ := coapSchedulePost_long w.coap w.mem w.app.message hlong
        .sender .sender inp.post
      simp only [hcoap, hpost] at hlog ⊢
      obtain rfl := Obs.post.inj (List.cons.inj hlog).1
      simp [World.note, World.sendError, herror]

end

/-- **The whole text or nothing.** In whatever state the sending process begins, and however the
measurement is formatted: a text that fits is the payload of the request, if the post is
accepted; a text that does not fit, or cannot be formatted, is not posted, the client stays as
it was, and an error is reported. The texts of all measurements fit, and they differ. -/
theorem payload_whole (p : Platform) (inp : PassInput) (w : World) :
    (∃ r, ((coapSendingProcess p inp).entry w).1.log = .post r :: w.log ∧
      (∀ text, p.format w.app.co2 w.app.rh w.app.temp = some text →
        text.length < appMessageMaxLen → ∀ id, r.accepted = some id →
          ∃ q, ((coapSendingProcess p inp).entry w).1.coap.outstanding =
              w.coap.outstanding ++ [q] ∧ q.message = id ∧ q.payload = text) ∧
      ((∀ text, p.format w.app.co2 w.app.rh w.app.temp = some text →
          appMessageMaxLen ≤ text.length) →
        r.accepted = none ∧ ((coapSendingProcess p inp).entry w).1.coap = w.coap ∧
          (w.app.coap = .client →
            ((coapSendingProcess p inp).entry w).1.sendError ≠ .none))) ∧
    ∀ co2 rh temp : ℕ, co2 ≤ 65535 → rh ≤ 65535 → temp ≤ 65535 →
      (appMessageTemplate co2 rh temp).length < appMessageMaxLen ∧
        ∀ co2' rh' temp' : ℕ,
          appMessageTemplate co2 rh temp = appMessageTemplate co2' rh' temp' →
            co2 = co2' ∧ rh = rh' ∧ temp = temp' := by
  constructor
  · obtain ⟨clock, hbuild⟩ := senderBuild_eq p w
    obtain ⟨r, hlog, -, -⟩ := coapSendingProcess_entry p inp w
    refine ⟨r, hlog, ?_, ?_⟩ <;>
      simp only [coapSendingProcess, hbuild] at hlog ⊢
    · intro text hformat hlen id hid
      have hbuilt := buildMessage_fits p w.app.message w.app.co2 w.app.rh w.app.temp hformat hlen
      simp only [hbuilt] at hlog ⊢
      exact senderPost_fits hlog rfl hlen hid
    · intro hlong
      exact senderPost_rejects hlog (buildMessage_rejects p _ _ _ _ hlong)
  · intro co2 rh temp hco2 hrh htemp
    exact ⟨appMessageTemplate_length_lt hco2 hrh htemp,
      fun _ _ _ h => appMessageTemplate_injective h⟩

end SmartCO2
