import SmartCO2.App

/-!
# Runs of the Firmware

What is the same for every property of the firmware: how a pass of the main loop is put
together from calls of the threads, that it always returns, and how a property of single
calls and callbacks becomes one of whole runs.

## Main results

* `PassRule.mainLoopPass`: the **rule of passes**. What the calls of the three threads keep,
  and what depends neither on the clock nor on the timer, is kept by a whole pass.
* `RunRule.run`: the **rule of runs**. What the callbacks keep as well holds after every run.
* `mainLoopPass_isSome`: every pass returns, whatever it meets.
-/

namespace SmartCO2

variable {p : Platform} {inp : PassInput}

/-! ### The calls of the threads -/

/-- Thread 1 is called unless it is done, and its continuation is saved. -/
theorem runNode_cases {w w' : World} (h : runNode p inp w = some w') :
    (w.app.pThreadDone1 = true ∧ w' = w) ∨ (w.app.pThreadDone1 = false ∧ ∃ w₁ j,
      (nodeConnectThread p inp).resume (nodeFuel w) w.app.pThread1 w = some (w₁, j) ∧
      w' = { w₁ with app.pThread1 := j.continuation, fault := decide (j = .stuck) }) := by
  rw [runNode] at h
  cases hdone : w.app.pThreadDone1 with
  | true =>
      rw [hdone, if_pos rfl] at h
      exact Or.inl ⟨rfl, (Option.some.inj h).symm⟩
  | false =>
      rw [hdone, if_neg Bool.false_ne_true] at h
      obtain ⟨⟨w₁, j⟩, hrun, hw'⟩ := Option.bind_eq_some_iff.mp h
      exact Or.inr ⟨rfl, w₁, j, hrun, (Option.some.inj hw').symm⟩

/-- Thread 3 is called unless it is done, and its continuation is saved. -/
theorem runSensor_cases {w w' : World} (h : runSensor inp w = some w') :
    (w.app.pThreadDone3 = true ∧ w' = w) ∨ (w.app.pThreadDone3 = false ∧ ∃ w₁ j,
      (scd41UpdateValueThread inp).resume 2 w.app.pThread3 w = some (w₁, j) ∧
      w' = { w₁ with app.pThread3 := j.continuation }) := by
  rw [runSensor] at h
  cases hdone : w.app.pThreadDone3 with
  | true =>
      rw [hdone, if_pos rfl] at h
      exact Or.inl ⟨rfl, (Option.some.inj h).symm⟩
  | false =>
      rw [hdone, if_neg Bool.false_ne_true] at h
      obtain ⟨⟨w₁, j⟩, hrun, hw'⟩ := Option.bind_eq_some_iff.mp h
      exact Or.inr ⟨rfl, w₁, j, hrun, (Option.some.inj hw').symm⟩

/-- The sending process is called when all threads are done, and its continuation is saved. -/
theorem runSender_cases {w w' : World} (h : runSender p inp w = some w') :
    ((w.app.pThreadDone1 && w.app.pThreadDone2 && w.app.pThreadDone3 &&
      w.app.pThreadDone4) = false ∧ w' = w) ∨
    (w.app.pThreadDone1 = true ∧ w.app.pThreadDone3 = true ∧ ∃ w₁ j,
      (coapSendingProcess p inp).resume 1 w.app.sendingProcessPt w = some (w₁, j) ∧
      w' = { w₁ with app.sendingProcessPt := j.continuation, fault := decide (j = .stuck) }) := by
  rw [runSender] at h
  split at h
  · next hdone =>
      obtain ⟨⟨w₁, j⟩, hrun, hw'⟩ := Option.bind_eq_some_iff.mp h
      simp only [Bool.and_eq_true] at hdone
      exact Or.inr ⟨hdone.1.1.1, hdone.1.2, w₁, j, hrun, (Option.some.inj hw').symm⟩
  · next hdone => exact Or.inl ⟨Bool.not_eq_true _ ▸ hdone, (Option.some.inj h).symm⟩

/-- The sensor thread does not get stuck. -/
theorem runSensor_fault {w w' : World} (h : runSensor inp w = some w') : w'.fault = w.fault := by
  rcases runSensor_cases h with ⟨-, rfl⟩ | ⟨-, w₁, j, hrun, rfl⟩
  · rfl
  · obtain ⟨_, _, _, _, _, _, _, _, rfl, -⟩ := scd41UpdateValueThread_frame hrun
    rfl

/-- A pass of the application: the threads in their order, unless thread 1 gets stuck. -/
theorem appProcessAction_cases {w w' : World} (h : appProcessAction p inp w = some w') :
    ∃ w₁, runNode p inp w = some w₁ ∧ ((w₁.fault = true ∧ w' = w₁) ∨ (w₁.fault = false ∧
      ∃ w₂, runSensor inp { w₁ with app.pThreadDone2 := true } = some w₂ ∧
        runSender p inp { w₂ with app.pThreadDone4 := true } = some w')) := by
  rw [appProcessAction] at h
  obtain ⟨w₁, hnode, h⟩ := Option.bind_eq_some_iff.mp h
  refine ⟨w₁, hnode, ?_⟩
  cases hfault : w₁.fault with
  | true =>
      rw [hfault, if_pos rfl] at h
      exact Or.inl ⟨rfl, (Option.some.inj h).symm⟩
  | false =>
      rw [hfault, if_neg Bool.false_ne_true] at h
      obtain ⟨w₂, hsensor, h⟩ := Option.bind_eq_some_iff.mp h
      exact Or.inr ⟨rfl, w₂, hsensor, h⟩

/-- The timer changes `run` and its own state only. -/
theorem timerCallback_eq (fires : Bool) (w : World) :
    ∃ run armed, timerCallback fires w = { w with run := run, timerArmed := armed } := by
  rw [timerCallback]
  split
  · exact ⟨true, false, rfl⟩
  · exact ⟨w.run, w.timerArmed, rfl⟩

/-- A pass of the main loop: nothing, or a pass of the application with the readings of the
clock, the timer before and after it. -/
theorem mainLoopPass_cases {w w' : World} (h : mainLoopPass p inp w = some w') :
    (w.run = false ∧ w' = w) ∨ ∃ run armed w₁ run' armed',
      appProcessAction p inp
        { w with clock.ahead := inp.clock, run := run, timerArmed := armed } = some w₁ ∧
      w' = { w₁ with clock.ahead := [], run := run', timerArmed := armed' } := by
  rw [mainLoopPass] at h
  split at h
  · obtain ⟨w₁, happ, h⟩ := Option.bind_eq_some_iff.mp h
    obtain ⟨run, armed, heq⟩ := timerCallback_eq inp.irqInside { w with clock.ahead := inp.clock }
    rw [heq] at happ
    refine Or.inr ⟨run, armed, w₁, ?_⟩
    simp only at h
    split at h
    · exact ⟨w₁.run, w₁.timerArmed, happ, (Option.some.inj h).symm⟩
    · obtain ⟨run₁, armed₁, heq₁⟩ := timerCallback_eq inp.irqAfter { w₁ with clock.ahead := [] }
      rw [heq₁] at h
      split at h
      · exact ⟨run₁, armed₁, happ, (Option.some.inj h).symm⟩
      · obtain ⟨run₂, armed₂, heq₂⟩ := timerCallback_eq inp.irqBeforeRestart
          { w₁ with clock.ahead := [], run := run₁, timerArmed := armed₁ }
        rw [heq₂] at h
        exact ⟨run₂, true, happ, (Option.some.inj h).symm⟩
  · next hrun => exact Or.inl ⟨Bool.not_eq_true _ ▸ hrun, (Option.some.inj h).symm⟩

/-- A pass of the main loop happens unless the firmware has run into an undefined operation. -/
theorem step_pass {w w' : World} (h : step p w (.pass inp) = some w') :
    w.fault = false ∧ mainLoopPass p inp w = some w' := by
  rw [step.eq_def] at h
  split at h
  · exact absurd h (by simp)
  · next hfault => exact ⟨Bool.not_eq_true _ ▸ hfault, h⟩

/-! ### The rule of passes -/

/-- What has to be shown of a property for it to be kept by a pass: it does not depend on the
clock, on the timer or on threads 2 and 4, and the calls of the other threads keep it. -/
structure PassRule (p : Platform) (I : World → Prop) : Prop where
  idle : ∀ {w} clock run armed done2 done4, I w →
    I { w with clock := clock, run := run, timerArmed := armed, app.pThreadDone2 := done2,
               app.pThreadDone4 := done4 }
  node : ∀ {inp w w'}, w.fault = false → I w → runNode p inp w = some w' → I w'
  sensor : ∀ {inp w w'}, w.fault = false → I w → runSensor inp w = some w' → I w'
  sender : ∀ {inp w w'}, w.fault = false → I w → runSender p inp w = some w' → I w'

namespace PassRule

variable {I : World → Prop}

/-- `app_process_action` keeps the property. -/
theorem appProcessAction (hI : PassRule p I) {w w' : World} (hfault : w.fault = false)
    (h : I w) (hpass : appProcessAction p inp w = some w') : I w' := by
  obtain ⟨w₁, hnode, hcase⟩ := appProcessAction_cases hpass
  have h₁ : I w₁ := hI.node hfault h hnode
  rcases hcase with ⟨-, rfl⟩ | ⟨hfault₁, w₂, hsensor, hsender⟩
  · exact h₁
  · have hsensor' := hI.idle w₁.clock w₁.run w₁.timerArmed true w₁.app.pThreadDone4 h₁
    have h₂ : I w₂ := by
      refine hI.sensor ?_ hsensor' hsensor
      exact hfault₁
    have hsender' := hI.idle w₂.clock w₂.run w₂.timerArmed w₂.app.pThreadDone2 true h₂
    refine hI.sender ?_ hsender' hsender
    exact (runSensor_fault hsensor).trans hfault₁

/-- **The rule of passes.** A pass of the main loop keeps the property. -/
theorem mainLoopPass (hI : PassRule p I) {w w' : World} (hfault : w.fault = false)
    (h : I w) (hpass : mainLoopPass p inp w = some w') : I w' := by
  rcases mainLoopPass_cases hpass with ⟨-, rfl⟩ | ⟨run, armed, w₁, run', armed', happ, rfl⟩
  · exact h
  · have hbefore := hI.idle ⟨w.clock.now, inp.clock⟩ run armed w.app.pThreadDone2
      w.app.pThreadDone4 h
    have h₁ : I w₁ := by
      refine hI.appProcessAction ?_ hbefore happ
      exact hfault
    exact hI.idle ⟨w₁.clock.now, []⟩ run' armed' w₁.app.pThreadDone2 w₁.app.pThreadDone4 h₁

end PassRule

/-! ### The rule of runs -/

/-- What has to be shown of a property for it to be kept by every event, the callbacks of
CoAP requests being restricted to those that meet the condition `C`. -/
structure RunRule (p : Platform) (C : World → Event → Prop) (I : World → Prop) : Prop
    extends PassRule p I where
  role : ∀ {w} changed role, w.fault = false → I w → I (handleNetifStateChanged changed role w)
  autostart : ∀ {w} sock, w.fault = false → I w → I { w with dns := w.dns.autostart sock }
  browse : ∀ {w i} error response stack, w.fault = false → i < w.dns.outstanding.length → I w →
    I (browseCallback p w i error response stack)
  request : ∀ {w i r} error response, w.fault = false → C w (.callback i error response) →
    w.coap.outstanding[i]? = some r → I w → I (requestCallback w i r error response)

namespace RunRule

variable {C : World → Event → Prop} {I : World → Prop}

/-- One event keeps the property. -/
theorem step (hI : RunRule p C I) {w w' : World} {e : Event} (h : I w) (hC : C w e)
    (hstep : step p w e = some w') : I w' := by
  rw [SmartCO2.step.eq_def] at hstep
  split at hstep
  · exact absurd hstep (by simp)
  · next hfault =>
      have hfault : w.fault = false := Bool.not_eq_true _ ▸ hfault
      cases e with
      | pass inp => exact hI.mainLoopPass hfault h hstep
      | clock now =>
          obtain rfl := Option.some.inj hstep
          exact hI.idle ⟨now, w.clock.ahead⟩ w.run w.timerArmed w.app.pThreadDone2
            w.app.pThreadDone4 h
      | role changed role =>
          obtain rfl := Option.some.inj hstep
          exact hI.role changed role hfault h
      | autostart sock =>
          simp only at hstep
          split at hstep
          · obtain rfl := Option.some.inj hstep
            exact hI.autostart sock hfault h
          · exact absurd hstep (by simp)
      | browseResult i error response stack =>
          simp only at hstep
          split at hstep
          · next hi =>
              obtain rfl := Option.some.inj hstep
              exact hI.browse error response stack hfault hi h
          · exact absurd hstep (by simp)
      | callback i error response =>
          obtain ⟨r, hr, rfl⟩ := Option.map_eq_some_iff.mp hstep
          exact hI.request error response hfault hC hr h
      | timer =>
          simp only at hstep
          split at hstep
          · obtain rfl := Option.some.inj hstep
            obtain ⟨run, armed, heq⟩ := timerCallback_eq true w
            rw [heq]
            exact hI.idle w.clock run armed w.app.pThreadDone2 w.app.pThreadDone4 h
          · exact absurd hstep (by simp)

/-- **The rule of runs.** What holds after `app_init` and is kept by every event holds after
every run whose callbacks of requests meet the condition. -/
theorem run (hI : RunRule p C I) {now : UInt32} (hboot : I (boot now)) {es : List Event}
    {w : World} (hC : (firmware p).EachStep (fun w e _ => C w e) (boot now) es)
    (hrun : (firmware p).run (boot now) es = some w) : I w :=
  StepSystem.run_guarded (I := I) (fun _ _ _ h hC hstep => hI.step h hC hstep) hboot hC hrun

/-- The rule of runs when every callback is admitted. -/
theorem run_all (hI : RunRule p (fun _ _ => True) I) {now : UInt32} (hboot : I (boot now))
    {es : List Event} {w : World} (hrun : (firmware p).run (boot now) es = some w) : I w :=
  StepSystem.run_invariant (I := I) (fun _ _ _ h hstep => hI.step h trivial hstep) hboot hrun

end RunRule

/-! ### Every pass returns -/

variable (p inp)

/-- The call of thread 1 returns. -/
theorem runNode_isSome (w : World) : (runNode p inp w).isSome := by
  obtain ⟨r, hr⟩ :=
    Option.isSome_iff_exists.mp (nodeConnectThread_isSome p inp w.app.pThread1 w)
  rw [runNode, hr]
  split <;> rfl

/-- The call of thread 3 returns. -/
theorem runSensor_isSome (w : World) : (runSensor inp w).isSome := by
  obtain ⟨r, hr⟩ :=
    Option.isSome_iff_exists.mp (scd41UpdateValueThread_isSome inp w.app.pThread3 w)
  rw [runSensor, hr]
  split <;> rfl

/-- The call of the sending process returns. -/
theorem runSender_isSome (w : World) : (runSender p inp w).isSome := by
  obtain ⟨r, hr⟩ :=
    Option.isSome_iff_exists.mp (coapSendingProcess_isSome p inp w.app.sendingProcessPt w)
  rw [runSender, hr]
  split <;> rfl

/-- A pass of the application returns. -/
theorem appProcessAction_isSome (w : World) : (appProcessAction p inp w).isSome := by
  obtain ⟨w₁, h₁⟩ := Option.isSome_iff_exists.mp (runNode_isSome p inp w)
  obtain ⟨w₂, h₂⟩ :=
    Option.isSome_iff_exists.mp (runSensor_isSome inp { w₁ with app.pThreadDone2 := true })
  rw [appProcessAction, h₁, Option.bind_eq_bind, Option.bind_some]
  split
  · rfl
  · rw [h₂, Option.bind_some]
    exact runSender_isSome p inp _

/-- **Every pass of the main loop returns**, whatever it meets. -/
theorem mainLoopPass_isSome (w : World) : (mainLoopPass p inp w).isSome := by
  rw [mainLoopPass]
  split
  · obtain ⟨w₁, h₁⟩ := Option.isSome_iff_exists.mp (appProcessAction_isSome p inp
      (timerCallback inp.irqInside { w with clock.ahead := inp.clock }))
    simp only [h₁, Option.bind_eq_bind, Option.bind_some]
    split
    · rfl
    · split <;> rfl
  · rfl

end SmartCO2
