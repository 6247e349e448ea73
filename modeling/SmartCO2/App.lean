import SmartCO2.Library.StepSystem
import SmartCO2.Node
import SmartCO2.Scd41
import SmartCO2.Sender

/-!
# The Application and its Main Loop

The model of `app_init`, `app_process_action`, `handleNetifStateChanged` and the loop of
`main`, put together as a step system: a pass of the main loop, a tick of the clock, the
callbacks that OpenThread makes between two passes, and the timer.
-/

namespace SmartCO2

/-! ### One pass of the application -/

section Pass

variable (p : Platform) (inp : PassInput)

/-- Thread 1, unless it is done. -/
def runNode (w : World) : Option World :=
  if w.app.pThreadDone1 then some w
  else do
    let (w, j) ← (nodeConnectThread p inp).resume (nodeFuel w) w.app.pThread1 w
    some { w with app.pThread1 := j.continuation, fault := decide (j = .stuck) }

/-- Thread 3, unless it is done. -/
def runSensor (w : World) : Option World :=
  if w.app.pThreadDone3 then some w
  else do
    let (w, j) ← (scd41UpdateValueThread inp).resume 2 w.app.pThread3 w
    some { w with app.pThread3 := j.continuation }

/-- The sending process, once all four threads are done. -/
def runSender (w : World) : Option World :=
  if w.app.pThreadDone1 && w.app.pThreadDone2 && w.app.pThreadDone3 && w.app.pThreadDone4 then do
    let (w, j) ← (coapSendingProcess p inp).resume 1 w.app.sendingProcessPt w
    some { w with app.sendingProcessPt := j.continuation, fault := decide (j = .stuck) }
  else some w

/-- `app_process_action`, with `SCD30_PRESENT` equal to 0: threads 2 and 4 are done at once. -/
def appProcessAction (w : World) : Option World := do
  let w ← runNode p inp w
  if w.fault then some w
  else
    let w ← runSensor inp { w with app.pThreadDone2 := true }
    runSender p inp { w with app.pThreadDone4 := true }

/-! ### The main loop -/

/-- `timer_callback`, if the timer is armed and fires; a one-shot timer disarms itself. -/
def timerCallback (fires : Bool) (w : World) : World :=
  if fires && w.timerArmed then { w with run := true, timerArmed := false } else w

/-- The application part of one pass of the loop in `main`. -/
def mainLoopPass (w : World) : Option World :=
  if w.run then do
    let w := { w with clock.ahead := inp.clock }
    let w ← appProcessAction p inp (timerCallback inp.irqInside w)
    let w := { w with clock.ahead := [] }
    if w.fault then some w
    else
      let w := timerCallback inp.irqAfter w
      if w.run then some w
      else some { timerCallback inp.irqBeforeRestart w with timerArmed := true }
  else some w

end Pass

/-- `handleNetifStateChanged`; `changed` is the flag `OT_CHANGED_THREAD_ROLE`. -/
def handleNetifStateChanged (changed : Bool) (role : DeviceRole) (w : World) : World :=
  if changed then
    match role with
    | .leader | .router | .child => ({ w with app.connected := true }).note (.role true)
    | .detached | .disabled => ({ w with app.connected := false }).note (.role false)
  else w

/-! ### The system -/

/-- The firmware after `app_init`, at the clock value `now`. -/
def boot (now : UInt32) : World where
  app :=
    { pThread1 := none
      pThread3 := none
      pThreadDone1 := false
      pThreadDone2 := false
      pThreadDone3 := false
      pThreadDone4 := false
      coap := .null
      mdns := .null
      connected := false
      thenTime := now.toUInt64
      co2 := 0
      temp := 0
      rh := 0
      message := []
      sendingProcessPt := none }
  mem := .zero
  dns := .zero
  coap := .zero
  timeLog := 0
  rxBuffer _ := 0
  messageSize := 0
  senderThen := 0
  run := true
  timerArmed := true
  clock := ⟨now, []⟩
  fault := false
  log := []

/-- What can happen: a pass of the main loop, and between two passes a tick of the clock, the
callbacks of OpenThread and the timer. -/
inductive Event
  | pass (inp : PassInput)
  | clock (now : UInt32)
  | role (changed : Bool) (role : DeviceRole)
  | autostart (sock : Option SockAddr)
  | browseResult (i : ℕ) (error : OtError) (response : BrowseResponse) (stack : List UInt8)
  | callback (i : ℕ) (error : OtError) (response : Bool)
  | timer

/-- The waits of `nodeConnectThread` after its test of `_app.done`. -/
def NodeWait.pastTest : NodeWait → Bool
  | .launchSleep | .answer | .answerSleep | .resultSleep => true
  | _ => false

/-- The callback of the `i`-th outstanding browse. -/
def browseCallback (p : Platform) (w : World) (i : ℕ) (error : OtError)
    (response : BrowseResponse) (stack : List UInt8) : World :=
  match w.dns.result p.ip6FromString w.mem i error response stack with
  | some (dns, mem) =>
      let past := w.app.pThread1.any NodeWait.pastTest
      ({ w with dns := dns, mem := mem }).note (.browseDone past (mem.error .app))
  | none => { w with fault := true }

/-- The callback of the outstanding request `r`, the `i`-th one. -/
def requestCallback (w : World) (i : ℕ) (r : Request) (error : OtError) (response : Bool) :
    World :=
  match w.coap.callback w.mem i error response with
  | some (coap, mem) => ({ w with coap := coap, mem := mem }).note (.callback r.message error)
  | none => { w with fault := true }

/-- One event. -/
def step (p : Platform) (w : World) (e : Event) : Option World :=
  if w.fault then none
  else
    match e with
    | .pass inp => mainLoopPass p inp w
    | .clock now => some { w with clock.now := now }
    | .role changed role => some (handleNetifStateChanged changed role w)
    | .autostart sock =>
        if w.dns.registered then some { w with dns := w.dns.autostart sock } else none
    | .browseResult i error response stack =>
        if i < w.dns.outstanding.length then
          some (browseCallback p w i error response stack)
        else none
    | .callback i error response =>
        w.coap.outstanding[i]?.map fun r => requestCallback w i r error response
    | .timer => if w.timerArmed then some (timerCallback true w) else none

/-- The firmware. -/
def firmware (p : Platform) : StepSystem World Event := ⟨step p⟩

/-! ### A first cycle -/

/-- An `otIp6AddressFromString` that knows the address `::1`. -/
def parseLoopback (text : List UInt8) (stored : Ip6Address) : OtError × Ip6Address :=
  if text = ascii "::1" then (.none, 1) else (.other 6, stored)

/-- The answer to a browse: the server is at `::1`. -/
def loopbackResponse : BrowseResponse :=
  ⟨.none, .none, .none, [⟨some (ascii "addr"), ascii "::1"⟩]⟩

/-- A pass with a sensor that is not ready. -/
def unready : PassInput := .calm [0x80, 0x00, 0] []

/-- A pass with a sensor that measures 600 ppm, 50 % and 24 °C. -/
def measuring : PassInput := .calm [0x80, 0x06, 0] [2, 88, 0, 102, 102, 0, 128, 0, 0]

/-- The node attaches at `start` and has launched its search two seconds later. -/
def searching (start : UInt32) (pass : PassInput) : List Event :=
  [.clock start, .role true .child, .pass pass, .clock (start + 2000), .autostart (some ⟨0, 53⟩),
    .pass pass]

/-- The search is answered; the next pass ends the connection thread. -/
def connecting (start : UInt32) (pass : PassInput) : List Event :=
  searching start pass ++
    [.browseResult 0 .none loopbackResponse [], .clock (start + 3000)]

/-- A first cycle up to the acknowledgement of its post. -/
def firstCycle : List Event :=
  connecting 0 measuring ++ [.pass measuring, .callback 0 .none false, .pass measuring]

end SmartCO2
