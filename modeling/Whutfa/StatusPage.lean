import Whutfa.Transition
import Whutfa.HttpServer

/-! # What a page shows of the status

`pollStatus` and `setOverlay` (`frontend/app.js`) against the answer of `/api/status`
(`server/src/index.ts`): the server writes its status as JSON, the page parses the text,
takes the size of the video from it and shows four or five lines.  A page asks again two
seconds after it has shown an answer, so that it never waits for two.

Any JSON text is a possible answer of the page's model; the server's own is read back as
what was written (`poll_statusBody`).  Over whole runs, with the server's status changing at
any moment, polls failing, and others answering, what the page shows of the server goes
forward in time only, and is never older than the request it answers (`shown_in_order`).
The parser of the answer's bytes is left out.
-/
namespace Whutfa.StatusPage

open JsString JsValue

/-! ## The answer

The body of `/api/status`, as `JSON.stringify` writes it. -/

/-- The value of `usb_phase`. -/
def phaseText : UsbPhase → JsString
  | .idle => js "idle"
  | .aoaSwitch => js "aoa_switch"
  | .sessionActive => js "session_active"
  | .aoaFailed => js "aoa_failed"
  | .sslFailed => js "ssl_failed"

/-- `last_error` in the answer. -/
def errorJson : Option JsString → Json
  | none => .null
  | some s => .str s

section

-- the literal that a number is written as
variable (print : ℚ → Decimal)

/-- A number that is not finite is written as `null`. -/
def sizeJson : Option ℚ → Json
  | none => .null
  | some q => .num (print q)

/-- `{ ...handlerStatus, video: videoConfig, stub: useStub }`. -/
def statusJson (status : HandlerStatus) (video : VideoConfig) (stub : Bool) : Json :=
  .obj [
    (js "usb_phase", .str (phaseText status.usbPhase)), (js "aoap_open", .bool status.aoapOpen),
    (js "ssl_ok", .bool status.sslOk), (js "session_active", .bool status.sessionActive),
    (js "last_error", errorJson status.lastError),
    (js "dropped_frames", .num status.droppedFrames),
    (js "video", .obj [(js "width", sizeJson print video.width),
      (js "height", sizeJson print video.height), (js "fps", sizeJson print video.fps)]),
    (js "stub", .bool stub)]

/-- The body of the answer. -/
def statusBody (status : HandlerStatus) (video : VideoConfig) (stub : Bool) : JsString :=
  Json.stringify (statusJson print status video stub)

end

/-! ## The page

`pollStatus` reads fields of whatever has been parsed.  What that throws, and a `fetch` that has
failed, end in the same `catch`. -/

/-- What the page keeps, with the `innerHTML` of its overlay; `none` is `undefined`. -/
structure Page where
  aaWidth : Option Json
  aaHeight : Option Json
  fpsCount : Nat
  lastFpsTime : ℚ
  overlay : JsString

/-- `setOverlay`: each line in an element of its own. -/
def Page.setOverlay (page : Page) (lines : List JsString) : Page :=
  { page with overlay := lines.flatMap fun l => js "<div>" ++ l ++ js "</div>" }

/-- What a condition takes for true. -/
def isTruthy : Option Json → Bool
  | none => false
  | some .null => false
  | some (.bool b) => b
  | some (.num d) => d.value ≠ 0
  | some (.str s) => s ≠ []
  | some (.arr _) => true
  | some (.obj _) => true

/-- A line that warns. -/
def warn (text : JsString) : JsString := js "<span class='warn'>" ++ text ++ js "</span>"

/-- What is shown when anything has been thrown. -/
def Page.setUnavailable (page : Page) : Page := page.setOverlay [js "Status unavailable"]

section

-- how a number becomes a string
variable (numberText : Decimal → JsString)

/-- `if (s.video) …`. -/
def pollVideo (page : Page) (s : Json) : Except TypeError Page := do
  let video ← property s (js "video")
  match video with
  | none => pure page
  | some v =>
      if isTruthy (some v) then do
        let width ← property v (js "width")
        let height ← property v (js "height")
        pure { page with aaWidth := width, aaHeight := height }
      else pure page

/-- The lines made of a parsed answer. -/
def statusLines (fpsCount : Nat) (s : Json) : Except TypeError (List JsString) := do
  let usbPhase ← templateText numberText (← property s (js "usb_phase"))
  let sessionActive ← property s (js "session_active")
  let stub ← property s (js "stub")
  let lastError ← property s (js "last_error")
  let lines :=
    [js "USB: " ++ usbPhase,
     js "Session: " ++ (if isTruthy sessionActive then js "active" else js "no"),
     js "FPS: " ++ Decimal.digits fpsCount,
     if isTruthy stub then warn (js "STUB") else []]
  if isTruthy lastError then do
    let text ← templateText numberText lastError
    pure (lines ++ [warn text])
  else pure lines

/-- `pollStatus` from the answer on; `none` is a `fetch` that has failed. -/
def poll (page : Page) (answer : Option JsString) : Page :=
  match answer.bind Json.parse with
  | none => page.setUnavailable
  | some s =>
      match pollVideo page s with
      | .error _ => page.setUnavailable
      | .ok page =>
          match statusLines numberText page.fpsCount s with
          | .error _ => page.setUnavailable
          | .ok lines => page.setOverlay lines

end

/-- The lines for a status of the server. -/
def linesOf (status : HandlerStatus) (stub : Bool) (fpsCount : Nat) : List JsString :=
  let lines :=
    [js "USB: " ++ phaseText status.usbPhase,
     js "Session: " ++ (if status.sessionActive then js "active" else js "no"),
     js "FPS: " ++ Decimal.digits fpsCount,
     if stub then warn (js "STUB") else []]
  match status.lastError with
  | some (c :: s) => lines ++ [warn (c :: s)]
  | _ => lines

/-- They as the overlay shows them. -/
def overlayOf (status : HandlerStatus) (stub : Bool) (fpsCount : Nat) : JsString :=
  (linesOf status stub fpsCount).flatMap fun l => js "<div>" ++ l ++ js "</div>"

section

variable (numberText : Decimal → JsString) (print : ℚ → Decimal) (status : HandlerStatus)
  (video : VideoConfig) (stub : Bool)

theorem templateText_str (s : JsString) : templateText numberText (some (.str s)) = .ok s := by
  rw [templateText, toText]
  rfl

theorem pollVideo_statusJson (page : Page) :
    pollVideo page (statusJson print status video stub) = .ok
      { page with
        aaWidth := some (sizeJson print video.width)
        aaHeight := some (sizeJson print video.height) } := by
  rfl

theorem statusLines_statusJson (fpsCount : Nat) :
    statusLines numberText fpsCount (statusJson print status video stub) =
      .ok (linesOf status stub fpsCount) := by
  have hphase : property (statusJson print status video stub) (js "usb_phase") =
      .ok (some (.str (phaseText status.usbPhase))) := rfl
  have hactive : property (statusJson print status video stub) (js "session_active") =
      .ok (some (.bool status.sessionActive)) := rfl
  have hstub : property (statusJson print status video stub) (js "stub") =
      .ok (some (.bool stub)) := rfl
  have herror : property (statusJson print status video stub) (js "last_error") =
      .ok (some (errorJson status.lastError)) := rfl
  simp only [statusLines, hphase, hactive, hstub, herror, bind, Except.bind, templateText_str,
    isTruthy, linesOf]
  cases status.lastError with
  | none => rfl
  | some s =>
    cases s with
    | nil => rfl
    | cons c s =>
      simp only [errorJson, templateText_str]
      rfl

/-- **The page reads what the server has written**, whatever the text of the error. -/
theorem poll_statusBody (page : Page) :
    poll numberText page (some (statusBody print status video stub)) =
      { page with
        aaWidth := some (sizeJson print video.width)
        aaHeight := some (sizeJson print video.height)
        overlay := overlayOf status stub page.fpsCount } := by
  have hparse : (some (statusBody print status video stub)).bind Json.parse =
      some (statusJson print status video stub) := by
    rw [Option.bind_some, statusBody, Json.parse_stringify]
  unfold poll
  rw [hparse]
  simp only [pollVideo_statusJson, statusLines_statusJson, Page.setOverlay, overlayOf]

end

/-! ## Polls

The page asks again only when it has dealt with the last answer.  What the server has held is
kept as a list, and the moments of the answers that have been shown are places in it; they go
forward since there is one request on its way at most. -/

/-- What the page waits for.  Of a request it is noted how much the server had held when it
was made, and of an answer which of this it is, if it is the server's. -/
inductive Poll
  | timer
  | asked (since : Nat)
  | answered (since : Nat) (answer : Option JsString) (moment : Option Nat)

/-- An answer that has been shown. -/
structure Shown where
  since : Nat
  moment : Option Nat
  fpsCount : Nat
  overlay : JsString

/-- The server's state over time, and one page that polls it. -/
structure World where
  /-- What the server has held, ending with what it holds. -/
  held : List (HandlerStatus × VideoConfig)
  poll : Poll
  page : Page
  shown : List Shown

/-- `main` has called `pollStatus`. -/
def initial : World :=
  { held := [(defaultStatus, defaultVideoConfig)]
    poll := .asked 0
    page := { aaWidth := some (.num (Decimal.ofNat 1280))
              aaHeight := some (.num (Decimal.ofNat 720))
              fpsCount := 0, lastFpsTime := 0, overlay := [] }
    shown := [] }

/-- What the server, the network or the page does next. -/
inductive Action
  /-- The server's status or its video size is set. -/
  | change (status : HandlerStatus) (video : VideoConfig)
  /-- The timer of `setTimeout(pollStatus, 2000)`. -/
  | timer
  /-- The server answers with its status. -/
  | serve
  /-- It refuses to, another answers, or the request fails. -/
  | intercept (answer : Option JsString)
  /-- The page has the answer. -/
  | receive
  /-- The decoder outputs a frame. -/
  | output
  /-- The callback of `setInterval`. -/
  | interval (now : ℚ)

section

variable (numberText : Decimal → JsString) (print : ℚ → Decimal) (stub : Bool)

/-- One step; the page does not ask again before the last answer has been dealt with. -/
def step (w : World) : Action → Option World
  | .change status video => some { w with held := w.held ++ [(status, video)] }
  | .timer =>
      match w.poll with
      | .timer => some { w with poll := .asked (w.held.length - 1) }
      | _ => none
  | .serve =>
      match w.poll, w.held.getLast? with
      | .asked since, some (status, video) =>
          some { w with poll := .answered since (some (statusBody print status video stub))
                          (some (w.held.length - 1)) }
      | _, _ => none
  | .intercept answer =>
      match w.poll with
      | .asked since => some { w with poll := .answered since answer none }
      | _ => none
  | .receive =>
      match w.poll with
      | .answered since answer moment =>
          let page := poll numberText w.page answer
          some { w with
            poll := .timer
            page
            shown := w.shown ++
              [{ since, moment, fpsCount := w.page.fpsCount, overlay := page.overlay }] }
      | _ => none
  | .output => some { w with page := { w.page with fpsCount := w.page.fpsCount + 1 } }
  | .interval now =>
      if 1000 ≤ now - w.page.lastFpsTime then
        some { w with page := { w.page with fpsCount := 0, lastFpsTime := now } }
      else some w

/-- What is shown is what the server held at the moment, which is not before the request. -/
def Shown.Of (held : List (HandlerStatus × VideoConfig)) (e : Shown) : Prop :=
  ∀ i, e.moment = some i → e.since ≤ i ∧ ∃ x, held[i]? = some x ∧
    e.overlay = overlayOf x.1 stub e.fpsCount

/-- All moments shown are at or before this one. -/
def Before (shown : List Shown) (since : Nat) : Prop :=
  ∀ e ∈ shown, ∀ i, e.moment = some i → i ≤ since

/-- The request or the answer on its way. -/
def Poll.Sound (held : List (HandlerStatus × VideoConfig)) (shown : List Shown) : Poll → Prop
  | .timer => True
  | .asked since => since < held.length ∧ Before shown since
  | .answered since answer moment => Before shown since ∧
      ∀ i, moment = some i → since ≤ i ∧ ∃ x, held[i]? = some x ∧
        answer = some (statusBody print x.1 x.2 stub)

/-- The size is that of the answer shown last, if it was the server's. -/
def SizeOf (held : List (HandlerStatus × VideoConfig)) (shown : List Shown) (page : Page) : Prop :=
  ∀ e i, shown.getLast? = some e → e.moment = some i → ∃ x, held[i]? = some x ∧
    page.aaWidth = some (sizeJson print x.2.width) ∧
    page.aaHeight = some (sizeJson print x.2.height)

/-- What is shown, and what is on its way, comes from what the server has held. -/
structure Inv (w : World) : Prop where
  held : w.held ≠ []
  poll : w.poll.Sound print stub w.held w.shown
  shown : ∀ e ∈ w.shown, e.Of stub w.held
  order : w.shown.Pairwise fun e e' => ∀ i, e.moment = some i → i ≤ e'.since
  overlay : ∀ e, w.shown.getLast? = some e → w.page.overlay = e.overlay
  size : SizeOf print w.held w.shown w.page

variable {print stub}

theorem getElem?_held {held : List (HandlerStatus × VideoConfig)} {i : Nat}
    {x : HandlerStatus × VideoConfig} (h : held[i]? = some x)
    (more : List (HandlerStatus × VideoConfig)) : (held ++ more)[i]? = some x := by
  rw [List.getElem?_append_left (List.getElem?_eq_some_iff.mp h).1, h]

/-- The server's status is set. -/
theorem Inv.change {w : World} (h : Inv print stub w) (x : HandlerStatus × VideoConfig) :
    Inv print stub { w with held := w.held ++ [x] } := by
  obtain ⟨-, hpoll, hshown, horder, hoverlay, hsize⟩ := h
  refine ⟨List.concat_ne_nil x w.held, ?_, ?_, horder, hoverlay, ?_⟩
  · cases hp : w.poll with
    | timer => trivial
    | asked since =>
      rw [hp] at hpoll
      refine ⟨?_, hpoll.2⟩
      rw [List.length_append]
      exact Nat.lt_add_right _ hpoll.1
    | answered since answer moment =>
      rw [hp] at hpoll
      refine ⟨hpoll.1, fun i hi => ?_⟩
      obtain ⟨hle, y, hy, hanswer⟩ := hpoll.2 i hi
      exact ⟨hle, y, getElem?_held hy [x], hanswer⟩
  · intro e he i hi
    obtain ⟨hle, y, hy, heq⟩ := hshown e he i hi
    exact ⟨hle, y, getElem?_held hy [x], heq⟩
  · intro e i he hi
    obtain ⟨y, hy, hdims⟩ := hsize e i he hi
    exact ⟨y, getElem?_held hy [x], hdims⟩

/-- All that has been shown was held. -/
theorem Inv.before {w : World} (h : Inv print stub w) : Before w.shown (w.held.length - 1) := by
  intro e he i hi
  obtain ⟨-, x, hx, -⟩ := h.shown e he i hi
  have hlt := (List.getElem?_eq_some_iff.mp hx).1
  omega

theorem Inv.timer {w : World} (h : Inv print stub w) :
    Inv print stub { w with poll := .asked (w.held.length - 1) } := by
  have hpos := List.length_pos_iff.mpr h.held
  exact { h with poll := ⟨by show _ < w.held.length; omega, h.before⟩ }

theorem Inv.serve {w : World} (h : Inv print stub w) {since : Nat} (hp : w.poll = .asked since)
    {x : HandlerStatus × VideoConfig} (hx : w.held.getLast? = some x) :
    Inv print stub { w with poll := .answered since (some (statusBody print x.1 x.2 stub))
                              (some (w.held.length - 1)) } := by
  have hpoll := h.poll
  rw [hp] at hpoll
  refine { h with poll := ⟨hpoll.2, ?_⟩ }
  rintro i hi
  obtain rfl := Option.some.inj hi
  refine ⟨by have := hpoll.1; omega, x, ?_, rfl⟩
  rwa [← List.getLast?_eq_getElem?]

theorem Inv.intercept {w : World} (h : Inv print stub w) {since : Nat}
    (hp : w.poll = .asked since) (answer : Option JsString) :
    Inv print stub { w with poll := .answered since answer none } := by
  have hpoll := h.poll
  rw [hp] at hpoll
  exact { h with poll := ⟨hpoll.2, nofun⟩ }

/-- **An answer is shown.** -/
theorem Inv.receive {w : World} (h : Inv print stub w) {since : Nat} {answer : Option JsString}
    {moment : Option Nat} (hp : w.poll = .answered since answer moment) {page : Page}
    (hpage : page = StatusPage.poll numberText w.page answer) :
    Inv print stub { w with
      poll := .timer
      page
      shown := w.shown ++
        [{ since, moment, fpsCount := w.page.fpsCount, overlay := page.overlay }] } := by
  have hpoll := h.poll
  rw [hp] at hpoll
  obtain ⟨hbefore, hanswer⟩ := hpoll
  -- what the server's answer makes of the page
  have hread : ∀ i, moment = some i → since ≤ i ∧ ∃ x, w.held[i]? = some x ∧
      page.overlay = overlayOf x.1 stub w.page.fpsCount ∧
      page.aaWidth = some (sizeJson print x.2.width) ∧
      page.aaHeight = some (sizeJson print x.2.height) := by
    intro i hi
    obtain ⟨hle, x, hx, hbody⟩ := hanswer i hi
    rw [hbody, poll_statusBody] at hpage
    exact ⟨hle, x, hx, by rw [hpage], by rw [hpage], by rw [hpage]⟩
  refine ⟨h.held, trivial, ?_, ?_, ?_, ?_⟩
  · intro e he
    rcases List.mem_append.mp he with hold | hnew
    · exact h.shown e hold
    · obtain rfl := List.mem_singleton.mp hnew
      intro i hi
      obtain ⟨hle, x, hx, hoverlay, -⟩ := hread i hi
      exact ⟨hle, x, hx, hoverlay⟩
  · refine List.pairwise_append.mpr ⟨h.order, List.pairwise_singleton _ _, fun e he e' he' => ?_⟩
    rw [List.mem_singleton.mp he']
    exact hbefore e he
  · intro e he
    rw [List.getLast?_concat] at he
    rw [← Option.some.inj he]
  · intro e i he hi
    rw [List.getLast?_concat] at he
    obtain rfl := Option.some.inj he
    obtain ⟨-, x, hx, -, hdims⟩ := hread i hi
    exact ⟨x, hx, hdims⟩

theorem inv_step {w v : World} {a : Action} (h : Inv print stub w)
    (hstep : step numberText print stub w a = some v) : Inv print stub v := by
  cases a with
  | change status video =>
    obtain rfl := Option.some.inj hstep
    exact h.change (status, video)
  | timer =>
    simp only [step] at hstep
    split at hstep
    · obtain rfl := Option.some.inj hstep
      exact h.timer
    · cases hstep
  | serve =>
    simp only [step] at hstep
    split at hstep
    · rename_i since status video hp hx
      obtain rfl := Option.some.inj hstep
      exact h.serve hp hx
    · cases hstep
  | intercept answer =>
    simp only [step] at hstep
    split at hstep
    · rename_i since hp
      obtain rfl := Option.some.inj hstep
      exact h.intercept hp answer
    · cases hstep
  | receive =>
    simp only [step] at hstep
    split at hstep
    · rename_i since answer moment hp
      obtain rfl := Option.some.inj hstep
      exact h.receive numberText hp rfl
    · cases hstep
  | output =>
    obtain rfl := Option.some.inj hstep
    exact { h with overlay := h.overlay, size := h.size }
  | interval now =>
    simp only [step] at hstep
    split at hstep
    · obtain rfl := Option.some.inj hstep
      exact { h with overlay := h.overlay, size := h.size }
    · obtain rfl := Option.some.inj hstep
      exact h

theorem inv_initial : Inv print stub initial :=
  ⟨List.cons_ne_nil _ _, ⟨Nat.zero_lt_one, nofun⟩, nofun, List.Pairwise.nil, nofun, nofun⟩

variable (print stub)

/-- From a request on its way, what the server holds can be shown. -/
theorem exists_current_of_asked {w : World} (hheld : w.held ≠ []) {since : Nat}
    (hp : w.poll = .asked since) :
    ∃ actions v x, Transition.run (step numberText print stub) w actions = some v ∧
      w.held.getLast? = some x ∧ v.page.overlay = overlayOf x.1 stub v.page.fpsCount := by
  obtain ⟨x, hx⟩ := Option.ne_none_iff_exists'.mp (mt List.getLast?_eq_none_iff.mp hheld)
  obtain ⟨page, hpage⟩ : ∃ page, page =
      StatusPage.poll numberText w.page (some (statusBody print x.1 x.2 stub)) := ⟨_, rfl⟩
  have hoverlay : page.overlay = overlayOf x.1 stub page.fpsCount := by
    rw [hpage, poll_statusBody]
  refine ⟨[.serve, .receive], { w with
    poll := .timer
    page
    shown := w.shown ++ [{ since, moment := some (w.held.length - 1)
                           fpsCount := w.page.fpsCount, overlay := page.overlay }] },
    x, ?_, hx, hoverlay⟩
  simp only [Transition.run, step, hp, hx, Option.bind_some, ← hpage]

theorem exists_current_of_timer {w : World} (hheld : w.held ≠ []) (hp : w.poll = .timer) :
    ∃ actions v x, Transition.run (step numberText print stub) w actions = some v ∧
      w.held.getLast? = some x ∧ v.page.overlay = overlayOf x.1 stub v.page.fpsCount := by
  have htimer : step numberText print stub w .timer =
      some { w with poll := .asked (w.held.length - 1) } := by
    simp only [step, hp]
  obtain ⟨actions, v, x, hrun, hx, hoverlay⟩ :=
    exists_current_of_asked numberText print stub
      (w := { w with poll := .asked (w.held.length - 1) }) hheld rfl
  exact ⟨.timer :: actions, v, x, Transition.run_cons_eq_some.mpr ⟨_, htimer, hrun⟩, hx, hoverlay⟩

/-- A page never stops asking: from every state what the server holds can be shown. -/
theorem exists_current {w : World} (hheld : w.held ≠ []) :
    ∃ actions v x, Transition.run (step numberText print stub) w actions = some v ∧
      w.held.getLast? = some x ∧ v.page.overlay = overlayOf x.1 stub v.page.fpsCount := by
  cases hp : w.poll with
  | timer => exact exists_current_of_timer numberText print stub hheld hp
  | asked since => exact exists_current_of_asked numberText print stub hheld hp
  | answered since answer moment =>
    obtain ⟨t, ht, hpoll, hsame⟩ : ∃ t, step numberText print stub w .receive = some t ∧
        t.poll = .timer ∧ t.held = w.held := by
      simp only [step, hp]
      exact ⟨_, rfl, rfl, rfl⟩
    rw [← hsame] at hheld ⊢
    obtain ⟨actions, v, x, hrun, hx, hoverlay⟩ :=
      exists_current_of_timer numberText print stub hheld hpoll
    exact ⟨.receive :: actions, v, x, Transition.run_cons_eq_some.mpr ⟨t, ht, hrun⟩, hx, hoverlay⟩

/-- **What a page shows of the server goes forward.**  In every run, each answer of the
server that has been shown is what the server held at a moment not before the page asked;
no later answer shows what was held before an earlier one; the overlay and the size are
those of the answer shown last; and what the server now holds can still come to be shown. -/
theorem shown_in_order {w : World}
    (h : Transition.Reachable (step numberText print stub) (· = initial) w) :
    (∀ e ∈ w.shown, e.Of stub w.held) ∧
      (w.shown.Pairwise fun e e' => ∀ i, e.moment = some i → i ≤ e'.since) ∧
      (∀ e, w.shown.getLast? = some e → w.page.overlay = e.overlay) ∧
      SizeOf print w.held w.shown w.page ∧
      ∃ actions v x, Transition.run (step numberText print stub) w actions = some v ∧
        w.held.getLast? = some x ∧ v.page.overlay = overlayOf x.1 stub v.page.fpsCount := by
  have hinv : Inv print stub w :=
    h.invariant_from inv_initial fun _ _ _ hs hstep => inv_step numberText hs hstep
  exact ⟨hinv.shown, hinv.order, hinv.overlay, hinv.size,
    exists_current numberText print stub hinv.held⟩

end

/-- The session begins while the first answer is on its way, and the next request fails. -/
theorem shown_in_order_failed : ∃ w,
    Transition.run (step Decimal.print (fun q => Decimal.ofNat q.num.toNat) false) initial
      [.change { defaultStatus with sessionActive := true } defaultVideoConfig, .serve, .receive,
        .timer, .output, .intercept none, .receive] = some w ∧
    w.shown.map (fun e => (e.since, e.moment, e.fpsCount)) = [(0, some 1, 0), (1, none, 1)] ∧
    w.page.overlay = js "<div>Status unavailable</div>" ∧
    (∀ e ∈ w.shown, e.Of false w.held) ∧
    ∃ actions v x,
      Transition.run (step Decimal.print (fun q => Decimal.ofNat q.num.toNat) false) w actions =
        some v ∧
      w.held.getLast? = some x ∧ v.page.overlay = overlayOf x.1 false v.page.fpsCount := by
  obtain ⟨w, hw, hshown, hoverlay⟩ : ∃ w,
      Transition.run (step Decimal.print (fun q => Decimal.ofNat q.num.toNat) false) initial
        [.change { defaultStatus with sessionActive := true } defaultVideoConfig, .serve, .receive,
          .timer, .output, .intercept none, .receive] = some w ∧
      w.shown.map (fun e => (e.since, e.moment, e.fpsCount)) = [(0, some 1, 0), (1, none, 1)] ∧
      w.page.overlay = js "<div>Status unavailable</div>" := by
    simp only [Transition.run, step, initial, Option.bind_some, List.cons_append, List.nil_append,
      List.getLast?_cons_cons, List.getLast?_singleton, poll_statusBody]
    exact ⟨_, rfl, rfl, rfl⟩
  obtain ⟨hof, -, -, -, hcurrent⟩ :=
    shown_in_order Decimal.print (fun q => Decimal.ofNat q.num.toNat) false ⟨initial, _, rfl, hw⟩
  exact ⟨w, hw, hshown, hoverlay, hof, hcurrent⟩

end Whutfa.StatusPage
