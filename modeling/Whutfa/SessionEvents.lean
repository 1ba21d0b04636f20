import Mathlib.Data.List.Nodup
import Mathlib.Data.List.Range
import Whutfa.SessionLifecycle

/-! # The order of a session's events

What the handler process publishes over a whole run, in the model of `SessionLifecycle`.
`connecting` is published once for each `Session` that `onDevice` makes, a service
discovery publishes the geometry and `active` together, and `idle` comes from `on_quit`,
which the `quit_triggered_` of the control handler lets through once and only the current
session lets out.

The events themselves name no session; `blocksOf` says of which session each of them is,
along the run.  A device that attaches while a session goes on, and whose own session fails
to start, publishes a `connecting` in the middle of the other session: the `idle` that
follows may be the other's.  But each `idle` ends a session that has begun, no session is
ended twice, and none ends in the middle of another (`published_grammar`).
-/
namespace Whutfa.Lifecycle

/-- What is published together, and for which session. -/
inductive Block
  | connecting (session : Nat)
  | discovered (session : Nat)
  | idle (session : Nat)
  deriving DecidableEq

/-- The events of a block; a discovery tells the geometry first. -/
def Block.events (cfg : HandlerConfig) : Block → List ControlEvent
  | .connecting _ => [.session .connecting]
  | .discovered _ =>
      [.videoConfig cfg.videoWidth cfg.videoHeight cfg.videoFps, .session .active]
  | .idle _ => [.session .idle]

/-- The session that a block begins. -/
def Block.begun? : Block → Option Nat
  | .connecting session => some session
  | _ => none

/-- What the phone's service discovery is to publish. -/
def discovery (session : Nat) : ControlInput → List Block
  | .serviceDiscoveryRequest => [.discovered session]
  | _ => []

/-- What a control handler that quits is to publish: it ends its session, if it has not
quit before and the session is the current one. -/
def quitting (s : State) (handler : ControlHandler) : List Block :=
  if handler.quitTriggered = false ∧ s.current.map Session.id = some handler.session then
    [.idle handler.session]
  else []

/-- What a callback is to publish.  A device begins the next session. -/
def blocks (cfg : HandlerConfig) (s : State) : Action → List Block
  | .device deviceThrows _ => if deviceThrows then [] else [.connecting s.made]
  | .input i what =>
      match s.handlers[i]? with
      | none => []
      | some handler =>
          discovery handler.session what ++
            if (control cfg what).quits then quitting s handler else []

/-- What the callbacks of a run are to publish. -/
def blocksOf (cfg : HandlerConfig) : State → List Action → List Block
  | _, [] => []
  | s, a :: as =>
      match step cfg s a with
      | none => []
      | some t => blocks cfg s a ++ blocksOf cfg t as

/-- The session has begun, and since then none has ended. -/
def Begun (before : List Block) (session : Nat) : Prop :=
  ∃ front middle, before = front ++ .connecting session :: middle ∧
    ∀ other, Block.idle other ∉ middle

/-- The published events, and their order. -/
structure Grammar (cfg : HandlerConfig) (s : State) (blocks : List Block) : Prop where
  published : s.published = blocks.flatMap (Block.events cfg)
  /-- One `connecting` for each session, in the order in which they are made. -/
  connecting : blocks.filterMap Block.begun? = List.range s.made
  /-- An `idle` ends a session that has begun, with no other `idle` in between. -/
  idle : ∀ before session later, blocks = before ++ .idle session :: later →
    Begun before session

/-- What makes it so. -/
structure Orderly (cfg : HandlerConfig) (s : State) (blocks : List Block) : Prop
    extends Grammar cfg s blocks where
  made : ∀ handler ∈ s.handlers, handler.session < s.made
  nodup : (s.handlers.map ControlHandler.session).Nodup
  /-- While a handler may still quit the current session, nothing has ended since it began. -/
  open_ : ∀ session handler, s.current = some session → handler ∈ s.handlers →
    handler.session = session.id → handler.quitTriggered = false → Begun blocks session.id

theorem orderly_initial (cfg : HandlerConfig) : Orderly cfg initial [] where
  published := rfl
  connecting := rfl
  idle before session later h := by simp at h
  made := List.forall_mem_nil _
  nodup := List.nodup_nil
  open_ session handler h := by cases h

variable {cfg : HandlerConfig} {s t : State} {events : List Block}

/-- A session that has begun stays so while none ends. -/
theorem Begun.append {session : Nat} (h : Begun events session) {block : Block}
    (hblock : ∀ other, block ≠ .idle other) : Begun (events ++ [block]) session := by
  obtain ⟨front, middle, rfl, hnone⟩ := h
  refine ⟨front, middle ++ [block], by simp, fun other hmem => ?_⟩
  rcases List.mem_append.mp hmem with hmem | hmem
  · exact hnone other hmem
  · exact hblock other (List.mem_singleton.mp hmem).symm

theorem begun_connecting (events : List Block) (session : Nat) :
    Begun (events ++ [.connecting session]) session := ⟨events, [], rfl, nofun⟩

/-- A block more keeps the order; an `idle`, when its session has begun. -/
theorem idle_append {block : Block} (hblock : ∀ session, block = .idle session →
      Begun events session)
    (h : ∀ before session later, events = before ++ .idle session :: later →
      Begun before session) :
    ∀ before session later, events ++ [block] = before ++ .idle session :: later →
      Begun before session := by
  intro before session later heq
  rcases List.eq_nil_or_concat later with rfl | ⟨init, last, rfl⟩
  · -- it is this `idle`
    obtain ⟨rfl, hlast⟩ := List.append_inj' heq rfl
    exact hblock session (List.cons.inj hlast).1
  · rw [List.concat_eq_append, ← List.cons_append, ← List.append_assoc] at heq
    exact h before session init (List.append_inj_left' heq rfl)

/-- `Session::start` publishes `connecting`, and a control handler is new or there is none. -/
theorem Orderly.start (h : Orderly cfg s events) (startThrows : Option StartStep) :
    Orderly cfg (Lifecycle.start s startThrows) (events ++ [.connecting s.made]) := by
  have hpublished : s.published ++ [.session .connecting] =
      (events ++ [Block.connecting s.made]).flatMap (Block.events cfg) := by
    rw [List.flatMap_append, ← h.published]
    rfl
  have hbegun : (events ++ [Block.connecting s.made]).filterMap Block.begun? =
      List.range (s.made + 1) := by
    rw [List.filterMap_append, h.connecting, List.range_succ]
    rfl
  have hidle : ∀ before session later,
      events ++ [Block.connecting s.made] = before ++ .idle session :: later →
        Begun before session := idle_append (fun _ heq => by cases heq) h.idle
  have hold : ∀ handler ∈ s.handlers, handler.session < s.made + 1 := fun handler hmem =>
    Nat.lt_succ_of_lt (h.made handler hmem)
  let new : ControlHandler := { session := s.made, quitTriggered := false }
  have hmade : ∀ handler ∈ s.handlers ++ [new], handler.session < s.made + 1 := by
    refine List.forall_mem_append.mpr ⟨hold, ?_⟩
    rw [List.forall_mem_singleton]
    exact Nat.lt_succ_self _
  have hnodup : ((s.handlers ++ [new]).map ControlHandler.session).Nodup := by
    rw [List.map_append, List.nodup_append]
    refine ⟨h.nodup, List.nodup_singleton _, ?_⟩
    rintro id hid id' hid' rfl
    obtain ⟨handler, hmem, rfl⟩ := List.mem_map.mp hid
    have heq : handler.session = s.made := List.mem_singleton.mp hid'
    have hlt := h.made handler hmem
    omega
  -- the handlers that were there, and the new one
  have hopen : ∀ session handler, s.current = some session → handler ∈ s.handlers →
      handler.session = session.id → handler.quitTriggered = false →
        Begun (events ++ [Block.connecting s.made]) session.id := by
    intro session handler hs hmem hid hq
    exact (h.open_ session handler hs hmem hid hq).append fun _ heq => by cases heq
  have hopen' : ∀ session handler, s.current = some session → handler ∈ s.handlers ++ [new] →
      handler.session = session.id → handler.quitTriggered = false →
        Begun (events ++ [Block.connecting s.made]) session.id := by
    intro session handler hs hmem hid hq
    rcases List.mem_append.mp hmem with hmem | hmem
    · exact hopen session handler hs hmem hid hq
    · obtain rfl := List.mem_singleton.mp hmem
      rw [← hid]
      exact begun_connecting events s.made
  cases startThrows with
  | none =>
    refine ⟨⟨hpublished, hbegun, hidle⟩, hmade, hnodup, fun session handler hs _ _ _ => ?_⟩
    obtain rfl := Option.some.inj hs
    exact begun_connecting events s.made
  | some failing =>
    by_cases hfailing : failing = .controlStart
    · subst hfailing
      exact ⟨⟨hpublished, hbegun, hidle⟩, hmade, hnodup, hopen'⟩
    · cases failing with
      | controlStart => exact absurd rfl hfailing
      | _ => exact ⟨⟨hpublished, hbegun, hidle⟩, hold, h.nodup, hopen⟩

theorem onQuit_current {current : Session} (h : s.current = some current) :
    onQuit s current.id =
      { emit s [.session .idle] with current := some { current with active := false } } := by
  rw [onQuit, h]
  exact if_pos rfl

theorem onQuit_other {session : Nat} (h : s.current.map Session.id ≠ some session) :
    onQuit s session = s := by
  unfold onQuit
  split
  · rfl
  · rename_i current hcurrent
    rw [if_neg fun hid => h (by rw [hcurrent, ← hid]; rfl)]

/-- The `i`-th handler, after it has quit: the others are as they were. -/
theorem mem_set_quit (h : Orderly cfg s events) {i : Nat} {handler : ControlHandler}
    (hi : s.handlers[i]? = some handler) :
    ((s.handlers.set i { handler with quitTriggered := true }).map ControlHandler.session) =
        s.handlers.map ControlHandler.session ∧
      ∀ other ∈ s.handlers.set i { handler with quitTriggered := true },
        other.session < s.made ∧ (other.quitTriggered = false →
          other ∈ s.handlers ∧ other.session ≠ handler.session) := by
  let quit : ControlHandler := { handler with quitTriggered := true }
  obtain ⟨hlt, hget⟩ := List.getElem?_eq_some_iff.mp hi
  have hsessions : (s.handlers.set i quit).map ControlHandler.session =
      s.handlers.map ControlHandler.session := by
    have hlt' : i < (s.handlers.map ControlHandler.session).length := by
      rw [List.length_map]
      exact hlt
    have hsame : quit.session = (s.handlers.map ControlHandler.session)[i] := by
      rw [List.getElem_map, hget]
    rw [List.map_set, hsame, List.set_getElem_self]
  have hnodup : ((s.handlers.set i quit).map ControlHandler.session).Nodup := hsessions ▸ h.nodup
  have hquit : quit ∈ s.handlers.set i quit := List.mem_of_getElem? (List.getElem?_set_self hlt)
  refine ⟨hsessions, fun other hother => ?_⟩
  rcases List.mem_or_eq_of_mem_set hother with hold | rfl
  · refine ⟨h.made other hold, fun hfalse => ⟨hold, fun heq => ?_⟩⟩
    rw [List.inj_on_of_nodup_map hnodup hother hquit heq] at hfalse
    cases hfalse
  · exact ⟨h.made handler (List.mem_of_getElem? hi), fun hfalse => by cases hfalse⟩

/-- A control handler quits. -/
theorem Orderly.triggerQuit (h : Orderly cfg s events) {i : Nat} {handler : ControlHandler}
    (hi : s.handlers[i]? = some handler) :
    Orderly cfg (Lifecycle.triggerQuit s i handler) (events ++ quitting s handler) := by
  by_cases hquit : handler.quitTriggered = true
  · have hnothing : quitting s handler = [] := if_neg fun hboth => by cases hquit.symm.trans hboth.1
    rw [hnothing, List.append_nil, Lifecycle.triggerQuit, if_pos hquit]
    exact h
  have hfalse : handler.quitTriggered = false := Bool.eq_false_iff.mpr hquit
  rw [Lifecycle.triggerQuit, if_neg hquit]
  obtain ⟨hsessions, hothers⟩ := mem_set_quit h hi
  let quit : State := { s with
    handlers := s.handlers.set i { handler with quitTriggered := true } }
  have hnodup : (quit.handlers.map ControlHandler.session).Nodup := hsessions ▸ h.nodup
  by_cases hcurrent : s.current.map Session.id = some handler.session
  · -- the session is the current one, and its handler had not quit
    have hidle : quitting s handler = [.idle handler.session] := if_pos ⟨hfalse, hcurrent⟩
    obtain ⟨current, hsome, hid⟩ := Option.map_eq_some_iff.mp hcurrent
    have hopen : Begun events handler.session :=
      hid ▸ h.open_ current handler hsome (List.mem_of_getElem? hi) hid.symm hfalse
    have hended : onQuit quit handler.session =
        { emit quit [.session .idle] with current := some { current with active := false } } :=
      hid ▸ onQuit_current (s := quit) hsome
    rw [hidle, hended]
    refine ⟨⟨?_, ?_, idle_append (fun session heq => ?_) h.idle⟩,
      fun other hother => (hothers other hother).1, hnodup, ?_⟩
    · rw [List.flatMap_append, ← h.published]
      rfl
    · rw [List.filterMap_append, h.connecting]
      exact List.append_nil _
    · exact Block.idle.inj heq ▸ hopen
    · intro session other hsession hmem hsame hnot
      obtain rfl := Option.some.inj hsession
      exact absurd (hsame.trans hid) ((hothers other hmem).2 hnot).2
  · have hnothing : quitting s handler = [] := if_neg fun hboth => hcurrent hboth.2
    rw [hnothing, List.append_nil, onQuit_other (s := quit) hcurrent]
    exact ⟨⟨h.published, h.connecting, h.idle⟩, fun other hother => (hothers other hother).1,
      hnodup, fun session other hs hmem hid hnot =>
        h.open_ session other hs ((hothers other hmem).2 hnot).1 hid hnot⟩

/-- What the handler publishes itself: the answer to a service discovery. -/
theorem Orderly.emit (h : Orderly cfg s events) (session : Nat) (what : ControlInput) :
    Orderly cfg (Lifecycle.emit s (control cfg what).emitted)
      (events ++ discovery session what) := by
  by_cases hwhat : what = .serviceDiscoveryRequest
  · subst hwhat
    refine ⟨⟨?_, ?_, idle_append (fun _ heq => by cases heq) h.idle⟩, h.made, h.nodup,
      fun session other hs hmem hid hq => ?_⟩
    · rw [List.flatMap_append, ← h.published]
      rfl
    · rw [List.filterMap_append, h.connecting]
      exact List.append_nil _
    · exact (h.open_ session other hs hmem hid hq).append fun _ heq => by cases heq
  · have hnothing : discovery session what = [] := by
      cases what with
      | serviceDiscoveryRequest => exact absurd rfl hwhat
      | _ => rfl
    rw [hnothing, List.append_nil, emitted_eq_nil cfg hwhat]
    refine ⟨⟨?_, h.connecting, h.idle⟩, h.made, h.nodup, h.open_⟩
    exact (List.append_nil _).trans h.published

/-- **Every step publishes what it is to publish.** -/
theorem Orderly.step (h : Orderly cfg s events) {a : Action}
    (hstep : Lifecycle.step cfg s a = some t) : Orderly cfg t (events ++ blocks cfg s a) := by
  cases a with
  | device deviceThrows startThrows =>
    obtain rfl := Option.some.inj hstep
    cases deviceThrows with
    | true =>
      show Orderly cfg s (events ++ [])
      rwa [List.append_nil]
    | false => exact h.start startThrows
  | input i what =>
    obtain ⟨handler, hi, rfl⟩ := step_input hstep
    have hblocks : blocks cfg s (.input i what) = discovery handler.session what ++
        if (control cfg what).quits then quitting s handler else [] := by
      rw [blocks, hi]
    have hemit := h.emit handler.session what
    rw [hblocks, ← List.append_assoc]
    by_cases hquits : (control cfg what).quits = true
    · rw [if_pos hquits, if_pos hquits]
      exact hemit.triggerQuit hi
    · rw [if_neg hquits, if_neg hquits, List.append_nil]
      exact hemit

theorem Orderly.run (h : Orderly cfg s events) {actions : List Action}
    (hrun : Transition.run (Lifecycle.step cfg) s actions = some t) :
    Orderly cfg t (events ++ blocksOf cfg s actions) := by
  induction actions generalizing s events with
  | nil =>
    obtain rfl := Option.some.inj hrun
    rwa [blocksOf, List.append_nil]
  | cons a actions ih =>
    obtain ⟨u, hstep, hrest⟩ := Transition.run_cons_eq_some.mp hrun
    rw [blocksOf, hstep, ← List.append_assoc]
    exact ih (h.step hstep) hrest

/-- A session that has ended has begun before, and begins only once. -/
theorem Grammar.once (h : Grammar cfg s events) {before later : List Block} {session : Nat}
    (hsplit : events = before ++ .idle session :: later) : .idle session ∉ before := by
  intro hmem
  obtain ⟨front, middle, hbefore, hnone⟩ := h.idle before session later hsplit
  have hfront : Block.idle session ∈ front := by
    rw [hbefore] at hmem
    rcases List.mem_append.mp hmem with hmem | hmem
    · exact hmem
    · rcases List.mem_cons.mp hmem with heq | hmem
      · cases heq
      · exact absurd hmem (hnone session)
  obtain ⟨first, rest, rfl⟩ := List.append_of_mem hfront
  -- the session would have begun before either `idle`
  have hevents : events = first ++
      (.idle session :: rest ++ .connecting session :: middle ++ .idle session :: later) := by
    rw [hsplit, hbefore]
    simp only [List.append_assoc, List.cons_append]
  obtain ⟨front, between, hfirst, -⟩ := h.idle first session _ (by
    rw [hevents, List.append_assoc, List.cons_append])
  have hnodup : (events.filterMap Block.begun?).Nodup := h.connecting ▸ List.nodup_range
  rw [hevents, List.filterMap_append] at hnodup
  refine List.disjoint_of_nodup_append hnodup (a := session) ?_ ?_
  · exact List.mem_filterMap.mpr ⟨.connecting session, by simp [hfirst], rfl⟩
  · exact List.mem_filterMap.mpr ⟨.connecting session, by simp, rfl⟩

/-- **The events of every run, in their order**: one `connecting` for each session that is
made, the geometry always with `active`, and each `idle` for a session that has begun, none
of which ends twice or in the middle of another, whatever attaches, fails, is received or
times out. -/
theorem published_grammar (cfg : HandlerConfig) {actions : List Action} {s : State}
    (hrun : Transition.run (step cfg) initial actions = some s) :
    Grammar cfg s (blocksOf cfg initial actions) ∧
      ∀ before session later, blocksOf cfg initial actions = before ++ .idle session :: later →
        .idle session ∉ before := by
  have horderly : Orderly cfg s (blocksOf cfg initial actions) := (orderly_initial cfg).run hrun
  exact ⟨horderly.toGrammar, fun before session later => horderly.once⟩

/-- Two devices: the session of the second fails to start, in the middle of that of the
first, which goes on and is ended. -/
def twoDevices : List Action :=
  [.device false none, .device false (some .cryptorInit), .input 0 .serviceDiscoveryRequest,
    .input 0 .byeByeAnswered]

theorem published_grammar_two_devices :
    ∃ s, s.published = [.session .connecting, .session .connecting, .videoConfig 1280 720 30,
        .session .active, .session .idle] ∧
      Grammar { videoWidth := 1280, videoHeight := 720, videoFps := 30 } s
        [.connecting 0, .connecting 1, .discovered 0, .idle 0] := by
  have hrun : ∃ s, Transition.run (step { videoWidth := 1280, videoHeight := 720, videoFps := 30 })
      initial twoDevices = some s ∧ s.published = [.session .connecting, .session .connecting,
        .videoConfig 1280 720 30, .session .active, .session .idle] := ⟨_, rfl, rfl⟩
  obtain ⟨s, hrun, hpublished⟩ := hrun
  exact ⟨s, hpublished, (published_grammar _ hrun).1⟩

end Whutfa.Lifecycle
