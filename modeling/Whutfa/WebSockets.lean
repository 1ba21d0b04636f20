import Mathlib.Data.List.Infix
import Whutfa.Transition

/-! # One page at a time

The slots `activeVideoWs` and `activeAudioWs` of `server/src/index.ts`, and the pages
(`frontend/app.js`) that compete for them.  The two slots are the same code, and
differ on the page's side: `connectVideo` sets a timer for another attempt when its
socket is closed with 4000 or 4001, `connectAudio` has no `onclose` at all.  Both are
the step relation below, with what `onclose` does with a code as its parameter.

A step is one callback of the server or of a page.  A connection closes at any
moment and is noticed on the two sides in any order; a page is opened and left at
any moment.  The codes from 4000 on are the application's own, and the only one the
server closes with is 4000, when the slot is taken.

A connection keeps how many messages had been broadcast when it was made, and what it was
sent.  What the slot guarantees can then be read off the list of all connections
(`OneViewer`), and every step keeps it; what follows for a single page is in
`WebSocketPages`.
-/
namespace Whutfa.WebSockets
variable {F : Type*}

/-- The `readyState` of a `ws` of the server, from the end of the handshake. -/
inductive ReadyState
  | opened
  | closing
  | closed
  deriving DecidableEq

/-- A `ws` of the server. -/
structure Connection (F : Type*) where
  /-- The page that asked for it. -/
  tab : Nat
  readyState : ReadyState
  /-- The slot was taken: it was closed with 4000. -/
  refused : Bool
  /-- How many messages had been broadcast when it was made. -/
  since : Nat
  /-- The messages `send` was called with. -/
  sent : List F

/-- What has become of a page's `new WebSocket`. -/
inductive Answer
  | pending
  | served
  | refused
  deriving DecidableEq

/-- A `WebSocket` of a page, until its `onclose`. -/
structure BrowserSocket where
  tab : Nat
  answer : Answer
  deriving DecidableEq

/-- The server's slot, its connections, and the pages' sockets and timers. -/
structure State (F : Type*) where
  /-- The slot: the number of a connection. -/
  activeWs : Option Nat
  connections : List (Connection F)
  /-- The messages `broadcastVideo` or `broadcastAudio` was called with. -/
  broadcasts : List F
  /-- How many pages have been opened. -/
  opened : Nat
  /-- The pages that have been left: nothing of them runs any more. -/
  gone : List Nat
  sockets : List BrowserSocket
  /-- The pages of the pending `setTimeout(connectVideo, 2000)`. -/
  timers : List Nat
  /-- The pages whose socket closed with no timer set. -/
  lost : List Nat

/-- No page has been opened. -/
def initial : State F :=
  { activeWs := none, connections := [], broadcasts := [], opened := 0, gone := [], sockets := [],
    timers := [], lost := [] }

/-- What a page, the server or the network does next. -/
inductive Action (F : Type*)
  /-- A page is opened, and makes its first socket. -/
  | openTab
  | closeTab (tab : Nat)
  /-- The `i`-th timer fires. -/
  | timer (i : Nat)
  /-- The request of the `i`-th socket has passed `checkAuth` and the handshake. -/
  | upgrade (i : Nat)
  | broadcast (data : F)
  /-- A close frame has come, or the socket under the connection has ended. -/
  | closing (c : Nat)
  /-- The server's `close` event. -/
  | close (c : Nat)
  /-- The `close` event of a page's `i`-th socket. -/
  | onclose (i : Nat) (code : Nat)

/-- The test in the `onclose` of `connectVideo`. -/
def videoRetries (code : Nat) : Bool := code == 4001 || code == 4000

/-- `connectAudio` sets no `onclose`. -/
def audioRetries (_ : Nat) : Bool := false

/-- The codes a page's socket can be closed with. -/
def Possible (answer : Answer) (code : Nat) : Prop :=
  code ≠ 4001 ∧ (code = 4000 → answer = .refused)

instance (answer : Answer) (code : Nat) : Decidable (Possible answer code) :=
  inferInstanceAs (Decidable (_ ∧ _))

/-- `new WebSocket(…)` of a page. -/
def connect (s : State F) (tab : Nat) : State F :=
  { s with sockets := s.sockets ++ [{ tab, answer := .pending }] }

/-- The callback of `handleUpgrade`, on the path of this slot. -/
def handleUpgrade (s : State F) (tab : Nat) : State F :=
  match s.activeWs with
  | some _ =>
      { s with connections := s.connections ++
          [{ tab, readyState := .closing, refused := true, since := s.broadcasts.length,
             sent := [] }] }
  | none =>
      { s with
        activeWs := some s.connections.length
        connections := s.connections ++
          [{ tab, readyState := .opened, refused := false, since := s.broadcasts.length,
             sent := [] }] }

/-- What the page that asked will learn. -/
def answerOf (s : State F) : Answer :=
  match s.activeWs with
  | some _ => .refused
  | none => .served

/-- `send`, where the connection is open. -/
def send (data : F) (ws : Connection F) : Connection F :=
  if ws.readyState = .opened then { ws with sent := ws.sent ++ [data] } else ws

/-- `broadcastVideo` and `broadcastAudio`. -/
def broadcast (s : State F) (data : F) : State F :=
  let s' := { s with broadcasts := s.broadcasts ++ [data] }
  match s.activeWs with
  | some c => { s' with connections := s.connections.modify c (send data) }
  | none => s'

/-- The server's `close` event of `ws`, the connection numbered `c`.  A refused
connection has no listener. -/
def onClose (s : State F) (c : Nat) (ws : Connection F) : State F :=
  { s with
    connections := s.connections.set c { ws with readyState := .closed }
    activeWs := if ws.refused = false ∧ s.activeWs = some c then none else s.activeWs }

/-- The page's `onclose`. -/
def onclose (retries : Nat → Bool) (s : State F) (tab code : Nat) : State F :=
  if retries code then { s with timers := s.timers ++ [tab] } else { s with lost := tab :: s.lost }

/-- One step; `retries` says for which close codes `onclose` sets a timer. -/
def step (retries : Nat → Bool) (s : State F) : Action F → Option (State F)
  | .openTab => some (connect { s with opened := s.opened + 1 } s.opened)
  | .closeTab tab => if tab < s.opened then some { s with gone := tab :: s.gone } else none
  | .timer i =>
      match s.timers[i]? with
      | some tab =>
          if tab ∈ s.gone then none else some (connect { s with timers := s.timers.eraseIdx i } tab)
      | none => none
  | .upgrade i =>
      match s.sockets[i]? with
      | some k =>
          if k.answer = .pending then
            some { handleUpgrade s k.tab with
              sockets := s.sockets.set i { k with answer := answerOf s } }
          else none
      | none => none
  | .broadcast data => some (broadcast s data)
  | .closing c =>
      match s.connections[c]? with
      | some ws =>
          if ws.readyState = .opened then
            some { s with connections := s.connections.set c { ws with readyState := .closing } }
          else none
      | none => none
  | .close c =>
      match s.connections[c]? with
      | some ws => if ws.readyState = .closed then none else some (onClose s c ws)
      | none => none
  | .onclose i code =>
      match s.sockets[i]? with
      | some k =>
          if k.tab ∉ s.gone ∧ Possible k.answer code then
            some (onclose retries { s with sockets := s.sockets.eraseIdx i } k.tab code)
          else none
      | none => none

/-! ## What a step can do -/

section steps
variable {retries : Nat → Bool} {s t : State F}

theorem step_closeTab {tab : Nat} (h : step retries s (.closeTab tab) = some t) :
    t = { s with gone := tab :: s.gone } := by
  obtain ⟨-, h⟩ := Option.ite_none_right_eq_some.mp h
  exact (Option.some.inj h).symm

theorem step_timer {i : Nat} (h : step retries s (.timer i) = some t) :
    ∃ tab, s.timers[i]? = some tab ∧ tab ∉ s.gone ∧
      t = connect { s with timers := s.timers.eraseIdx i } tab := by
  simp only [step] at h
  split at h
  · next tab htab =>
    obtain ⟨hgone, h⟩ := Option.ite_none_left_eq_some.mp h
    exact ⟨tab, htab, hgone, (Option.some.inj h).symm⟩
  · cases h

theorem step_upgrade {i : Nat} (h : step retries s (.upgrade i) = some t) :
    ∃ k, s.sockets[i]? = some k ∧ k.answer = .pending ∧
      t = { handleUpgrade s k.tab with
        sockets := s.sockets.set i { k with answer := answerOf s } } := by
  simp only [step] at h
  split at h
  · next k hk =>
    obtain ⟨hpending, h⟩ := Option.ite_none_right_eq_some.mp h
    exact ⟨k, hk, hpending, (Option.some.inj h).symm⟩
  · cases h

theorem step_closing {c : Nat} (h : step retries s (.closing c) = some t) :
    ∃ ws, s.connections[c]? = some ws ∧ ws.readyState = .opened ∧
      t = { s with connections := s.connections.set c { ws with readyState := .closing } } := by
  simp only [step] at h
  split at h
  · next ws hws =>
    obtain ⟨hopened, h⟩ := Option.ite_none_right_eq_some.mp h
    exact ⟨ws, hws, hopened, (Option.some.inj h).symm⟩
  · cases h

theorem step_close {c : Nat} (h : step retries s (.close c) = some t) :
    ∃ ws, s.connections[c]? = some ws ∧ ws.readyState ≠ .closed ∧ t = onClose s c ws := by
  simp only [step] at h
  split at h
  · next ws hws =>
    obtain ⟨hclosed, h⟩ := Option.ite_none_left_eq_some.mp h
    exact ⟨ws, hws, hclosed, (Option.some.inj h).symm⟩
  · cases h

theorem step_onclose {i code : Nat} (h : step retries s (.onclose i code) = some t) :
    ∃ k, s.sockets[i]? = some k ∧ k.tab ∉ s.gone ∧ Possible k.answer code ∧
      t = onclose retries { s with sockets := s.sockets.eraseIdx i } k.tab code := by
  simp only [step] at h
  split at h
  · next k hk =>
    obtain ⟨hc, h⟩ := Option.ite_none_right_eq_some.mp h
    exact ⟨k, hk, hc.1, hc.2, (Option.some.inj h).symm⟩
  · cases h

end steps

/-! ## The slot

It is given away when it is free only, and is free again when its connection has closed. -/

/-- What the slot guarantees.  The connections it was given to come one after the
other, each gets the messages from its start on without a gap, as long as it is open,
and a refused one gets none. -/
structure OneViewer (activeWs : Option Nat) (connections : List (Connection F))
    (broadcasts : List F) : Prop where
  valid : ∀ c, activeWs = some c → ∃ ws : Connection F, connections[c]? = some ws ∧
    ws.refused = false
  active : ∀ (c : Nat) (ws : Connection F), connections[c]? = some ws → ws.refused = false →
    (activeWs = some c ↔ ws.readyState ≠ .closed)
  refused : ∀ (c : Nat) (ws : Connection F), connections[c]? = some ws → ws.refused = true →
    ws.sent = [] ∧ ws.readyState ≠ .opened
  since_le : ∀ (c : Nat) (ws : Connection F), connections[c]? = some ws →
    ws.since ≤ broadcasts.length
  sent : ∀ (c : Nat) (ws : Connection F), connections[c]? = some ws →
    ws.sent <+: broadcasts.drop ws.since
  opened : ∀ (c : Nat) (ws : Connection F), connections[c]? = some ws →
    ws.readyState = .opened → ws.sent = broadcasts.drop ws.since
  earlier : ∀ (c d : Nat) (ws ws' : Connection F), c < d → connections[c]? = some ws →
    connections[d]? = some ws' → ws.refused = false → ws'.refused = false →
    ws.readyState = .closed ∧ ws.since + ws.sent.length ≤ ws'.since

theorem getElem?_concat_eq_some {α : Type*} {l : List α} {a b : α} {i : Nat} :
    (l ++ [a])[i]? = some b ↔ l[i]? = some b ∨ i = l.length ∧ b = a := by
  rw [List.getElem?_append]
  split
  · next hi =>
    constructor
    · exact Or.inl
    · rintro (h | ⟨rfl, -⟩)
      · exact h
      · omega
  · next hi =>
    rw [List.getElem?_eq_none (by omega : l.length ≤ i), List.getElem?_singleton]
    constructor
    · intro h
      obtain ⟨hzero, h⟩ := Option.ite_none_right_eq_some.mp h
      exact Or.inr ⟨by omega, (Option.some.inj h).symm⟩
    · rintro (h | ⟨rfl, rfl⟩)
      · cases h
      · simp

theorem getElem?_set_eq_some {α : Type*} {l : List α} {a b old : α} {i j : Nat}
    (hold : l[i]? = some old) :
    (l.set i a)[j]? = some b ↔ j ≠ i ∧ l[j]? = some b ∨ j = i ∧ b = a := by
  obtain ⟨hi, -⟩ := List.getElem?_eq_some_iff.mp hold
  rw [List.getElem?_set]
  split
  · next hij =>
    subst hij
    rw [Option.some_inj]
    constructor
    · exact fun h => Or.inr ⟨rfl, h.symm⟩
    · rintro (⟨hne, -⟩ | ⟨-, rfl⟩)
      · exact absurd rfl hne
      · rfl
  · next hij =>
    constructor
    · exact fun h => Or.inl ⟨fun heq => hij heq.symm, h⟩
    · rintro (⟨-, h⟩ | ⟨rfl, -⟩)
      · exact h
      · exact absurd rfl hij

namespace OneViewer
variable {activeWs : Option Nat} {connections : List (Connection F)} {broadcasts : List F}
variable {c : Nat} {ws : Connection F}

theorem initial : OneViewer none ([] : List (Connection F)) [] where
  valid c h := by cases h
  active c ws h := by cases h
  refused c ws h := by cases h
  since_le c ws h := by cases h
  sent c ws h := by cases h
  opened c ws h := by cases h
  earlier c d ws ws' _ h := by cases h

/-- A connection that is open holds the slot. -/
theorem active_of_opened (h : OneViewer activeWs connections broadcasts)
    (hws : connections[c]? = some ws) (hopened : ws.readyState = .opened) :
    ws.refused = false ∧ activeWs = some c := by
  have hserved : ws.refused = false := by
    refine Bool.eq_false_iff.mpr fun hrefused => ?_
    exact (h.refused c ws hws hrefused).2 hopened
  refine ⟨hserved, (h.active c ws hws hserved).mpr fun hclosed => ?_⟩
  rw [hopened] at hclosed
  cases hclosed

/-- What a connection has been sent ends within what was broadcast. -/
theorem end_le (h : OneViewer activeWs connections broadcasts)
    (hws : connections[c]? = some ws) : ws.since + ws.sent.length ≤ broadcasts.length := by
  have hlen := (h.sent c ws hws).length_le
  have hsince := h.since_le c ws hws
  rw [List.length_drop] at hlen
  omega

/-- A new connection, where the slot is taken. -/
theorem refuse (h : OneViewer activeWs connections broadcasts) (hrefused : ws.refused = true)
    (hstate : ws.readyState = .closing) (hsince : ws.since = broadcasts.length)
    (hsent : ws.sent = []) : OneViewer activeWs (connections ++ [ws]) broadcasts where
  valid c hc := by
    obtain ⟨ws', hws', hserved⟩ := h.valid c hc
    exact ⟨ws', getElem?_concat_eq_some.mpr (Or.inl hws'), hserved⟩
  active d ws' hd hserved := by
    rcases getElem?_concat_eq_some.mp hd with hold | ⟨rfl, rfl⟩
    · exact h.active d ws' hold hserved
    · rw [hrefused] at hserved
      cases hserved
  refused d ws' hd hr := by
    rcases getElem?_concat_eq_some.mp hd with hold | ⟨rfl, rfl⟩
    · exact h.refused d ws' hold hr
    · exact ⟨hsent, by rw [hstate]; decide⟩
  since_le d ws' hd := by
    rcases getElem?_concat_eq_some.mp hd with hold | ⟨rfl, rfl⟩
    · exact h.since_le d ws' hold
    · exact Nat.le_of_eq hsince
  sent d ws' hd := by
    rcases getElem?_concat_eq_some.mp hd with hold | ⟨rfl, rfl⟩
    · exact h.sent d ws' hold
    · rw [hsent]
      exact List.nil_prefix
  opened d ws' hd hopened := by
    rcases getElem?_concat_eq_some.mp hd with hold | ⟨rfl, rfl⟩
    · exact h.opened d ws' hold hopened
    · rw [hstate] at hopened
      cases hopened
  earlier d e ws₁ ws₂ hlt h₁ h₂ hs₁ hs₂ := by
    rcases getElem?_concat_eq_some.mp h₁ with hold₁ | ⟨rfl, rfl⟩
    · rcases getElem?_concat_eq_some.mp h₂ with hold₂ | ⟨rfl, rfl⟩
      · exact h.earlier d e ws₁ ws₂ hlt hold₁ hold₂ hs₁ hs₂
      · rw [hrefused] at hs₂
        cases hs₂
    · rw [hrefused] at hs₁
      cases hs₁

/-- A new connection, where the slot is free. -/
theorem serve (h : OneViewer none connections broadcasts) (hserved : ws.refused = false)
    (hstate : ws.readyState = .opened) (hsince : ws.since = broadcasts.length)
    (hsent : ws.sent = []) :
    OneViewer (some connections.length) (connections ++ [ws]) broadcasts where
  valid c hc := by
    obtain rfl := Option.some.inj hc
    exact ⟨ws, getElem?_concat_eq_some.mpr (Or.inr ⟨rfl, rfl⟩), hserved⟩
  active d ws' hd hs := by
    rcases getElem?_concat_eq_some.mp hd with hold | ⟨rfl, rfl⟩
    · -- the slot was free, so an older connection has closed
      have hclosed : ¬ ws'.readyState ≠ .closed := fun hne =>
        Option.some_ne_none d ((h.active d ws' hold hs).mpr hne).symm
      have hlt := (List.getElem?_eq_some_iff.mp hold).1
      refine ⟨fun heq => ?_, fun hne => absurd hne hclosed⟩
      have := Option.some.inj heq
      omega
    · refine ⟨fun _ => ?_, fun _ => rfl⟩
      rw [hstate]
      decide
  refused d ws' hd hr := by
    rcases getElem?_concat_eq_some.mp hd with hold | ⟨rfl, rfl⟩
    · exact h.refused d ws' hold hr
    · rw [hserved] at hr
      cases hr
  since_le d ws' hd := by
    rcases getElem?_concat_eq_some.mp hd with hold | ⟨rfl, rfl⟩
    · exact h.since_le d ws' hold
    · exact Nat.le_of_eq hsince
  sent d ws' hd := by
    rcases getElem?_concat_eq_some.mp hd with hold | ⟨rfl, rfl⟩
    · exact h.sent d ws' hold
    · rw [hsent]
      exact List.nil_prefix
  opened d ws' hd hopened := by
    rcases getElem?_concat_eq_some.mp hd with hold | ⟨rfl, rfl⟩
    · exact h.opened d ws' hold hopened
    · rw [hsent, hsince, List.drop_length]
  earlier d e ws₁ ws₂ hlt h₁ h₂ hs₁ hs₂ := by
    rcases getElem?_concat_eq_some.mp h₁ with hold₁ | ⟨rfl, rfl⟩
    · rcases getElem?_concat_eq_some.mp h₂ with hold₂ | ⟨rfl, rfl⟩
      · exact h.earlier d e ws₁ ws₂ hlt hold₁ hold₂ hs₁ hs₂
      · refine ⟨?_, by rw [hsince]; exact h.end_le hold₁⟩
        refine Classical.byContradiction fun hne => ?_
        exact Option.some_ne_none d ((h.active d ws₁ hold₁ hs₁).mpr hne).symm
    · obtain ⟨he, -⟩ := List.getElem?_eq_some_iff.mp h₂
      rw [List.length_append, List.length_singleton] at he
      omega

/-- A connection that has not closed goes on to `ws'`, while nobody else is open. -/
theorem replace (h : OneViewer activeWs connections broadcasts) {slot : Option Nat}
    {messages : List F} {ws' : Connection F} (hws : connections[c]? = some ws)
    (hlive : ws.readyState ≠ .closed) (hsince : ws'.since = ws.since)
    (hrefused : ws'.refused = ws.refused)
    (hmessages : messages = broadcasts ∨ activeWs = some c ∧ broadcasts <+: messages)
    (hsent : ws'.sent <+: messages.drop ws.since)
    (hopened : ws'.readyState = .opened → ws'.sent = messages.drop ws.since)
    (hnone : ws.refused = true → ws'.sent = [] ∧ ws'.readyState ≠ .opened)
    (hslot : ∀ d, slot = some d ↔ activeWs = some d ∧ (d = c → ws'.readyState ≠ .closed)) :
    OneViewer slot (connections.set c ws') messages := by
  have hpre : broadcasts <+: messages := by
    rcases hmessages with rfl | ⟨-, hpre⟩
    · exact List.prefix_refl _
    · exact hpre
  constructor
  case valid =>
    intro d hd
    obtain ⟨hactive, -⟩ := (hslot d).mp hd
    obtain ⟨old, hold, hserved⟩ := h.valid d hactive
    by_cases hdc : d = c
    · subst hdc
      rw [hws] at hold
      obtain rfl := Option.some.inj hold
      exact ⟨ws', (getElem?_set_eq_some hws).mpr (Or.inr ⟨rfl, rfl⟩), hrefused.trans hserved⟩
    · exact ⟨old, (getElem?_set_eq_some hws).mpr (Or.inl ⟨hdc, hold⟩), hserved⟩
  case active =>
    intro d x hd hserved
    rw [hslot]
    rcases (getElem?_set_eq_some hws).mp hd with ⟨hdc, hold⟩ | ⟨rfl, rfl⟩
    · rw [h.active d x hold hserved]
      exact ⟨fun hx => hx.1, fun hx => ⟨hx, fun hcd => absurd hcd hdc⟩⟩
    · rw [h.active d ws hws (hrefused ▸ hserved)]
      exact ⟨fun hx => hx.2 rfl, fun hx => ⟨hlive, fun _ => hx⟩⟩
  case refused =>
    intro d x hd hr
    rcases (getElem?_set_eq_some hws).mp hd with ⟨-, hold⟩ | ⟨rfl, rfl⟩
    · exact h.refused d x hold hr
    · exact hnone (hrefused ▸ hr)
  case since_le =>
    intro d x hd
    refine Nat.le_trans ?_ hpre.length_le
    rcases (getElem?_set_eq_some hws).mp hd with ⟨-, hold⟩ | ⟨rfl, rfl⟩
    · exact h.since_le d x hold
    · rw [hsince]
      exact h.since_le d ws hws
  case sent =>
    intro d x hd
    rcases (getElem?_set_eq_some hws).mp hd with ⟨-, hold⟩ | ⟨rfl, rfl⟩
    · exact (h.sent d x hold).trans (hpre.drop x.since)
    · rw [hsince]
      exact hsent
  case opened =>
    intro d x hd ho
    rcases (getElem?_set_eq_some hws).mp hd with ⟨hdc, hold⟩ | ⟨rfl, rfl⟩
    · rcases hmessages with rfl | ⟨hactive, -⟩
      · exact h.opened d x hold ho
      · -- the open connection is the active one
        have hd := (h.active_of_opened hold ho).2
        rw [hactive] at hd
        exact absurd (Option.some.inj hd).symm hdc
    · rw [hsince]
      exact hopened ho
  case earlier =>
    intro d e x y hlt hx hy hsx hsy
    rcases (getElem?_set_eq_some hws).mp hx with ⟨-, holdx⟩ | ⟨rfl, rfl⟩
    · rcases (getElem?_set_eq_some hws).mp hy with ⟨-, holdy⟩ | ⟨rfl, rfl⟩
      · exact h.earlier d e x y hlt holdx holdy hsx hsy
      · rw [hsince]
        exact h.earlier d e x ws hlt holdx hws hsx (hrefused ▸ hsy)
    · rcases (getElem?_set_eq_some hws).mp hy with ⟨-, holdy⟩ | ⟨rfl, rfl⟩
      · exact absurd (h.earlier d e ws y hlt hws holdy (hrefused ▸ hsx) hsy).1 hlive
      · omega

/-- A message while no connection is open. -/
theorem unsent (h : OneViewer activeWs connections broadcasts) (data : F)
    (hno : ∀ (d : Nat) (x : Connection F), connections[d]? = some x → x.readyState ≠ .opened) :
    OneViewer activeWs connections (broadcasts ++ [data]) where
  valid := h.valid
  active := h.active
  refused := h.refused
  since_le d x hd := by
    rw [List.length_append]
    exact Nat.le_trans (h.since_le d x hd) (Nat.le_add_right _ _)
  sent d x hd := (h.sent d x hd).trans ((List.prefix_append _ _).drop x.since)
  opened d x hd ho := absurd ho (hno d x hd)
  earlier := h.earlier

/-- The active connection is sent the message, if it is open. -/
theorem send (h : OneViewer (some c) connections broadcasts) (data : F) :
    OneViewer (some c) (connections.modify c (send data)) (broadcasts ++ [data]) := by
  obtain ⟨ws, hws, hserved⟩ := h.valid c rfl
  have hset : connections.modify c (WebSockets.send data) =
      connections.set c (WebSockets.send data ws) := by
    rw [List.modify_eq_set_getElem?, hws]
    rfl
  rw [hset]
  by_cases hopened : ws.readyState = .opened
  · have hsend : WebSockets.send data ws = { ws with sent := ws.sent ++ [data] } := if_pos hopened
    have hall : ws.sent ++ [data] = (broadcasts ++ [data]).drop ws.since := by
      rw [h.opened c ws hws hopened, List.drop_append_of_le_length (h.since_le c ws hws)]
    rw [hsend]
    refine h.replace hws ?_ rfl rfl (Or.inr ⟨rfl, List.prefix_append _ _⟩) ?_ ?_ ?_ ?_
    · rw [hopened]
      decide
    · exact hall ▸ List.prefix_refl _
    · exact fun _ => hall
    · intro hr
      rw [hserved] at hr
      cases hr
    · intro d
      refine ⟨fun hd => ⟨hd, fun _ => ?_⟩, fun hd => hd.1⟩
      show ws.readyState ≠ .closed
      rw [hopened]
      decide
  · have hsend : WebSockets.send data ws = ws := if_neg hopened
    have hsame : connections.set c ws = connections := by
      obtain ⟨hc, rfl⟩ := List.getElem?_eq_some_iff.mp hws
      exact List.set_getElem_self hc
    rw [hsend, hsame]
    refine h.unsent data fun d x hd ho => ?_
    obtain rfl := Option.some.inj (h.active_of_opened hd ho).2
    rw [hws] at hd
    obtain rfl := Option.some.inj hd
    exact hopened ho

/-- The connection starts to close. -/
theorem closing (h : OneViewer activeWs connections broadcasts)
    (hws : connections[c]? = some ws) (hopened : ws.readyState = .opened) :
    OneViewer activeWs (connections.set c { ws with readyState := .closing }) broadcasts := by
  refine h.replace hws ?_ rfl rfl (Or.inl rfl) (h.sent c ws hws) ?_ ?_ ?_
  · rw [hopened]
    decide
  · intro ho
    cases ho
  · exact fun hr => absurd hopened (h.refused c ws hws hr).2
  · exact fun d => ⟨fun hd => ⟨hd, fun _ hclosed => by cases hclosed⟩, fun hd => hd.1⟩

/-- The connection closes, and frees the slot if it holds it. -/
theorem close (h : OneViewer activeWs connections broadcasts)
    (hws : connections[c]? = some ws) (hlive : ws.readyState ≠ .closed) :
    OneViewer (if ws.refused = false ∧ activeWs = some c then none else activeWs)
      (connections.set c { ws with readyState := .closed }) broadcasts := by
  refine h.replace hws hlive rfl rfl (Or.inl rfl) (h.sent c ws hws) ?_ ?_ ?_
  · intro ho
    cases ho
  · exact fun hr => ⟨(h.refused c ws hws hr).1, fun ho => by cases ho⟩
  · intro d
    split
    · next hfree =>
      constructor
      · intro hd
        cases hd
      · rintro ⟨hd, hne⟩
        rw [hfree.2] at hd
        exact absurd rfl (hne (Option.some.inj hd).symm)
    · next hkeep =>
      refine ⟨fun hd => ⟨hd, ?_⟩, fun hd => hd.1⟩
      rintro rfl
      obtain ⟨old, hold, hserved⟩ := h.valid d hd
      rw [hws] at hold
      obtain rfl := Option.some.inj hold
      exact absurd ⟨hserved, hd⟩ hkeep

end OneViewer

/-- Every step keeps what the slot guarantees. -/
theorem oneViewer_step {retries : Nat → Bool} {s t : State F} {a : Action F}
    (h : OneViewer s.activeWs s.connections s.broadcasts) (hstep : step retries s a = some t) :
    OneViewer t.activeWs t.connections t.broadcasts := by
  cases a with
  | openTab =>
    obtain rfl := Option.some.inj hstep
    exact h
  | closeTab tab =>
    obtain rfl := step_closeTab hstep
    exact h
  | timer i =>
    obtain ⟨tab, -, -, rfl⟩ := step_timer hstep
    exact h
  | upgrade i =>
    obtain ⟨k, -, -, rfl⟩ := step_upgrade hstep
    show OneViewer (handleUpgrade s k.tab).activeWs (handleUpgrade s k.tab).connections
      (handleUpgrade s k.tab).broadcasts
    unfold handleUpgrade
    split
    · exact h.refuse rfl rfl rfl rfl
    · next hfree =>
      rw [hfree] at h
      exact h.serve rfl rfl rfl rfl
  | broadcast data =>
    obtain rfl := Option.some.inj hstep
    show OneViewer (broadcast s data).activeWs (broadcast s data).connections
      (broadcast s data).broadcasts
    unfold broadcast
    split
    · next c hc =>
      rw [hc] at h
      show OneViewer s.activeWs _ _
      rw [hc]
      exact h.send data
    · next hfree =>
      refine h.unsent data fun d x hd ho => ?_
      rw [hfree] at h
      cases (h.active_of_opened hd ho).2
  | closing c =>
    obtain ⟨ws, hws, hopened, rfl⟩ := step_closing hstep
    exact h.closing hws hopened
  | close c =>
    obtain ⟨ws, hws, hlive, rfl⟩ := step_close hstep
    exact h.close hws hlive
  | onclose i code =>
    obtain ⟨k, -, -, -, rfl⟩ := step_onclose hstep
    show OneViewer (onclose retries _ k.tab code).activeWs _ _
    unfold onclose
    split <;> exact h

theorem oneViewer_reachable {retries : Nat → Bool} {s : State F}
    (h : Transition.Reachable (step retries) (· = initial) s) :
    OneViewer s.activeWs s.connections s.broadcasts :=
  Transition.Reachable.invariant_from
    (I := fun s => OneViewer s.activeWs s.connections s.broadcasts)
    OneViewer.initial (fun _ _ _ hs hstep => oneViewer_step hs hstep) h

/-- **One viewer at a time.**  In every run, whatever pages come, go and try again and
however their connections end: the connections that were given the slot come one
after the other, each has been sent a contiguous part of the messages broadcast, no
part overlaps another and they are in order, the one that is open has missed nothing
since its start, and a connection that was refused has been sent nothing. -/
theorem one_viewer (retries : Nat → Bool) {s : State F}
    (h : Transition.Reachable (step retries) (· = initial) s) :
    OneViewer s.activeWs s.connections s.broadcasts :=
  oneViewer_reachable h

/-- A second page is refused while the first is open; when the first has closed it is
served, and gets what is broadcast from then on. -/
theorem second_page_served : ∃ s : State Nat, s.activeWs = some 2 ∧
    s.connections.map (fun ws => (ws.tab, ws.refused, ws.sent)) =
      [(0, false, [10, 20]), (1, true, []), (1, false, [40])] ∧
    OneViewer s.activeWs s.connections s.broadcasts :=
  ⟨_, rfl, rfl, one_viewer videoRetries
    ⟨initial, [.openTab, .upgrade 0, .broadcast 10, .openTab, .upgrade 1, .broadcast 20,
      .onclose 1 4000, .closing 0, .broadcast 30, .close 0, .timer 0, .upgrade 1,
      .broadcast 40], rfl, rfl⟩⟩

end Whutfa.WebSockets
