import Mathlib.Data.List.Perm.Basic
import Whutfa.WebSockets

/-! # The pages that compete for the server

What the rules of `frontend/app.js` come to for one page, in every run of the two
slots: a page never has two attempts under way, and how often it can be served depends
on what its `onclose` does.  `connectVideo` tries again after a refusal, and after a
refusal only, so a page keeps its place in the race until it is served, and is served
once (`video_page`); `connectAudio` never tries again (`audio_page`).
-/
namespace Whutfa.WebSockets
variable {F : Type*}

/-! ## The pages

For each page its attempts are counted, and those of its connections that have had an answer
of some kind; a step of one page leaves the counts of the others as they are. -/

theorem countP_eraseIdx_add {α : Type*} {l : List α} {i : Nat} {x : α} (p : α → Bool)
    (h : l[i]? = some x) :
    (l.eraseIdx i).countP p + (if p x then 1 else 0) = l.countP p := by
  obtain ⟨hi, rfl⟩ := List.getElem?_eq_some_iff.mp h
  rw [← (List.getElem_cons_eraseIdx_perm hi).countP_eq p, List.countP_cons]

theorem countP_set_add {α : Type*} {l : List α} {i : Nat} {x : α} (p : α → Bool) (a : α)
    (h : l[i]? = some x) :
    (l.set i a).countP p + (if p x then 1 else 0) = l.countP p + if p a then 1 else 0 := by
  obtain ⟨hi, rfl⟩ := List.getElem?_eq_some_iff.mp h
  have hpos : (if p l[i] then 1 else 0) ≤ l.countP p := by
    split
    · next hp => exact List.countP_pos_iff.mpr ⟨l[i], List.getElem_mem hi, hp⟩
    · exact Nat.zero_le _
  rw [List.countP_set hi]
  omega

theorem map_set_of_eq {α β : Type*} {f : α → β} {l : List α} {i : Nat} {x a : α}
    (h : l[i]? = some x) (hf : f a = f x) : (l.set i a).map f = l.map f := by
  obtain ⟨hi, rfl⟩ := List.getElem?_eq_some_iff.mp h
  rw [List.map_set, hf, ← List.map_set, List.set_getElem_self]

theorem map_modify_of_eq {α β : Type*} {f : α → β} {g : α → α} {l : List α} {i : Nat}
    (hf : ∀ x, f (g x) = f x) : (l.modify i g).map f = l.map f := by
  refine List.ext_getElem? fun j => ?_
  rw [List.getElem?_map, List.getElem?_map, List.getElem?_modify, Option.map_eq_map,
    Option.map_map]
  refine congrArg (Option.map · l[j]?) (funext fun x => ?_)
  simp only [Function.comp_apply]
  split
  · exact hf x
  · rfl

/-- What the page of a connection learns. -/
def Connection.answer (ws : Connection F) : Answer := if ws.refused then .refused else .served

/-- The sockets and timers of a page, and the sockets that closed for good. -/
def attempts (s : State F) (tab : Nat) : Nat :=
  s.sockets.countP (fun k => k.tab = tab) + s.timers.count tab + s.lost.count tab

/-- The connections of a page with an answer in `among`. -/
def answered (s : State F) (among : Answer → Bool) (tab : Nat) : Nat :=
  s.connections.countP fun ws => ws.tab = tab ∧ among ws.answer

/-- The page's sockets that have had such an answer, and have not closed. -/
def waiting (s : State F) (among : Answer → Bool) (tab : Nat) : Nat :=
  s.sockets.countP fun k => k.tab = tab ∧ k.answer ≠ .pending ∧ among k.answer

/-- One attempt or one end for each page; and after an answer in `among` there is no
attempt but the one answered. -/
structure Pages (among : Answer → Bool) (s : State F) : Prop where
  attempts : ∀ tab, attempts s tab = if tab < s.opened then 1 else 0
  waiting_le : ∀ tab, waiting s among tab ≤ answered s among tab
  answered_le : ∀ tab, answered s among tab ≤ waiting s among tab + s.lost.count tab

section pages
variable {among : Answer → Bool} {retries : Nat → Bool} {s t : State F}

theorem pages_initial (among : Answer → Bool) : Pages among (initial : State F) where
  attempts _ := rfl
  waiting_le _ := Nat.le_refl _
  answered_le _ := Nat.le_refl _

theorem waiting_connect (s : State F) (among : Answer → Bool) (tab tab' : Nat) :
    waiting (connect s tab') among tab = waiting s among tab := by
  simp [waiting, connect, List.countP_append]

theorem answer_eq (s : State F) (tab : Nat) :
    ∃ ws, (handleUpgrade s tab).connections = s.connections ++ [ws] ∧ ws.tab = tab ∧
      ws.answer = answerOf s := by
  unfold handleUpgrade answerOf
  split
  · exact ⟨_, rfl, rfl, rfl⟩
  · exact ⟨_, rfl, rfl, rfl⟩

theorem answerOf_ne_pending (s : State F) : answerOf s ≠ .pending := by
  unfold answerOf
  split <;> decide

/-- Messages and the closing of connections change no page. -/
theorem Pages.of_connections (h : Pages among s) (hsockets : t.sockets = s.sockets)
    (htimers : t.timers = s.timers) (hlost : t.lost = s.lost) (hopened : t.opened = s.opened)
    (hsame : t.connections.map (fun ws => (ws.tab, ws.refused)) =
      s.connections.map fun ws => (ws.tab, ws.refused)) : Pages among t := by
  have hanswered : ∀ tab, WebSockets.answered t among tab = WebSockets.answered s among tab := by
    intro tab
    have hcount : ∀ l : List (Connection F), (l.countP fun ws => ws.tab = tab ∧ among ws.answer) =
        (l.map fun ws => (ws.tab, ws.refused)).countP fun x =>
          x.1 = tab ∧ among (if x.2 then .refused else .served) := by
      intro l
      rw [List.countP_map]
      rfl
    unfold WebSockets.answered
    rw [hcount, hcount, hsame]
  have hwaiting : ∀ tab, WebSockets.waiting t among tab = WebSockets.waiting s among tab := by
    intro tab
    unfold WebSockets.waiting
    rw [hsockets]
  constructor
  · intro tab
    have := h.attempts tab
    unfold WebSockets.attempts at this ⊢
    rw [hsockets, htimers, hlost, hopened]
    exact this
  · intro tab
    rw [hwaiting, hanswered]
    exact h.waiting_le tab
  · intro tab
    rw [hwaiting, hanswered, hlost]
    exact h.answered_le tab

theorem pages_openTab (h : Pages among s) :
    Pages among (connect { s with opened := s.opened + 1 } s.opened) where
  attempts tab := by
    have hold := h.attempts tab
    show (s.sockets ++ [_]).countP _ + s.timers.count tab + s.lost.count tab =
      if tab < s.opened + 1 then 1 else 0
    simp only [WebSockets.attempts, List.countP_append, List.countP_singleton,
      decide_eq_true_eq] at hold ⊢
    split_ifs at hold ⊢ <;> omega
  waiting_le tab := by
    rw [waiting_connect]
    exact h.waiting_le tab
  answered_le tab := by
    rw [waiting_connect]
    exact h.answered_le tab

theorem pages_timer (h : Pages among s) {i tab' : Nat} (hi : s.timers[i]? = some tab') :
    Pages among (connect { s with timers := s.timers.eraseIdx i } tab') where
  attempts tab := by
    have hold := h.attempts tab
    have hcount := countP_eraseIdx_add (· == tab) hi
    show (s.sockets ++ [_]).countP _ + (s.timers.eraseIdx i).count tab + s.lost.count tab =
      if tab < s.opened then 1 else 0
    simp only [WebSockets.attempts, List.countP_append, List.countP_singleton,
      decide_eq_true_eq, List.count, beq_iff_eq] at hold hcount ⊢
    omega
  waiting_le tab := by
    rw [waiting_connect]
    exact h.waiting_le tab
  answered_le tab := by
    rw [waiting_connect]
    exact h.answered_le tab

theorem pages_upgrade (h : Pages among s) {i : Nat} {k : BrowserSocket}
    (hk : s.sockets[i]? = some k) (hpending : k.answer = .pending) :
    Pages among { handleUpgrade s k.tab with
      sockets := s.sockets.set i { k with answer := answerOf s } } := by
  obtain ⟨ws, hconnections, htab, hanswer⟩ := answer_eq s k.tab
  have hlost : (handleUpgrade s k.tab).lost = s.lost ∧
      (handleUpgrade s k.tab).timers = s.timers ∧ (handleUpgrade s k.tab).opened = s.opened := by
    unfold handleUpgrade
    split <;> exact ⟨rfl, rfl, rfl⟩
  have hwaiting : ∀ tab, (s.sockets.set i { k with answer := answerOf s }).countP (fun k =>
      k.tab = tab ∧ k.answer ≠ .pending ∧ among k.answer) =
      WebSockets.waiting s among tab + if k.tab = tab ∧ among (answerOf s) then 1 else 0 := by
    intro tab
    have hset := countP_set_add (fun k => k.tab = tab ∧ k.answer ≠ .pending ∧ among k.answer)
      { k with answer := answerOf s } hk
    simpa [WebSockets.waiting, hpending, answerOf_ne_pending] using hset
  have hanswered : ∀ tab, (handleUpgrade s k.tab).connections.countP (fun ws =>
      ws.tab = tab ∧ among ws.answer) =
      WebSockets.answered s among tab + if k.tab = tab ∧ among (answerOf s) then 1 else 0 := by
    intro tab
    rw [hconnections, List.countP_append, List.countP_singleton]
    simp [WebSockets.answered, htab, hanswer]
  constructor
  · intro tab
    have hsum : (s.sockets.set i { k with answer := answerOf s }).countP (fun k => k.tab = tab) =
        s.sockets.countP fun k => k.tab = tab :=
      Nat.add_right_cancel (countP_set_add (fun k => k.tab = tab) _ hk)
    have hold := h.attempts tab
    show (s.sockets.set i _).countP _ + (handleUpgrade s k.tab).timers.count tab +
      (handleUpgrade s k.tab).lost.count tab = if tab < (handleUpgrade s k.tab).opened then 1 else 0
    rw [hlost.1, hlost.2.1, hlost.2.2, hsum]
    exact hold
  · intro tab
    show (s.sockets.set i _).countP _ ≤ (handleUpgrade s k.tab).connections.countP _
    rw [hwaiting, hanswered]
    exact Nat.add_le_add_right (h.waiting_le tab) _
  · intro tab
    show (handleUpgrade s k.tab).connections.countP _ ≤
      (s.sockets.set i _).countP _ + (handleUpgrade s k.tab).lost.count tab
    rw [hwaiting, hanswered, hlost.1]
    have hold := h.answered_le tab
    omega

/-- The end of a socket: a timer in its place, or a loss. -/
theorem pages_onclose (h : Pages among s) {i code : Nat} {k : BrowserSocket}
    (hfinal : ∀ answer code, among answer → Possible answer code → retries code = false)
    (hk : s.sockets[i]? = some k) (hcode : Possible k.answer code) :
    Pages among (onclose retries { s with sockets := s.sockets.eraseIdx i } k.tab code) := by
  have hattempts := fun tab => countP_eraseIdx_add (fun k => decide (k.tab = tab)) hk
  have hwaiting : ∀ tab, (s.sockets.eraseIdx i).countP (fun k =>
      k.tab = tab ∧ k.answer ≠ .pending ∧ among k.answer) +
      (if k.tab = tab ∧ k.answer ≠ .pending ∧ among k.answer then 1 else 0) =
      WebSockets.waiting s among tab := by
    intro tab
    have := countP_eraseIdx_add
      (fun k => decide (k.tab = tab ∧ k.answer ≠ .pending ∧ among k.answer)) hk
    simpa only [WebSockets.waiting, decide_eq_true_eq] using this
  unfold onclose
  split
  · next hretries =>
    -- the answer is not a final one, so the page waits for nothing
    have hnot : ¬ among k.answer := by
      intro hamong
      rw [hfinal k.answer code hamong hcode] at hretries
      cases hretries
    constructor
    · intro tab
      have hold := h.attempts tab
      have hsum := hattempts tab
      show (s.sockets.eraseIdx i).countP _ + (s.timers ++ [k.tab]).count tab + s.lost.count tab =
        if tab < s.opened then 1 else 0
      simp only [WebSockets.attempts, List.count_append, List.count_singleton, beq_iff_eq,
        decide_eq_true_eq] at hold hsum ⊢
      omega
    · intro tab
      have hsame := hwaiting tab
      have hold := h.waiting_le tab
      rw [if_neg (fun hc => hnot hc.2.2)] at hsame
      show (s.sockets.eraseIdx i).countP _ ≤ WebSockets.answered s among tab
      omega
    · intro tab
      have hsame := hwaiting tab
      have hold := h.answered_le tab
      rw [if_neg (fun hc => hnot hc.2.2)] at hsame
      show WebSockets.answered s among tab ≤ (s.sockets.eraseIdx i).countP _ + s.lost.count tab
      omega
  · constructor
    · intro tab
      have hold := h.attempts tab
      have hsum := hattempts tab
      show (s.sockets.eraseIdx i).countP _ + s.timers.count tab + (k.tab :: s.lost).count tab =
        if tab < s.opened then 1 else 0
      simp only [WebSockets.attempts, List.count_cons, beq_iff_eq, decide_eq_true_eq]
        at hold hsum ⊢
      omega
    · intro tab
      have hsame := hwaiting tab
      have hold := h.waiting_le tab
      show (s.sockets.eraseIdx i).countP _ ≤ WebSockets.answered s among tab
      omega
    · intro tab
      have hsame := hwaiting tab
      have hold := h.answered_le tab
      show WebSockets.answered s among tab ≤
        (s.sockets.eraseIdx i).countP _ + (k.tab :: s.lost).count tab
      simp only [List.count_cons, beq_iff_eq]
      split_ifs at hsame ⊢ <;> omega

theorem pages_step {a : Action F} (h : Pages among s)
    (hfinal : ∀ answer code, among answer → Possible answer code → retries code = false)
    (hstep : step retries s a = some t) : Pages among t := by
  cases a with
  | openTab =>
    obtain rfl := Option.some.inj hstep
    exact pages_openTab h
  | closeTab tab =>
    obtain rfl := step_closeTab hstep
    exact ⟨h.attempts, h.waiting_le, h.answered_le⟩
  | timer i =>
    obtain ⟨tab, hi, -, rfl⟩ := step_timer hstep
    exact pages_timer h hi
  | upgrade i =>
    obtain ⟨k, hk, hpending, rfl⟩ := step_upgrade hstep
    exact pages_upgrade h hk hpending
  | broadcast data =>
    obtain rfl := Option.some.inj hstep
    unfold broadcast
    split
    · next c hc =>
      refine h.of_connections rfl rfl rfl rfl ?_
      refine map_modify_of_eq fun ws => ?_
      unfold send
      split <;> rfl
    · exact h.of_connections rfl rfl rfl rfl rfl
  | closing c =>
    obtain ⟨ws, hws, -, rfl⟩ := step_closing hstep
    exact h.of_connections rfl rfl rfl rfl (map_set_of_eq hws rfl)
  | close c =>
    obtain ⟨ws, hws, -, rfl⟩ := step_close hstep
    exact h.of_connections rfl rfl rfl rfl (map_set_of_eq hws rfl)
  | onclose i code =>
    obtain ⟨k, hk, -, hcode, rfl⟩ := step_onclose hstep
    exact pages_onclose h hfinal hk hcode

/-- A page never has two attempts, and after a final answer none at all. -/
theorem pages (among : Answer → Bool)
    (hfinal : ∀ answer code, among answer → Possible answer code → retries code = false)
    (h : Transition.Reachable (step retries) (· = initial) s) : Pages among s :=
  h.invariant_from (pages_initial among) fun _ _ _ hs hstep => pages_step hs hfinal hstep

end pages

/-! ## Being served at last

From any state in which the page still has an attempt: whoever has the slot leaves it, and
the page's next connection is the one that gets it. -/

section served
variable {s : State F} {tab i : Nat}

/-- The page of some connection that was given the slot. -/
def Served (s : State F) (tab : Nat) : Prop :=
  ∃ ws ∈ s.connections, ws.tab = tab ∧ ws.refused = false

/-- Once the slot is free, the page that asks is served. -/
theorem served_of_free (retries : Nat → Bool) (hfree : s.activeWs = none)
    (hi : s.sockets[i]? = some ⟨tab, .pending⟩) :
    ∃ u, step retries s (.upgrade i) = some u ∧ Served u tab := by
  refine ⟨{ handleUpgrade s tab with sockets := s.sockets.set i ⟨tab, answerOf s⟩ }, ?_, ?_⟩
  · simp [step, hi]
  · refine ⟨⟨tab, .opened, false, s.broadcasts.length, []⟩, ?_, rfl, rfl⟩
    simp [handleUpgrade, hfree]

/-- When the connection that holds the slot closes, the page that asks next is served. -/
theorem served_of_pending (retries : Nat → Bool)
    (h : OneViewer s.activeWs s.connections s.broadcasts)
    (hi : s.sockets[i]? = some ⟨tab, .pending⟩) :
    ∃ as u, Transition.run (step retries) s as = some u ∧ Served u tab := by
  cases hslot : s.activeWs with
  | none =>
    obtain ⟨u, hu, hserved⟩ := served_of_free retries hslot hi
    exact ⟨[.upgrade i], u, Transition.run_cons_eq_some.mpr ⟨u, hu, rfl⟩, hserved⟩
  | some c =>
    obtain ⟨ws, hws, hnot⟩ := h.valid c hslot
    have hlive := (h.active c ws hws hnot).mp hslot
    have hclose : step retries s (.close c) = some (onClose s c ws) := by
      simp [step, hws, hlive]
    have hfree : (onClose s c ws).activeWs = none := by simp [onClose, hnot, hslot]
    obtain ⟨u, hu, hserved⟩ := served_of_free retries hfree hi
    refine ⟨[.close c, .upgrade i], u, ?_, hserved⟩
    exact Transition.run_cons_eq_some.mpr
      ⟨_, hclose, Transition.run_cons_eq_some.mpr ⟨u, hu, rfl⟩⟩

theorem served_of_timer (retries : Nat → Bool)
    (h : OneViewer s.activeWs s.connections s.broadcasts) (hgone : tab ∉ s.gone)
    (hi : s.timers[i]? = some tab) :
    ∃ as u, Transition.run (step retries) s as = some u ∧ Served u tab := by
  let s' := connect { s with timers := s.timers.eraseIdx i } tab
  have hstep : step retries s (.timer i) = some s' := by simp [step, hi, hgone, s']
  have hlast : s'.sockets[s.sockets.length]? = some ⟨tab, .pending⟩ :=
    List.getElem?_concat_length
  obtain ⟨as, u, hrun, hserved⟩ := served_of_pending retries (s := s') h hlast
  exact ⟨.timer i :: as, u, Transition.run_cons_eq_some.mpr ⟨s', hstep, hrun⟩, hserved⟩

end served

/-! ## The two kinds of pages -/

theorem videoRetries_final (answer : Answer) (code : Nat) (h : (answer == .served) = true)
    (hcode : Possible answer code) : videoRetries code = false := by
  have hanswer : answer = .served := by simpa using h
  have hne : code ≠ 4000 := by
    intro heq
    have := hcode.2 heq
    rw [hanswer] at this
    cases this
  simp [videoRetries, hcode.1, hne]

theorem waiting_le_sockets (s : State F) (among : Answer → Bool) (tab : Nat) :
    waiting s among tab ≤ s.sockets.countP fun k => k.tab = tab := by
  refine List.countP_mono_left fun k _ hk => ?_
  rw [decide_eq_true_eq] at hk ⊢
  exact hk.1

/-- The connections a page has been given in all, for an answer that is final. -/
theorem Pages.answered_le_one {among : Answer → Bool} {s : State F} (h : Pages among s)
    {tab : Nat} (htab : tab < s.opened) : answered s among tab ≤ 1 := by
  have hattempts := h.attempts tab
  have hanswered := h.answered_le tab
  have hwaiting := waiting_le_sockets s among tab
  rw [if_pos htab] at hattempts
  unfold WebSockets.attempts at hattempts
  omega

theorem served_of_answered {s : State F} {tab : Nat}
    (h : 0 < answered s (· == .served) tab) : Served s tab := by
  obtain ⟨ws, hws, hp⟩ := List.countP_pos_iff.mp h
  rw [decide_eq_true_eq] at hp
  refine ⟨ws, hws, hp.1, ?_⟩
  have hserved := eq_of_beq hp.2
  unfold Connection.answer at hserved
  split at hserved
  · cases hserved
  · next hrefused => exact Bool.eq_false_iff.mpr hrefused

/-- A page with an attempt under way gets the slot in some continuation. -/
theorem can_be_served {s : State F} {tab : Nat} (hpages : Pages (· == .served) s)
    (hone : OneViewer s.activeWs s.connections s.broadcasts) (htab : tab < s.opened)
    (hgone : tab ∉ s.gone) (hlost : tab ∉ s.lost) :
    ∃ as u, Transition.run (step videoRetries) s as = some u ∧ Served u tab := by
  have hattempts := hpages.attempts tab
  rw [if_pos htab, attempts, List.count_eq_zero.mpr hlost] at hattempts
  by_cases htimer : tab ∈ s.timers
  · obtain ⟨i, hi⟩ := List.mem_iff_getElem?.mp htimer
    exact served_of_timer videoRetries hone hgone hi
  · rw [List.count_eq_zero.mpr htimer] at hattempts
    have hpos : 0 < s.sockets.countP fun k => k.tab = tab := by omega
    obtain ⟨k, hk, hktab⟩ := List.countP_pos_iff.mp hpos
    obtain rfl := of_decide_eq_true hktab
    obtain ⟨i, hi⟩ := List.mem_iff_getElem?.mp hk
    cases hanswer : k.answer with
    | pending =>
      refine served_of_pending videoRetries (i := i) hone ?_
      rw [hi, ← hanswer]
    | served =>
      -- the connection of that socket exists already
      refine ⟨[], s, rfl, served_of_answered (Nat.lt_of_lt_of_le ?_ (hpages.waiting_le k.tab))⟩
      refine List.countP_pos_iff.mpr ⟨k, hk, ?_⟩
      rw [decide_eq_true_eq, hanswer]
      exact ⟨rfl, by decide, rfl⟩
    | refused =>
      -- it closes with 4000, and the timer is set
      let s' := { s with sockets := s.sockets.eraseIdx i, timers := s.timers ++ [k.tab] }
      have hstep : step videoRetries s (.onclose i 4000) = some s' := by
        simp [step, hi, hgone, Possible, hanswer, onclose, videoRetries, s']
      obtain ⟨as, u, hrun, hserved⟩ := served_of_timer videoRetries (s := s')
        hone hgone List.getElem?_concat_length
      exact ⟨.onclose i 4000 :: as, u, Transition.run_cons_eq_some.mpr ⟨s', hstep, hrun⟩, hserved⟩

/-- **The video of a page.**  In every run, a page that has been opened has exactly one
attempt (a socket that has not closed, or a timer for the next one), or it has lost
its only one; the slot is given to it at most once; and as long as it has not been left
and has lost nothing, however often it was refused, there is a way on in which it is
served. -/
theorem video_page {s : State F}
    (h : Transition.Reachable (step videoRetries) (· = initial) s) (tab : Nat)
    (htab : tab < s.opened) :
    attempts s tab = 1 ∧ answered s (· == .served) tab ≤ 1 ∧
      (tab ∉ s.gone → tab ∉ s.lost →
        ∃ as u, Transition.run (step videoRetries) s as = some u ∧ Served u tab) := by
  have hpages := pages (· == .served) videoRetries_final h
  refine ⟨by rw [hpages.attempts, if_pos htab], hpages.answered_le_one htab, ?_⟩
  exact can_be_served hpages (oneViewer_reachable h) htab

/-- The second page is refused, and then served; the first page has lost its connection
and stays without. -/
theorem video_page_served : ∃ s : State Nat, s.lost = [0] ∧ s.activeWs = some 2 ∧
    attempts s 0 = 1 ∧ answered s (· == .served) 0 ≤ 1 ∧
    attempts s 1 = 1 ∧ answered s (· == .served) 1 ≤ 1 := by
  let as : List (Action Nat) := [.openTab, .upgrade 0, .openTab, .upgrade 1, .onclose 1 4000,
    .closing 0, .close 0, .onclose 0 1006, .timer 0, .upgrade 0]
  refine ⟨_, rfl, rfl, (video_page ⟨initial, as, rfl, rfl⟩ 0 (by decide)).1,
    (video_page ⟨initial, as, rfl, rfl⟩ 0 (by decide)).2.1,
    (video_page ⟨initial, as, rfl, rfl⟩ 1 (by decide)).1,
    (video_page ⟨initial, as, rfl, rfl⟩ 1 (by decide)).2.1⟩

/-- Without an `onclose` no timer is ever set. -/
theorem no_timer_step {s t : State F} {a : Action F} (h : s.timers = [])
    (hstep : step audioRetries s a = some t) : t.timers = [] := by
  cases a with
  | openTab =>
    obtain rfl := Option.some.inj hstep
    exact h
  | broadcast data =>
    obtain rfl := Option.some.inj hstep
    unfold broadcast
    split <;> exact h
  | closeTab tab =>
    obtain rfl := step_closeTab hstep
    exact h
  | timer i =>
    obtain ⟨tab, hi, -⟩ := step_timer hstep
    rw [h] at hi
    cases hi
  | upgrade i =>
    obtain ⟨k, -, -, rfl⟩ := step_upgrade hstep
    show (handleUpgrade s k.tab).timers = []
    unfold handleUpgrade
    split <;> exact h
  | closing c =>
    obtain ⟨ws, -, -, rfl⟩ := step_closing hstep
    exact h
  | close c =>
    obtain ⟨ws, -, -, rfl⟩ := step_close hstep
    exact h
  | onclose i code =>
    obtain ⟨k, -, -, -, rfl⟩ := step_onclose hstep
    exact h

/-- **The audio of a page.**  In every run a page asks for its audio once: no timer is
ever set, all its connections together are at most one, and so a page that was refused
is never given the slot. -/
theorem audio_page {s : State F}
    (h : Transition.Reachable (step audioRetries) (· = initial) s) (tab : Nat)
    (htab : tab < s.opened) :
    s.timers = [] ∧ (s.connections.countP fun ws => ws.tab = tab) ≤ 1 ∧
      ((∃ ws ∈ s.connections, ws.tab = tab ∧ ws.refused = true) → ¬ Served s tab) := by
  have hcount : (s.connections.countP fun ws => ws.tab = tab) ≤ 1 := by
    have hpages := pages (fun _ => true) (fun _ _ _ _ => rfl) h
    simpa [answered] using hpages.answered_le_one htab
  refine ⟨h.invariant_from (I := fun s => s.timers = []) rfl fun _ _ _ => no_timer_step, hcount, ?_⟩
  rintro ⟨ws, hws, hwstab, hrefused⟩ ⟨ws', hws', hws'tab, hserved⟩
  rw [List.countP_eq_length_filter] at hcount
  have hmem : ws ∈ s.connections.filter fun ws => ws.tab = tab :=
    List.mem_filter.mpr ⟨hws, decide_eq_true hwstab⟩
  have hmem' : ws' ∈ s.connections.filter fun ws => ws.tab = tab :=
    List.mem_filter.mpr ⟨hws', decide_eq_true hws'tab⟩
  have hsame : ws = ws' := by
    obtain ⟨x, hx⟩ := List.length_eq_one_iff.mp
      (Nat.le_antisymm hcount (List.length_pos_of_mem hmem))
    rw [hx, List.mem_singleton] at hmem hmem'
    rw [hmem, hmem']
  rw [hsame, hserved] at hrefused
  cases hrefused

/-- The first page is gone and its slot is free, and the second still has no audio. -/
theorem audio_page_refused : ∃ s : State Nat, s.activeWs = none ∧ ¬ Served s 1 := by
  let as : List (Action Nat) := [.openTab, .upgrade 0, .openTab, .upgrade 1, .onclose 1 4000,
    .closeTab 0, .closing 0, .close 0]
  refine ⟨_, rfl, (audio_page ⟨initial, as, rfl, rfl⟩ 1 (by decide)).2.2 ?_⟩
  exact ⟨_, List.mem_cons_of_mem _ (List.mem_singleton_self _), rfl, rfl⟩

end Whutfa.WebSockets
