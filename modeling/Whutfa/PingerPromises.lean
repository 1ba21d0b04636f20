import Mathlib.Data.List.Nodup
import Whutfa.Keepalive

/-! # The promises of a pinger

A `Pinger` (`aa-handler/src/aa/Session.cpp`) by itself, with pings, pongs, cancellations
and expiries in any order and from any caller: which promises it settles, and how often.
The keepalive loop asks for one ping at a time (`Keepalive`); here a ping may overlap
another.  The pinger then rejects `promise_`, the one it holds, where the promise to be
refused is the one it has just been given, which it drops (`settledOnce_iff_alone`).
-/
namespace Whutfa.Keepalive

open Lifecycle (ErrorCode)

/-- What happens to the pinger. -/
inductive Operation
  | ping
  | pong
  | cancel
  /-- The wait ends; with `operation_aborted` only if it has been cancelled. -/
  | timer (aborted : Bool)
  deriving DecidableEq

/-- A ping that finds another in progress: its promise, and the one the pinger holds. -/
structure Overlap where
  refused : Nat
  held : Nat
  deriving DecidableEq

/-- A pinger and what has been done with the promises. -/
structure Ledger where
  state : State
  /-- The calls of `resolve` and `reject`, in order. -/
  calls : List (Nat × Outcome)
  overlaps : List Overlap
  deriving DecidableEq

/-- Nothing has happened yet. -/
def Ledger.empty : Ledger := { state := initial, calls := [], overlaps := [] }

/-- One operation, run with nothing settled before, so that it settles exactly what it
calls `resolve` or `reject` on. -/
def perform (noCode : ErrorCode) (s : State) : Operation → Option State
  | .ping => some (ping { s with made := s.made + 1, settled := [] } s.made)
  | .pong => some (pong { s with settled := [] })
  | .cancel => some (cancel { s with settled := [] })
  | .timer aborted => step noCode { s with settled := [] } (.timer aborted)

/-- The overlap that an operation is. -/
def overlap? (s : State) : Operation → Option Overlap
  | .ping => s.pinger.promise.map fun held => { refused := s.made, held }
  | _ => none

/-- One operation, and what it adds to the books. -/
def Ledger.step (noCode : ErrorCode) (l : Ledger) (op : Operation) : Option Ledger :=
  (perform noCode l.state op).map fun t =>
    { state := t
      calls := l.calls ++ t.settled
      overlaps := l.overlaps ++ (overlap? l.state op).toList }

/-- The promises that have been resolved or rejected, as often as they have. -/
def Ledger.called (l : Ledger) : List Nat := l.calls.map Prod.fst

/-- Each promise is settled once, and a ping that overlaps another at its own expense. -/
structure SettledOnce (l : Ledger) : Prop where
  atMostOnce : l.called.Nodup
  exactlyOnce : l.state.pinger.timer = .idle → ∀ p, p < l.state.made → p ∈ l.called
  refused : ∀ o ∈ l.overlaps, (o.refused, .rejected .operationInProgress) ∈ l.calls
  kept : ∀ o ∈ l.overlaps, (o.held, .rejected .operationInProgress) ∉ l.calls
  inProgress : ∀ p, l.state.pinger.promise = some p → p ∉ l.called

/-- A ping is made only when no other is in progress. -/
def Alone (l : Ledger) (op : Operation) : Prop := op = .ping → l.state.pinger.promise = none

/-! ## What an operation does -/

theorem Ledger.step_eq_some {noCode : ErrorCode} {l m : Ledger} {op : Operation} :
    l.step noCode op = some m ↔ ∃ t, perform noCode l.state op = some t ∧
      { state := t, calls := l.calls ++ t.settled,
        overlaps := l.overlaps ++ (overlap? l.state op).toList } = m :=
  Option.map_eq_some_iff

/-- An overlapping ping rejects the promise that is held. -/
theorem settled_ping_of_held {s : State} {held : Nat} (hpromise : s.pinger.promise = some held)
    (hsettled : s.settled = []) (p : Nat) :
    (ping s p).settled = [(held, .rejected .operationInProgress)] := by
  simp [ping, settle, hpromise, hsettled]

/-- The outcome of a wait that ends. -/
theorem timer_cases {noCode : ErrorCode} {s t : State} {aborted : Bool} {p : Nat}
    (hpromise : s.pinger.promise = some p) (hsettled : s.settled = [])
    (hstep : step noCode s (.timer aborted) = some t) :
    (∃ o, t.settled = [(p, o)]) ∧ t.made = s.made ∧ t.pinger.promise = none ∧
      t.pinger.timer = .idle := by
  obtain ⟨-, htimer⟩ := Option.ite_none_left_eq_some.mp hstep
  obtain rfl := Option.some.inj htimer
  cases aborted <;> simp [onTimerExceeded, settle, hpromise, hsettled]

/-! ## Pings that do not overlap -/

/-- With one ping at a time, every promise but the held one has been settled, once. -/
structure Ledger.OneAtATime (l : Ledger) : Prop where
  nodup : l.called.Nodup
  called_lt : ∀ p ∈ l.called, p < l.state.made
  called_or_held : ∀ p, p < l.state.made → p ∈ l.called ∨ l.state.pinger.promise = some p
  held : ∀ p, l.state.pinger.promise = some p → p < l.state.made ∧ p ∉ l.called
  timer : l.state.pinger.timer = .idle ↔ l.state.pinger.promise = none
  overlaps : l.overlaps = []

namespace Ledger.OneAtATime

theorem empty : OneAtATime .empty where
  nodup := List.nodup_nil
  called_lt := nofun
  called_or_held := fun p hp => absurd hp (Nat.not_lt_zero p)
  held := nofun
  timer := ⟨fun _ => rfl, fun _ => rfl⟩
  overlaps := rfl

theorem settledOnce {l : Ledger} (h : l.OneAtATime) : SettledOnce l where
  atMostOnce := h.nodup
  exactlyOnce := fun hidle p hp => by
    refine (h.called_or_held p hp).resolve_right ?_
    rw [h.timer.mp hidle]
    nofun
  refused := by
    rw [h.overlaps]
    nofun
  kept := by
    rw [h.overlaps]
    nofun
  inProgress := fun p hp => (h.held p hp).2

/-- An operation that settles nothing, and leaves the promise and the timer's idleness. -/
theorem unchanged {l m : Ledger} (h : l.OneAtATime) (hmade : m.state.made = l.state.made)
    (hpromise : m.state.pinger.promise = l.state.pinger.promise)
    (htimer : m.state.pinger.timer = .idle ↔ l.state.pinger.timer = .idle)
    (hcalls : m.calls = l.calls) (hoverlaps : m.overlaps = l.overlaps) : m.OneAtATime := by
  have hcalled : m.called = l.called := congrArg (List.map Prod.fst) hcalls
  constructor
  · rw [hcalled]
    exact h.nodup
  · rw [hcalled, hmade]
    exact h.called_lt
  · rw [hcalled, hmade, hpromise]
    exact h.called_or_held
  · rw [hcalled, hmade, hpromise]
    exact h.held
  · rw [htimer, hpromise]
    exact h.timer
  · rw [hoverlaps]
    exact h.overlaps

/-- A ping that is alone is held, and its wait begins. -/
theorem ping {l m : Ledger} (h : l.OneAtATime) (hnone : l.state.pinger.promise = none)
    (hmade : m.state.made = l.state.made + 1)
    (hpromise : m.state.pinger.promise = some l.state.made)
    (htimer : m.state.pinger.timer = .waiting)
    (hcalls : m.calls = l.calls) (hoverlaps : m.overlaps = l.overlaps) : m.OneAtATime := by
  have hcalled : m.called = l.called := congrArg (List.map Prod.fst) hcalls
  constructor
  · rw [hcalled]
    exact h.nodup
  · rw [hcalled, hmade]
    exact fun p hp => Nat.lt_succ_of_lt (h.called_lt p hp)
  · rw [hcalled, hmade, hpromise]
    intro p hp
    by_cases hnew : p = l.state.made
    · exact Or.inr (congrArg some hnew.symm)
    · refine Or.inl ((h.called_or_held p (by omega)).resolve_right ?_)
      rw [hnone]
      nofun
  · rw [hcalled, hmade, hpromise]
    rintro p hp
    obtain rfl := Option.some.inj hp
    exact ⟨Nat.lt_succ_self _, fun hmem => Nat.lt_irrefl _ (h.called_lt _ hmem)⟩
  · rw [htimer, hpromise]
    exact ⟨nofun, nofun⟩
  · rw [hoverlaps]
    exact h.overlaps

/-- The wait ends and its promise is settled. -/
theorem expire {l m : Ledger} {p : Nat} {o : Outcome} (h : l.OneAtATime)
    (hheld : l.state.pinger.promise = some p) (hmade : m.state.made = l.state.made)
    (hpromise : m.state.pinger.promise = none) (htimer : m.state.pinger.timer = .idle)
    (hcalls : m.calls = l.calls ++ [(p, o)]) (hoverlaps : m.overlaps = l.overlaps) :
    m.OneAtATime := by
  have hcalled : m.called = l.called ++ [p] := by
    rw [Ledger.called, hcalls, List.map_append]
    rfl
  obtain ⟨hlt, hfresh⟩ := h.held p hheld
  constructor
  · rw [hcalled, ← List.concat_eq_append]
    exact h.nodup.concat hfresh
  · rw [hcalled, hmade]
    intro q hq
    rcases List.mem_append.mp hq with hq | hq
    · exact h.called_lt q hq
    · rwa [List.mem_singleton.mp hq]
  · rw [hcalled, hmade]
    intro q hq
    refine Or.inl (List.mem_append.mpr ?_)
    rcases h.called_or_held q hq with hcalled | hsame
    · exact Or.inl hcalled
    · rw [hheld] at hsame
      exact Or.inr (List.mem_singleton.mpr (Option.some.inj hsame).symm)
  · rw [hpromise]
    nofun
  · rw [htimer, hpromise]
    exact ⟨fun _ => rfl, fun _ => rfl⟩
  · rw [hoverlaps]
    exact h.overlaps

theorem step {noCode : ErrorCode} {l m : Ledger} {op : Operation} (h : l.OneAtATime)
    (halone : Alone l op) (hstep : l.step noCode op = some m) : m.OneAtATime := by
  obtain ⟨t, hperform, rfl⟩ := Ledger.step_eq_some.mp hstep
  cases op with
  | ping =>
    have hnone := halone rfl
    obtain rfl := Option.some.inj hperform
    refine h.ping hnone ?_ ?_ ?_ ?_ ?_ <;> simp [Keepalive.ping, overlap?, hnone]
  | pong =>
    obtain rfl := Option.some.inj hperform
    exact h.unchanged rfl rfl Iff.rfl (List.append_nil _) (List.append_nil _)
  | cancel =>
    obtain rfl := Option.some.inj hperform
    refine h.unchanged rfl rfl ?_ (List.append_nil _) (List.append_nil _)
    show (if l.state.pinger.timer = .waiting then Timer.cancelled else l.state.pinger.timer) =
      .idle ↔ l.state.pinger.timer = .idle
    cases l.state.pinger.timer <;> simp
  | timer aborted =>
    obtain ⟨hguard, -⟩ := Option.ite_none_left_eq_some.mp hperform
    -- a wait is outstanding only while a promise is held
    cases hheld : l.state.pinger.promise with
    | none => exact absurd (Or.inl (h.timer.mpr hheld)) hguard
    | some p =>
      obtain ⟨⟨o, hsettled⟩, hmade, hpromise, htimer⟩ :=
        timer_cases (s := { l.state with settled := [] }) hheld rfl hperform
      exact h.expire hheld hmade hpromise htimer (congrArg (l.calls ++ ·) hsettled)
        (List.append_nil _)

end Ledger.OneAtATime

/-! ## An overlapping ping -/

/-- Its promise is given to nobody: neither settled nor held. -/
theorem not_settledOnce_of_overlap {noCode : ErrorCode} {l m : Ledger} {op : Operation}
    (h : l.OneAtATime) (hoverlap : ¬ Alone l op) (hstep : l.step noCode op = some m) :
    ¬ SettledOnce m := by
  unfold Alone at hoverlap
  push Not at hoverlap
  obtain ⟨rfl, hsome⟩ := hoverlap
  obtain ⟨held, hheld⟩ := Option.ne_none_iff_exists'.mp hsome
  obtain ⟨t, hperform, rfl⟩ := Ledger.step_eq_some.mp hstep
  obtain rfl := Option.some.inj hperform
  have hsettled := settled_ping_of_held
    (s := { l.state with made := l.state.made + 1, settled := [] }) hheld rfl l.state.made
  intro honce
  have hrefused : (l.state.made, .rejected .operationInProgress) ∈
      l.calls ++ [(held, Outcome.rejected .operationInProgress)] := by
    have := honce.refused { refused := l.state.made, held } (by simp [overlap?, hheld])
    simpa [hsettled] using this
  rcases List.mem_append.mp hrefused with hbefore | hnow
  · exact Nat.lt_irrefl _ (h.called_lt _ (List.mem_map_of_mem hbefore))
  · obtain rfl := congrArg Prod.fst (List.mem_singleton.mp hnow)
    exact Nat.lt_irrefl _ (h.held _ hheld).1

/-- **The pinger settles each promise once exactly when no ping overlaps another.**  In
every run of pings, pongs, cancellations and expiries, in any order. -/
theorem settledOnce_iff_alone (noCode : ErrorCode) (ops : List Operation) :
    Transition.Throughout (Ledger.step noCode) SettledOnce .empty ops ↔
      Transition.Meets (Ledger.step noCode) Alone .empty ops :=
  Transition.throughout_iff_meets (fun _ h => h.settledOnce)
    (fun _ _ _ h halone hstep => h.step halone hstep)
    (fun _ _ _ h hoverlap hstep => not_settledOnce_of_overlap h hoverlap hstep)
    Ledger.OneAtATime.empty

/-- Two pings, then the wait of the first ends: its promise has been rejected and then
resolved, the second is forgotten. -/
theorem overlapping_ping_forgotten :
    ∃ l, Transition.run (Ledger.step .other) .empty [.ping, .ping, .timer false] = some l ∧
      l.state.made = 2 ∧ l.state.pinger.timer = .idle ∧ l.overlaps = [⟨1, 0⟩] ∧
      l.calls = [(0, .rejected .operationInProgress), (0, .resolved)] ∧
      ¬ Transition.Throughout (Ledger.step .other) SettledOnce .empty
        [.ping, .ping, .timer false] := by
  refine ⟨_, rfl, rfl, rfl, rfl, rfl, fun h => ?_⟩
  have honce : SettledOnce _ := h.last rfl
  exact absurd honce.atMostOnce (by decide)

end Whutfa.Keepalive
