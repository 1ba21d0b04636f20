import Whutfa.EventLoss
import Whutfa.SessionLifecycle

/-! # Which statuses are reported

The sessions of the handler process, the bridge and the server's `BridgeClient` put
together: what a run of the process publishes is what `emit_control` is called with, and
the server shows what it has applied of it.

Whatever attaches, fails, is lost or is cut short, the status is one of five, and each of
the five is shown in some run (`reported_iff`).  `usb_phase` is `idle` only before the
first event that arrives; `aoa_failed` and `ssl_failed`, `last_error` and `dropped_frames`
are never set, because the handler has no event for them.  Connections are told apart as in
`BridgeSync`: with a number of a descriptor used again, bytes of another socket could reach
the client.
-/
namespace Whutfa

open JsString

/-- The statuses that are reported. -/
def reportedStatuses : List HandlerStatus :=
  [ -- before the first event
    defaultStatus,
    { defaultStatus with usbPhase := .aoaSwitch },
    -- while a session is active
    { defaultStatus with
      usbPhase := .sessionActive, aoapOpen := true, sslOk := true, sessionActive := true },
    -- after it has ended
    { defaultStatus with usbPhase := .sessionActive, aoapOpen := true, sslOk := true },
    -- and when the next one begins
    { defaultStatus with usbPhase := .aoaSwitch, aoapOpen := true, sslOk := true }]

/-- No event of the handler leads out of them. -/
theorem after_mem_reportedStatuses {status : HandlerStatus} (h : status ∈ reportedStatuses)
    (e : ControlEvent) : status.after e ∈ reportedStatuses := by
  simp only [reportedStatuses, List.mem_cons, List.not_mem_nil, or_false] at h
  cases e with
  | videoConfig width height fps =>
    rcases h with rfl | rfl | rfl | rfl | rfl <;> simp [HandlerStatus.after, reportedStatuses]
  | session state => cases state <;> rcases h with rfl | rfl | rfl | rfl | rfl <;> decide

theorem foldl_after_mem_reportedStatuses {status : HandlerStatus} (h : status ∈ reportedStatuses)
    (events : List ControlEvent) :
    events.foldl HandlerStatus.after status ∈ reportedStatuses := by
  induction events generalizing status with
  | nil => exact h
  | cons e events ih => exact ih (after_mem_reportedStatuses h e)

namespace BridgeSync

open IpcSocket

section

variable (numberText : Decimal → JsString) (textNumber : JsString → Option ℚ)

/-- A status that the server shows for what a run of the handler process has published. -/
def Reported (cfg : Lifecycle.HandlerConfig) (status : HandlerStatus) : Prop :=
  ∃ sessions handler, Transition.run (Lifecycle.step cfg) Lifecycle.initial sessions =
      some handler ∧
    ∃ actions s, Transition.run (step numberText textNumber) initial actions = some s ∧
      s.socket.enqueued.map (·.event) = handler.published ∧ s.client.status = status

/-- What a run of the process publishes can be shown. -/
theorem reported_of_published {cfg : Lifecycle.HandlerConfig} {handler : Lifecycle.State}
    {sessions : List Lifecycle.Action}
    (hrun : Transition.run (Lifecycle.step cfg) Lifecycle.initial sessions = some handler) :
    Reported numberText textNumber cfg (statusAfter handler.published) := by
  obtain ⟨actions, s, hbridge, hemitted, hstatus, -⟩ :=
    outcome_of_kept numberText textNumber (List.Sublist.refl handler.published)
  exact ⟨sessions, handler, hrun, actions, s, hbridge, hemitted, hstatus⟩

/-- **The status is one of five**, in every interleaving of the bridge and whatever the
handler process has gone through, and each of the five is reported. -/
theorem reported_iff (cfg : Lifecycle.HandlerConfig) (status : HandlerStatus) :
    Reported numberText textNumber cfg status ↔ status ∈ reportedStatuses := by
  constructor
  · rintro ⟨-, handler, -, actions, s, hrun, hemitted, hstatus⟩
    obtain ⟨kept, -, rfl, -⟩ :=
      Outcome.exists_kept numberText textNumber ⟨actions, s, hrun, hemitted, hstatus, rfl⟩
    exact foldl_after_mem_reportedStatuses List.mem_cons_self kept
  · intro hstatus
    have hshown : ∀ sessions handler,
        Transition.run (Lifecycle.step cfg) Lifecycle.initial sessions = some handler →
          Reported numberText textNumber cfg (statusAfter handler.published) :=
      fun _ _ hrun => reported_of_published numberText textNumber hrun
    simp only [reportedStatuses, List.mem_cons, List.not_mem_nil, or_false] at hstatus
    rcases hstatus with rfl | rfl | rfl | rfl | rfl
    · exact hshown [] _ rfl
    · exact hshown [.device false none] _ rfl
    · exact hshown [.device false none, .input 0 .serviceDiscoveryRequest] _ rfl
    · exact hshown [.device false none, .input 0 .serviceDiscoveryRequest,
        .input 0 .byeByeAnswered] _ rfl
    · exact hshown [.device false none, .input 0 .serviceDiscoveryRequest,
        .input 0 .byeByeAnswered, .device false none] _ rfl

end

end BridgeSync

end Whutfa
