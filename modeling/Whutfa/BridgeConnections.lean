import Mathlib.Data.List.Induction
import Whutfa.BridgeClient
import Whutfa.JsonFront

/-! # The status over several connections

`BridgeClient` (`server/src/bridge-client.ts`) connects again when a connection is closed, and
`lineBuf` is not cleared: an unfinished last line is the beginning of the next connection's
first line.  Each connection is read as its own lines while what the ones before it have left
is blank; behind anything else an event is lost (`reported_iff_finished`).
-/
namespace Whutfa

open JsString JsValue

/-- A connection: the lines of its text, the beginning of one more perhaps, and the chunks in
which the text arrives. -/
structure BridgeConnection where
  lines : List JsString
  oneLine : ∀ line ∈ lines, unit '\n' ∉ line
  unfinished : JsString
  onLine : unit '\n' ∉ unfinished
  chunks : List JsString
  carries : chunks.flatten = lines.flatMap (· ++ [unit '\n']) ++ unfinished

/-- Whatever arrives in chunks is a connection. -/
theorem exists_connection (chunks : List JsString) :
    ∃ connection : BridgeConnection, connection.chunks = chunks := by
  obtain ⟨lines, part, hlines, hpart, htext⟩ := Lines.exists_lines (unit '\n') chunks.flatten
  exact ⟨⟨lines, hlines, part, hpart, chunks, htext⟩, rfl⟩

section

variable (numberText : Decimal → JsString) (textNumber : JsString → Option ℚ)

/-- The status after a line: if it is the text of an object, that is applied; what throws
changes nothing. -/
def statusLine (status : HandlerStatus) (line : JsString) : HandlerStatus :=
  match Json.parse (trim line) with
  | some (.obj members) =>
      match applyControlEvent numberText status (.obj members) with
      | .ok status => status
      | .error _ => status
  | _ => status

/-- The status that the lines of the connections stand for. -/
def statusOf (connections : List BridgeConnection) : HandlerStatus :=
  (connections.flatMap BridgeConnection.lines).foldl (statusLine numberText) defaultStatus

namespace BridgeClient

/-- The client after a connection. -/
def afterConnection (c : BridgeClient) (connection : BridgeConnection) : BridgeClient :=
  connection.chunks.foldl (onData numberText textNumber) c

/-- The client after some connections. -/
def afterConnections (connections : List BridgeConnection) : BridgeClient :=
  connections.foldl (afterConnection numberText textNumber) initial

/-- The status is the one that the lines stand for. -/
def Reported (connections : List BridgeConnection) : Prop :=
  (afterConnections numberText textNumber connections).status = statusOf numberText connections

/-! ## One connection

The chunks of a connection are read as one text, behind what the last connection has left. -/

theorem onLine_status (c : BridgeClient) (line : JsString) :
    (onLine numberText textNumber c line).status = statusLine numberText c.status line := by
  have hempty : Json.parse [] = none := rfl
  unfold onLine statusLine
  by_cases htrim : trim line = []
  · rw [if_pos htrim, htrim, hempty]
  rw [if_neg htrim]
  cases Json.parse (trim line) with
  | none => rfl
  | some msg =>
    simp only
    cases msg with
    | obj members =>
      simp only
      cases applyControlEvent numberText c.status (.obj members) with
      | error e => rfl
      | ok status =>
        simp only
        split
        · rfl
        · split
          · split <;> rfl
          · rfl
    -- no other value has an effect
    | null => rfl
    | bool b => rfl
    | num d => rfl
    | str s => rfl
    | arr items => rfl

theorem foldl_onLine_status (c : BridgeClient) (lines : List JsString) :
    (lines.foldl (onLine numberText textNumber) c).status =
      lines.foldl (statusLine numberText) c.status := by
  induction lines generalizing c with
  | nil => rfl
  | cons line lines ih => rw [List.foldl_cons, ih, onLine_status, List.foldl_cons]

/-- The chunks are read as `feed` reads them. -/
theorem foldl_onData (c : BridgeClient) (chunks : List JsString) :
    (chunks.foldl (onData numberText textNumber) c).status =
        ((lineDeframer (unit '\n')).feed c.lineBuf chunks).1.foldl (statusLine numberText)
          c.status ∧
      (chunks.foldl (onData numberText textNumber) c).lineBuf =
        ((lineDeframer (unit '\n')).feed c.lineBuf chunks).2 := by
  induction chunks generalizing c with
  | nil => exact ⟨rfl, rfl⟩
  | cons chunk chunks ih =>
    have hstatus : (onData numberText textNumber c chunk).status =
        ((lineDeframer (unit '\n')).push c.lineBuf chunk).1.foldl (statusLine numberText)
          c.status := foldl_onLine_status numberText textNumber c _
    have hbuf : (onData numberText textNumber c chunk).lineBuf =
        ((lineDeframer (unit '\n')).push c.lineBuf chunk).2 := rfl
    obtain ⟨ihstatus, ihbuf⟩ := ih (onData numberText textNumber c chunk)
    rw [hstatus, hbuf] at ihstatus
    rw [hbuf] at ihbuf
    rw [List.foldl_cons, Deframer.feed, List.foldl_append]
    exact ⟨ihstatus, ihbuf⟩

theorem afterConnection_status {c : BridgeClient} (hbuf : unit '\n' ∉ c.lineBuf)
    (connection : BridgeConnection) :
    (afterConnection numberText textNumber c connection).status =
      (Lines.joined c.lineBuf connection.lines).foldl (statusLine numberText) c.status := by
  rw [afterConnection, (foldl_onData numberText textNumber c _).1,
    Lines.feed_joined hbuf connection.oneLine connection.onLine connection.carries]

theorem afterConnection_lineBuf {c : BridgeClient} (hbuf : unit '\n' ∉ c.lineBuf)
    (connection : BridgeConnection) :
    (afterConnection numberText textNumber c connection).lineBuf =
      Lines.leftOver c.lineBuf connection.lines connection.unfinished := by
  rw [afterConnection, (foldl_onData numberText textNumber c _).2,
    Lines.feed_joined hbuf connection.oneLine connection.onLine connection.carries]

theorem afterConnections_concat (earlier : List BridgeConnection) (next : BridgeConnection) :
    afterConnections numberText textNumber (earlier ++ [next]) =
      afterConnection numberText textNumber (afterConnections numberText textNumber earlier)
        next := by
  rw [afterConnections, List.foldl_append]
  rfl

/-- `lineBuf` never holds a whole line between two connections. -/
theorem newline_not_mem_lineBuf (connections : List BridgeConnection) :
    unit '\n' ∉ (afterConnections numberText textNumber connections).lineBuf := by
  induction connections using List.reverseRecOn with
  | nil => exact List.not_mem_nil
  | append_singleton earlier next ih =>
    rw [afterConnections_concat, afterConnection_lineBuf numberText textNumber ih]
    exact Lines.not_mem_leftOver ih next.onLine _

/-! ## A line behind what is left

An event is an object with keys, and a JSON text that ends in one has nothing but blanks before
it.  So what an earlier connection has left either is blank, and changes nothing, or makes of
the first line something at which `JSON.parse` throws. -/

theorem trim_eq_nil_iff {t : JsString} : trim t = [] ↔ ∀ c ∈ t, JsString.isSpace c = true := by
  unfold trim
  rw [List.reverse_eq_nil_iff, List.dropWhile_eq_nil_iff]
  constructor
  · intro h
    refine List.dropWhile_eq_nil_iff.mp ?_
    cases ht : t.dropWhile JsString.isSpace with
    | nil => rfl
    | cons c u =>
      -- what is left begins with something visible
      have hvisible := List.head?_dropWhile_not JsString.isSpace t
      rw [ht] at hvisible h
      have hspace := h c (List.mem_reverse.mpr List.mem_cons_self)
      simp only [List.head?_cons] at hvisible
      rw [hspace] at hvisible
      cases hvisible
  · intro h c hc
    exact h c ((List.dropWhile_suffix _).subset (List.mem_reverse.mp hc))

/-- What is blank is trimmed with the line. -/
theorem trim_append {front : JsString} (hfront : trim front = []) (line : JsString) :
    trim (front ++ line) = trim line := by
  rw [trim, List.dropWhile_append_of_pos (trim_eq_nil_iff.mp hfront)]
  rfl

theorem opens_session (state : SessionState) :
    Json.Opens (ControlEvent.session state).line ((ControlEvent.session state).line.drop 2) where
  eq := by cases state <;> rfl
  interrupts := ⟨unit 'e', (ControlEvent.session state).line.drop 3, by cases state <;> rfl,
    by decide⟩

theorem isSpace_of_isBlank {c : UInt16} (h : Json.isBlank c = true) :
    JsString.isSpace c = true := by
  simp only [Json.isBlank, Bool.or_eq_true, decide_eq_true_eq] at h
  rcases h with ((rfl | rfl) | rfl) | rfl <;> rfl

/-- Behind anything else an event of a session is no JSON text. -/
theorem parse_behind {front : JsString} (hfront : trim front ≠ []) (state : SessionState) :
    Json.parse (trim (front ++ (ControlEvent.session state).line)) = none := by
  cases hvisible : front.dropWhile JsString.isSpace with
  | nil => exact absurd (trim_eq_nil_iff.mpr (List.dropWhile_eq_nil_iff.mp hvisible)) hfront
  | cons c f =>
    have hc : JsString.isSpace c = false := by
      have hhead := List.head?_dropWhile_not JsString.isSpace front
      rw [hvisible] at hhead
      simpa using hhead
    have hdrop : (front ++ (ControlEvent.session state).line).dropWhile JsString.isSpace =
        c :: f ++ (ControlEvent.session state).line := by
      rw [List.dropWhile_append, hvisible]
      rfl
    have htrim : trim (front ++ (ControlEvent.session state).line) =
        c :: f ++ (ControlEvent.session state).line := by
      have hself : trim (c :: f ++ (ControlEvent.session state).line) =
          c :: f ++ (ControlEvent.session state).line := by
        refine trim_eq_self (fun d hd => Option.some.inj hd ▸ hc) fun d hd => ?_
        rw [List.getLast?_append_of_ne_nil _ (ControlEvent.line_ne_nil _),
          ControlEvent.getLast_line] at hd
        rw [← Option.some.inj hd]
        decide
      rw [trim, List.cons_append, List.dropWhile_cons_of_neg (by rw [hc]; nofun)] at hself
      rw [trim, hdrop]
      exact hself
    rw [htrim]
    cases hparse : Json.parse (c :: f ++ (ControlEvent.session state).line) with
    | none => rfl
    | some msg =>
      have hblank := (opens_session state).blank_of_parse (ControlEvent.session state).parse_line
        hparse c List.mem_cons_self
      rw [isSpace_of_isBlank hblank] at hc
      cases hc

/-! ## All connections

The sufficient direction adds one connection after the other; for the necessary one the next
connection is chosen so that it shows what is in the buffer. -/

/-- A first line behind something blank is read as it is. -/
theorem foldl_joined {front : JsString} (hfront : trim front = []) (status : HandlerStatus)
    (lines : List JsString) :
    (Lines.joined front lines).foldl (statusLine numberText) status =
      lines.foldl (statusLine numberText) status := by
  cases lines with
  | nil => rfl
  | cons line lines =>
    have hline : statusLine numberText status (front ++ line) =
        statusLine numberText status line := by
      rw [statusLine, trim_append hfront]
      rfl
    rw [Lines.joined, List.foldl_cons, List.foldl_cons, hline]

theorem trim_leftOver {front part : JsString} (lines : List JsString) (hfront : trim front = [])
    (hpart : trim part = []) : trim (Lines.leftOver front lines part) = [] := by
  unfold Lines.leftOver
  split
  · rw [trim_append hfront, hpart]
  · exact hpart

theorem trim_of_leftOver {front part : JsString} {lines : List JsString}
    (h : trim (Lines.leftOver front lines part) = []) : trim part = [] := by
  unfold Lines.leftOver at h
  split at h
  · exact trim_eq_nil_iff.mpr fun c hc =>
      trim_eq_nil_iff.mp h c (List.mem_append_right front hc)
  · exact h

theorem statusOf_concat (earlier : List BridgeConnection) (next : BridgeConnection) :
    statusOf numberText (earlier ++ [next]) =
      next.lines.foldl (statusLine numberText) (statusOf numberText earlier) := by
  rw [statusOf, List.flatMap_append, List.foldl_append, List.flatMap_singleton]
  rfl

/-- **One more connection** behind something blank. -/
theorem reported_concat {earlier : List BridgeConnection}
    (h : Reported numberText textNumber earlier)
    (hblank : trim (afterConnections numberText textNumber earlier).lineBuf = [])
    (next : BridgeConnection) : Reported numberText textNumber (earlier ++ [next]) := by
  rw [Reported, afterConnections_concat,
    afterConnection_status _ _ (newline_not_mem_lineBuf numberText textNumber earlier),
    foldl_joined numberText hblank, h, statusOf_concat]

/-- While every connection ends with its last line, all are reported and nothing is left. -/
theorem reported_of_finished {connections : List BridgeConnection}
    (h : ∀ c ∈ connections, trim c.unfinished = []) :
    Reported numberText textNumber connections ∧
      trim (afterConnections numberText textNumber connections).lineBuf = [] := by
  induction connections using List.reverseRecOn with
  | nil => exact ⟨rfl, rfl⟩
  | append_singleton earlier next ih =>
    obtain ⟨hearlier, hnext⟩ := List.forall_mem_append.mp h
    obtain ⟨hreported, hblank⟩ := ih hearlier
    refine ⟨reported_concat numberText textNumber hreported hblank next, ?_⟩
    rw [afterConnections_concat, afterConnection_lineBuf numberText textNumber
      (newline_not_mem_lineBuf numberText textNumber earlier)]
    exact trim_leftOver next.lines hblank (hnext next List.mem_cons_self)

/-- A connection with one event of a session. -/
def sessionConnection (state : SessionState) : BridgeConnection where
  lines := [(ControlEvent.session state).line]
  oneLine := by
    rw [List.forall_mem_singleton]
    exact fun hmem => absurd ((ControlEvent.session state).isPlain_line _ hmem) (by decide)
  unfinished := []
  onLine := List.not_mem_nil
  chunks := [(ControlEvent.session state).line ++ [unit '\n']]
  carries := by simp

/-- A connection on which nothing arrives. -/
def silentConnection : BridgeConnection where
  lines := []
  oneLine := List.forall_mem_nil _
  unfinished := []
  onLine := List.not_mem_nil
  chunks := []
  carries := rfl

theorem statusLine_session (status : HandlerStatus) (state : SessionState) :
    statusLine numberText status (ControlEvent.session state).line =
      status.after (.session state) := by
  have hevent := applyControlEvent_message numberText status (.session state)
  unfold ControlEvent.message at hevent
  unfold statusLine
  rw [ControlEvent.trim_line, ControlEvent.parse_line]
  simp only [ControlEvent.message, hevent]

/-- An event behind something that is not blank is lost. -/
theorem statusLine_behind {front : JsString} (hfront : trim front ≠ []) (status : HandlerStatus)
    (state : SessionState) :
    statusLine numberText status (front ++ (ControlEvent.session state).line) = status := by
  rw [statusLine, parse_behind hfront]

/-- What the next connections show of the ones before them. -/
theorem blank_of_reported {earlier : List BridgeConnection}
    (h : ∀ next, Reported numberText textNumber (earlier ++ [next])) :
    trim (afterConnections numberText textNumber earlier).lineBuf = [] := by
  have hbuf := newline_not_mem_lineBuf numberText textNumber earlier
  have hnext : ∀ next : BridgeConnection,
      (Lines.joined (afterConnections numberText textNumber earlier).lineBuf next.lines).foldl
          (statusLine numberText) (afterConnections numberText textNumber earlier).status =
        next.lines.foldl (statusLine numberText) (statusOf numberText earlier) := by
    intro next
    have hreported := h next
    rw [Reported, afterConnections_concat, afterConnection_status _ _ hbuf,
      statusOf_concat] at hreported
    exact hreported
  have hsame : (afterConnections numberText textNumber earlier).status =
      statusOf numberText earlier := hnext silentConnection
  by_contra hfront
  have hlost : ∀ state : SessionState,
      (statusOf numberText earlier).after (.session state) = statusOf numberText earlier := by
    intro state
    have hsession := hnext (sessionConnection state)
    simp only [sessionConnection, Lines.joined, List.foldl_cons, List.foldl_nil,
      statusLine_behind numberText hfront, statusLine_session, hsame] at hsession
    exact hsession.symm
  -- a session that begins and one that is over leave different flags
  have hactive := congrArg HandlerStatus.sessionActive (hlost .active)
  have hidle := congrArg HandlerStatus.sessionActive (hlost .idle)
  rw [← hactive] at hidle
  cases hidle

/-- **The status is that of the lines exactly while no connection ends within one.**  For every
sequence of connections, cut into chunks anywhere: whatever connection comes after any first
part of it, the status is the one that the lines of all connections stand for, if and only if
each connection of the sequence leaves nothing but blanks behind its last line. -/
theorem reported_iff_finished (connections : List BridgeConnection) :
    (∀ earlier, earlier <+: connections → ∀ next,
        Reported numberText textNumber (earlier ++ [next])) ↔
      ∀ c ∈ connections, trim c.unfinished = [] := by
  constructor
  · intro h c hc
    obtain ⟨before, behind, rfl⟩ := List.append_of_mem hc
    have hprefix : before ++ [c] <+: before ++ c :: behind := by
      rw [List.append_cons before c behind]
      exact List.prefix_append _ _
    have hblank := blank_of_reported numberText textNumber (h _ hprefix)
    rw [afterConnections_concat, afterConnection_lineBuf numberText textNumber
      (newline_not_mem_lineBuf numberText textNumber before)] at hblank
    exact trim_of_leftOver hblank
  · intro h earlier hearlier next
    obtain ⟨hreported, hblank⟩ := reported_of_finished numberText textNumber
      fun c hc => h c (hearlier.subset hc)
    exact reported_concat numberText textNumber hreported hblank next

end BridgeClient

end

namespace BridgeClient

/-- A connection that is closed behind the first unit of a line. -/
def brokenConnection : BridgeConnection where
  lines := []
  oneLine := List.forall_mem_nil _
  unfinished := [unit '\x7b']
  onLine := by decide
  chunks := [[unit '\x7b']]
  carries := rfl

/-- The next handler's session begins, and the status does not say so. -/
theorem active_behind_brace_lost :
    (afterConnections (fun _ => []) (fun _ => none)
        [brokenConnection, sessionConnection .active]).status = defaultStatus ∧
      (statusOf (fun _ => []) [brokenConnection, sessionConnection .active]).sessionActive = true ∧
      ¬ Reported (fun _ => []) (fun _ => none) [brokenConnection, sessionConnection .active] := by
  have hbroken : afterConnections (fun _ => []) (fun _ => none) [brokenConnection] =
      { initial with lineBuf := [unit '\x7b'] } := rfl
  have hactual : (afterConnections (fun _ => []) (fun _ => none)
      ([brokenConnection] ++ [sessionConnection .active])).status = defaultStatus := by
    rw [afterConnections_concat, hbroken, afterConnection_status _ _ (by decide)]
    simp only [sessionConnection, Lines.joined, List.foldl_cons, List.foldl_nil]
    exact statusLine_behind _ (by decide) _ _
  have hspec : (statusOf (fun _ => []) [brokenConnection, sessionConnection .active]) =
      defaultStatus.after (.session .active) := by
    simp only [statusOf, brokenConnection, sessionConnection, List.flatMap_cons, List.flatMap_nil,
      List.nil_append, List.append_nil, List.foldl_cons, List.foldl_nil, statusLine_session]
  refine ⟨hactual, by rw [hspec]; rfl, fun h => ?_⟩
  have heq := hactual.symm.trans (h.trans hspec)
  exact absurd heq (by decide)

end BridgeClient

end Whutfa
