import Mathlib.Data.List.Flatten
import Whutfa.IpcSocket
import Whutfa.MediaSockets
import Whutfa.SessionChannels
import Whutfa.WebSockets

/-! # The way of a video frame

The stages between the phone and a page, put together: the sessions' video sinks
(`SessionChannels`), the video socket of the handler (`IpcSocket`), the server's reader
behind it (`MediaSockets`) and the slot for one page (`WebSockets`).  Every stage but the
first loses frames (a full queue, a client that goes away, no page), and each may be at any
point of its run.  What holds from end to end is that a frame reaches a page whole, once,
and in the order in which the phone sent it (`phone_to_page`), as long as no connection but
the server's last one has ended inside a packet; what such an end does is the subject of
`reconnect_frames_iff`.  A descriptor stands for its connection, as in `IpcSocket`, and the
frames are no longer than the reader takes (`VideoPacket.fits`).
-/
namespace Whutfa

/-! ## Parts of a list -/

/-- Parts that lie in a list one after the other, put together again. -/
theorem flatMap_pieces_sublist {α : Type*} {l : List α} {pieces : List (Nat × List α)}
    (hpiece : ∀ p ∈ pieces, p.2 <+: l.drop p.1)
    (horder : pieces.Pairwise fun p q => p.1 + p.2.length ≤ q.1) :
    (pieces.flatMap Prod.snd).Sublist l := by
  suffices h : ∀ k, (∀ p ∈ pieces, k ≤ p.1) → (pieces.flatMap Prod.snd).Sublist (l.drop k) by
    simpa using h 0 fun _ _ => Nat.zero_le _
  induction pieces with
  | nil =>
    intro k _
    exact List.nil_sublist _
  | cons p pieces ih =>
    intro k hk
    obtain ⟨hfirst, hrest⟩ := List.pairwise_cons.mp horder
    have htail := ih (fun q hq => hpiece q (List.mem_cons_of_mem p hq)) hrest _ hfirst
    obtain ⟨rest, happend⟩ := hpiece p (List.mem_cons_self ..)
    have hdrop : l.drop p.1 = p.2 ++ l.drop (p.1 + p.2.length) := by
      rw [← List.drop_drop, ← happend, List.drop_left' rfl]
    rw [List.flatMap_cons]
    refine List.Sublist.trans ?_ (List.drop_sublist_drop_left l (hk p (List.mem_cons_self ..)))
    rw [hdrop]
    exact (List.Sublist.refl _).append htail

/-- A list in the order of a key: the part up to a bound, and the part above it. -/
theorem filter_le_append_filter_lt {α : Type*} {f : α → Nat} {l : List α}
    (h : l.Pairwise fun a b => f a ≤ f b) (c : Nat) :
    l.filter (fun a => f a ≤ c) ++ l.filter (fun a => c < f a) = l := by
  induction l with
  | nil => rfl
  | cons a l ih =>
    obtain ⟨hfirst, hrest⟩ := List.pairwise_cons.mp h
    by_cases ha : f a ≤ c
    · rw [List.filter_cons_of_pos (by simpa using ha),
        List.filter_cons_of_neg (by simpa using ha), List.cons_append, ih hrest]
    · have hnone : l.filter (fun a => f a ≤ c) = [] := by
        refine List.filter_eq_nil_iff.mpr fun b hb => ?_
        have := hfirst b hb
        simp only [decide_eq_true_eq]
        omega
      have hall := ih hrest
      rw [hnone, List.nil_append] at hall
      rw [List.filter_cons_of_neg (by simpa using ha), hnone, List.nil_append,
        List.filter_cons_of_pos (by simpa using ha), hall]

/-- The parts with the keys of an increasing list, one after the other. -/
theorem flatMap_filter_sublist {α : Type*} {f : α → Nat} {l : List α} {keys : List Nat}
    (hl : l.Pairwise fun a b => f a ≤ f b) (hkeys : keys.Pairwise (· < ·)) :
    (keys.flatMap fun c => l.filter fun a => f a = c).Sublist l := by
  induction keys generalizing l with
  | nil => exact List.nil_sublist _
  | cons c keys ih =>
    obtain ⟨hfirst, hrest⟩ := List.pairwise_cons.mp hkeys
    have habove := ih (hl.sublist (List.filter_sublist (p := fun a => c < f a))) hrest
    have hsame : (keys.flatMap fun d => (l.filter fun a => c < f a).filter fun a => f a = d) =
        keys.flatMap fun d => l.filter fun a => f a = d := by
      refine List.flatMap_congr fun d hd => ?_
      rw [List.filter_filter]
      refine List.filter_congr fun a _ => ?_
      have := hfirst d hd
      by_cases hfd : f a = d
      · simp only [hfd, decide_true, Bool.true_and, decide_eq_true_eq]
        omega
      · simp [hfd]
    rw [hsame] at habove
    have hbelow : (l.filter fun a => f a = c).Sublist (l.filter fun a => f a ≤ c) := by
      refine List.monotone_filter_right l fun a ha => ?_
      simp only [decide_eq_true_eq] at ha ⊢
      omega
    have hboth := hbelow.append habove
    rwa [filter_le_append_filter_lt hl c] at hboth

/-! ## What the server reads of the handler's stream -/

/-- The message `main` broadcasts for a packet. -/
def VideoPacket.message (p : VideoPacket) : List UInt8 := packVideoForWs p.frame

/-- The beginning of a stream of packets drains to the first of them. -/
theorem drains_of_prefix {packets : List VideoPacket} {l : List UInt8}
    (h : l <+: packets.flatMap VideoPacket.bytes) :
    ∃ k rest, lengthPrefixedReader.Drains l ((packets.take k).map VideoPacket.payload) rest := by
  obtain ⟨unread, happend⟩ := h
  obtain ⟨k, rest, hdrains, -⟩ := Deframer.Drains.encoded_prefix
    (fun p _ r => lengthPrefixedReader_next_packet p r) lengthPrefixedReader_nil happend
  exact ⟨k, rest, hdrains⟩

theorem mapM_onVideoFrame (packets : List VideoPacket) :
    (packets.map VideoPacket.payload).mapM onVideoFrame =
      .ok (packets.map fun p => some p.message) := by
  induction packets with
  | nil => rfl
  | cons p packets ih =>
    rw [List.map_cons, List.mapM_cons, ih, onVideoFrame, p.parse_payload]
    rfl

/-- The payloads delivered are parsed, packed and broadcast. -/
theorem connection_messages {s : SocketData VideoState} {chunks : List (List UInt8)}
    {packets : List VideoPacket} (hs : s.crashed = false) (hb : s.buffer = [])
    (hframes : (lengthPrefixedReader.feed s.app.reader chunks).1 =
      packets.map VideoPacket.payload) :
    (s.connection onVideoData chunks).app.messages =
      s.app.messages ++ packets.map VideoPacket.message := by
  induction chunks generalizing s packets with
  | nil =>
    have hnone : packets = [] := List.map_eq_nil_iff.mp hframes.symm
    rw [hnone]
    exact (List.append_nil _).symm
  | cons chunk chunks ih =>
    -- the packets of this chunk, and those of the chunks after it
    obtain ⟨now, later, rfl, hnow, hlater⟩ := List.map_eq_append_iff.mp hframes.symm
    have hone : s.receive onVideoData chunk =
        { buffer := []
          app := { reader := (lengthPrefixedReader.push s.app.reader chunk).2
                   frames := s.app.frames ++ (lengthPrefixedReader.push s.app.reader chunk).1
                   messages := s.app.messages ++ now.map VideoPacket.message }
          crashed := false } := by
      refine SocketData.receive_ok hs hb ?_
      have hmessages := mapM_onVideoFrame now
      rw [hnow] at hmessages
      simp only [onVideoData, hmessages]
      have hsome : (now.map fun p => some p.message).reduceOption =
          now.map VideoPacket.message := by
        show (now.map fun p => some p.message).filterMap id = _
        rw [List.filterMap_map]
        exact List.filterMap_eq_map_iff_forall_eq_some.mpr fun p _ => rfl
      show Except.ok _ = _
      rw [hsome]
    rw [SocketData.connection, List.foldl_cons, hone]
    refine (ih rfl rfl hlater.symm).trans ?_
    rw [List.append_assoc, ← List.map_append]

/-! ## From the queue to the broadcast -/

/-- The connections the server reads one after the other, all but the last of which
ended between two packets: what it broadcasts is packets popped for them, in order. -/
theorem messages_of_history (popped : List (IpcSocket.Popped VideoPacket))
    {stream : Nat → List UInt8}
    (hframed : ∀ c, stream c <+: (IpcSocket.packetsFor popped c).flatMap VideoPacket.bytes)
    {history : List (Nat × List (List UInt8))} (hread : ∀ x ∈ history, x.2.flatten <+: stream x.1)
    (hwhole : ∀ x ∈ history.dropLast, ∃ packets : List VideoPacket,
      x.2.flatten = packets.flatMap VideoPacket.bytes)
    {s : SocketData VideoState} (hs : s.crashed = false) (hb : s.buffer = [])
    (hreader : s.app.reader = []) :
    ∃ packets : List VideoPacket,
      packets.Sublist (history.flatMap fun x => IpcSocket.packetsFor popped x.1) ∧
        ((history.map Prod.snd).foldl (SocketData.connection onVideoData) s).app.messages =
          s.app.messages ++ packets.map VideoPacket.message := by
  induction history generalizing s with
  | nil => exact ⟨[], List.nil_sublist _, (List.append_nil _).symm⟩
  | cons x history ih =>
    obtain ⟨k, rest, hdrains⟩ :=
      drains_of_prefix ((hread x (List.mem_cons_self ..)).trans (hframed x.1))
    have hfeed : lengthPrefixedReader.feed s.app.reader x.2 =
        (((IpcSocket.packetsFor popped x.1).take k).map VideoPacket.payload, rest) := by
      rw [hreader]
      exact Deframer.Drains.feed lengthPrefixedReader_nil hdrains
    obtain ⟨hcrashed, hbuffer, hresidue, -⟩ := connection_video hs hb x.2
    have hmessages := connection_messages hs hb (congrArg Prod.fst hfeed)
    have hfirst := List.take_sublist k (IpcSocket.packetsFor popped x.1)
    cases history with
    | nil =>
      refine ⟨(IpcSocket.packetsFor popped x.1).take k, ?_, hmessages⟩
      rwa [List.flatMap_cons, List.flatMap_nil, List.append_nil]
    | cons y history =>
      -- the reader is empty again for the next connection
      have hempty : rest = [] := by
        obtain ⟨packets, hpackets⟩ := hwhole x (List.mem_cons_self ..)
        have hall := (lengthPrefixedReader_drains packets).drain_eq
        rw [← hpackets, hdrains.drain_eq] at hall
        exact congrArg Prod.snd hall
      have hreader' : (s.connection onVideoData x.2).app.reader = [] := by
        rw [hresidue, hfeed, hempty]
      obtain ⟨packets, hsub, hmore⟩ := ih (fun z hz => hread z (List.mem_cons_of_mem x hz))
        (fun z hz => hwhole z (List.mem_cons_of_mem x hz)) hcrashed hbuffer hreader'
      refine ⟨(IpcSocket.packetsFor popped x.1).take k ++ packets, ?_, ?_⟩
      · rw [List.flatMap_cons]
        exact hfirst.append hsub
      · rw [List.map_cons, List.foldl_cons, hmore, hmessages, List.append_assoc,
          ← List.map_append]

/-- What the server broadcasts is a part, in order, of what the handler queued. -/
theorem messages_sublist_enqueued {s : IpcSocket.State VideoPacket UInt8}
    (h : IpcSocket.Reachable VideoPacket.bytes .video s) {history : List (Nat × List (List UInt8))}
    (hread : ∀ x ∈ history, x.2.flatten <+: s.stream x.1)
    (horder : history.Pairwise fun x y => x.1 < y.1)
    (hwhole : ∀ x ∈ history.dropLast, ∃ packets : List VideoPacket,
      x.2.flatten = packets.flatMap VideoPacket.bytes) :
    (videoAfter (history.map Prod.snd)).app.messages.Sublist
      (s.enqueued.map VideoPacket.message) := by
  have hsound := h.inv.sound
  obtain ⟨packets, hsub, hmessages⟩ := messages_of_history s.popped
    (fun c => (hsound.framed c).isPrefix) hread hwhole (s := freshVideo) rfl rfl rfl
  have hkeys : (history.map Prod.fst).Pairwise (· < ·) := List.pairwise_map.mpr horder
  have hpopped := (flatMap_filter_sublist h.inv.2.conns hkeys).map IpcSocket.Popped.packet
  rw [List.map_flatMap, List.flatMap_map] at hpopped
  rw [videoAfter, hmessages]
  exact ((hsub.trans hpopped).trans hsound.in_order).map VideoPacket.message

/-! ## From the queue to the pages -/

namespace WebSockets

/-- What the pages have been sent, the connections in order. -/
def delivered {F : Type*} (w : State F) : List F :=
  (w.connections.filter fun ws => ws.refused = false).flatMap (·.sent)

/-- No message reaches two pages, and they are reached in order. -/
theorem delivered_sublist {F : Type*} {w : State F}
    (h : OneViewer w.activeWs w.connections w.broadcasts) :
    (delivered w).Sublist w.broadcasts := by
  let pieces := (w.connections.filter fun ws => ws.refused = false).map fun ws =>
    (ws.since, ws.sent)
  have hsame : delivered w = pieces.flatMap Prod.snd := by
    rw [List.flatMap_map]
    rfl
  rw [hsame]
  refine flatMap_pieces_sublist ?_ (List.pairwise_map.mpr ?_)
  · intro p hp
    obtain ⟨ws, hws, rfl⟩ := List.mem_map.mp hp
    obtain ⟨c, hc⟩ := List.mem_iff_getElem?.mp (List.mem_filter.mp hws).1
    exact h.sent c ws hc
  · refine List.pairwise_filter.mpr (List.pairwise_iff_getElem.mpr fun c d hc hd hlt h₁ h₂ => ?_)
    exact (h.earlier c d _ _ hlt (List.getElem?_eq_getElem hc) (List.getElem?_eq_getElem hd)
      (of_decide_eq_true h₁) (of_decide_eq_true h₂)).2

end WebSockets

/-- **From the queue to the pages.**  Take any state of the handler's video socket; any
connections of the server to it, in order, each read as far as it may be and cut
anywhere, all but the last one ended between two packets; and any state of the pages
behind the broadcasts.  What all pages together have been sent is a part of the frames
the handler queued, each at most once and in order, with the frames' own bytes behind
the key flag; and so is what the server has broadcast. -/
theorem video_end_to_end {s : IpcSocket.State VideoPacket UInt8}
    (h : IpcSocket.Reachable VideoPacket.bytes .video s) (history : List (Nat × List (List UInt8)))
    (hread : ∀ x ∈ history, x.2.flatten <+: s.stream x.1)
    (horder : history.Pairwise fun x y => x.1 < y.1)
    (hwhole : ∀ x ∈ history.dropLast, ∃ packets : List VideoPacket,
      x.2.flatten = packets.flatMap VideoPacket.bytes)
    (retries : Nat → Bool) {w : WebSockets.State (List UInt8)}
    (hw : Transition.Reachable (WebSockets.step retries) (· = WebSockets.initial) w)
    (hbroadcasts : w.broadcasts = (videoAfter (history.map Prod.snd)).app.messages) :
    w.broadcasts.Sublist (s.enqueued.map VideoPacket.message) ∧
      (WebSockets.delivered w).Sublist (s.enqueued.map VideoPacket.message) := by
  have hmessages := messages_sublist_enqueued h hread horder hwhole
  rw [← hbroadcasts] at hmessages
  exact ⟨hmessages, (WebSockets.delivered_sublist (WebSockets.oneViewer_reachable hw)).trans
    hmessages⟩

/-! ## From the phone to the pages -/

namespace Handlers

/-- A video frame that the phone sends, with its timestamp. -/
def Message.videoFrame? : Message → Option (UInt64 × List UInt8)
  | video (.mediaWithTimestampIndication timestamp buffer) => some (timestamp, buffer)
  | video (.mediaIndication buffer) => some (0, buffer)
  | _ => none

/-- A call of `queue_video`. -/
def Effect.queueVideo? : Effect → Option (UInt64 × List UInt8)
  | queueVideo timestamp data => some (timestamp, data)
  | _ => none

/-- The frames that a session has been sent. -/
def State.videoFrames (s : State) : List (UInt64 × List UInt8) :=
  s.delivered.filterMap Message.videoFrame?

/-- The calls of `queue_video` that a session has made. -/
def State.videoCalls (s : State) : List (UInt64 × List UInt8) :=
  s.log.filterMap fun entry => entry.2.queueVideo?

theorem queueCall_videoFrame (cfg : HandlerConfig) (m : Message) :
    (m.queueCall cfg).bind (fun call => call.2.queueVideo?) = m.videoFrame? := by
  cases m with
  | video m => cases m <;> rfl
  | mediaAudio m => cases m <;> rfl
  | systemAudio m => cases m <;> rfl
  | control | input | sensor => rfl

/-- A session queues the frames it has been sent. -/
theorem videoCalls_eq (cfg : HandlerConfig) {s : State}
    (h : Transition.Reachable (step cfg) (· = initial) s) : s.videoCalls = s.videoFrames := by
  have hforwarded : Forwarded cfg s :=
    h.invariant_from ⟨rfl, rfl⟩ fun _ _ _ hs hstep => forwarded_step hs hstep
  have hcalls : s.videoCalls = (queueCalls s.log).filterMap fun call => call.2.queueVideo? := by
    rw [queueCalls, List.filterMap_filter]
    refine List.filterMap_congr fun entry _ => ?_
    cases entry.2 <;> rfl
  rw [hcalls, hforwarded.queued, List.filterMap_filterMap, State.videoFrames]
  exact List.filterMap_congr fun m _ => queueCall_videoFrame cfg m

end Handlers

/-- What a page is sent for a frame. -/
def pageMessage (data : List UInt8) : List UInt8 :=
  packVideoForWs { timestampUs := 0, data, keyframe := detectKeyframe data }

/-- **From end to end.**  Sessions, one after the other, each at any point of its run, have
made the calls of `queue_video` of the handler's video socket; and the server and the pages
behind it are as in `video_end_to_end`.  What all pages together have been sent is a part of
the frames that the phones sent, each at most once and in order, with the frame's own bytes
behind the key flag. -/
theorem phone_to_page (cfg : Handlers.HandlerConfig) {sessions : List Handlers.State}
    (hsessions : ∀ session ∈ sessions,
      Transition.Reachable (Handlers.step cfg) (· = Handlers.initial) session)
    {s : IpcSocket.State VideoPacket UInt8}
    (h : IpcSocket.Reachable VideoPacket.bytes .video s)
    (hqueued : s.enqueued.map (fun p => (p.timestampUs, p.data)) =
      sessions.flatMap Handlers.State.videoCalls)
    (history : List (Nat × List (List UInt8))) (hread : ∀ x ∈ history, x.2.flatten <+: s.stream x.1)
    (horder : history.Pairwise fun x y => x.1 < y.1)
    (hwhole : ∀ x ∈ history.dropLast, ∃ packets : List VideoPacket,
      x.2.flatten = packets.flatMap VideoPacket.bytes)
    (retries : Nat → Bool) {w : WebSockets.State (List UInt8)}
    (hw : Transition.Reachable (WebSockets.step retries) (· = WebSockets.initial) w)
    (hbroadcasts : w.broadcasts = (videoAfter (history.map Prod.snd)).app.messages) :
    (WebSockets.delivered w).Sublist
      ((sessions.flatMap Handlers.State.videoFrames).map fun frame => pageMessage frame.2) := by
  have hframes : sessions.flatMap Handlers.State.videoFrames =
      s.enqueued.map fun p => (p.timestampUs, p.data) := by
    rw [hqueued]
    exact List.flatMap_congr fun session hmem =>
      (Handlers.videoCalls_eq cfg (hsessions session hmem)).symm
  rw [hframes, List.map_map]
  exact (video_end_to_end h history hread horder hwhole retries hw hbroadcasts).2

/-- A frame of one byte, which is no keyframe. -/
def VideoPacket.ofByte (b : UInt8) : VideoPacket :=
  { timestampUs := 0, data := [b], fits := by simp }

/-- Three frames on two connections: the second frame is cut short by the first one's
end, and nobody watches when the third comes. -/
def threeFrames : List (IpcSocket.Action VideoPacket) :=
  [.connect, .accept, .install, .enqueue (.ofByte 1), .enqueue (.ofByte 2), .pop, .write 13, .done,
    .pop, .write 6, .writeFail, .dropClient, .connect, .accept, .install, .enqueue (.ofByte 3),
    .pop, .write 13, .done]

theorem threeFrames_run : ∃ s, Transition.run (IpcSocket.step VideoPacket.bytes
      (SocketName.maxQueue .video)) IpcSocket.initial threeFrames = some s ∧
    s.enqueued = [.ofByte 1, .ofByte 2, .ofByte 3] ∧
    s.stream 0 = (VideoPacket.ofByte 1).bytes ++ [0, 0, 0, 9, 0, 0] ∧
    s.stream 1 = (VideoPacket.ofByte 3).bytes :=
  ⟨_, rfl, rfl, by decide, by decide⟩

/-- A session that is sent the three frames. -/
def threeIndications : List Handlers.Action :=
  [.start .control, .start .video, .deliver (.video (.startIndication 1)),
    .deliver (.video (.mediaIndication [1])), .deliver (.video (.mediaIndication [2])),
    .deliver (.video (.mediaIndication [3]))]

/-- In that run the only page gets the first frame. -/
theorem phone_to_page_three :
    ∃ w : WebSockets.State (List UInt8), WebSockets.delivered w = [[0, 1]] ∧
      w.broadcasts = [[0, 1], [0, 3]] ∧
      (WebSockets.delivered w).Sublist ([[1], [2], [3]].map pageMessage) := by
  obtain ⟨s, hrun, henqueued, hzero, hone⟩ := threeFrames_run
  obtain ⟨session, hsession, hcalls, hsent⟩ : ∃ session,
      Transition.run (Handlers.step Handlers.defaultConfig) Handlers.initial threeIndications =
        some session ∧ session.videoCalls = [(0, [1]), (0, [2]), (0, [3])] ∧
      session.videoFrames = [(0, [1]), (0, [2]), (0, [3])] := ⟨_, rfl, rfl, rfl⟩
  let history : List (Nat × List (List UInt8)) :=
    [(0, [[0, 0], [0, 9, 0, 0, 0, 0, 0, 0, 0, 0, 1]]), (1, [(VideoPacket.ofByte 3).bytes])]
  have hsessions : ∀ other ∈ [session],
      Transition.Reachable (Handlers.step Handlers.defaultConfig) (· = Handlers.initial) other := by
    intro other hother
    rw [List.mem_singleton.mp hother]
    exact ⟨Handlers.initial, threeIndications, rfl, hsession⟩
  have hqueued : s.enqueued.map (fun p => (p.timestampUs, p.data)) =
      [session].flatMap Handlers.State.videoCalls := by
    rw [henqueued, List.flatMap_singleton, hcalls]
    rfl
  have hread : ∀ x ∈ history, x.2.flatten <+: s.stream x.1 := by
    intro x hx
    rcases List.mem_cons.mp hx with rfl | hx
    · rw [hzero]
      exact ⟨[0, 0, 0, 9, 0, 0], by decide⟩
    · obtain rfl := List.mem_singleton.mp hx
      rw [hone]
      exact ⟨[], by decide⟩
  have hwhole : ∀ x ∈ history.dropLast, ∃ packets : List VideoPacket,
      x.2.flatten = packets.flatMap VideoPacket.bytes := by
    intro x hx
    obtain rfl := List.mem_singleton.mp hx
    exact ⟨[.ofByte 1], by decide⟩
  have hmessages : [[0, 1], [0, 3]] = (videoAfter (history.map Prod.snd)).app.messages := by
    decide
  have hpage := phone_to_page Handlers.defaultConfig hsessions
    ⟨IpcSocket.initial, threeFrames, rfl, hrun⟩ hqueued history hread (by decide) hwhole
    WebSockets.videoRetries ⟨WebSockets.initial, [.openTab, .upgrade 0, .broadcast [0, 1],
      .closing 0, .close 0, .broadcast [0, 3]], rfl, rfl⟩ hmessages
  rw [List.flatMap_singleton, hsent] at hpage
  exact ⟨_, rfl, rfl, hpage⟩

end Whutfa
