import Whutfa.IpcSocket
import Whutfa.StreamBuffer
import Whutfa.VideoPlayer

/-! # The video pipeline

A frame on its way from the phone to the decoder: `queue_video` and the send thread of
the video socket (`aa-handler/src/ipc_bridge.cpp`), the server's reader and
`broadcastVideo` (`server/src/index.ts`), the viewer's WebSocket, and the player
(`frontend/app.js`).  Frames are numbered in the order in which the phone sends them.
The server connects at any time, and reads as many bytes at a time as it happens to.  When
it goes away or is replaced, what it has not read is lost; its reader outlives the
connection, with what it holds.  A connection is known by itself and not by the number of
its descriptor.  One page is the viewer, and it does not come back.

Every stage keeps the order, and every stage may drop a frame: there is no client, the
queue is full, the connection ends, there is no viewer, or the page's handler passes the
frame over.  No stage then waits for a key frame, so that a delta frame may be decoded
without the frame before it; but only if that one has been dropped
(`preceded_unless_dropped`).  Connections that end while the reader holds a part of a
packet are left out: the reader would put that part together with the next connection's
bytes (`reconnect_frames_iff`).
-/
namespace Whutfa.VideoPipeline

open VideoPlayer (Player Chunk ChunkType Surroundings)

/-- A frame on its way to the server, with its place in the phone's stream. -/
structure Item where
  index : Nat
  packet : VideoPacket

/-- The bytes of packets, one after the other. -/
def bytes (items : List Item) : List UInt8 := items.flatMap fun item => item.packet.bytes

/-- The viewer's WebSocket. -/
inductive Viewer
  | absent
  | connected
  | gone
  deriving DecidableEq

/-- The frames on their way from the phone to the page's decoder. -/
structure Pipeline where
  /-- The frames that the phone has sent. -/
  sent : List VideoPacket
  /-- Whether the video socket has a client. -/
  client : Bool
  txQueue : List Item
  /-- The bytes that have been written to the socket and not read by the server. -/
  wire : List UInt8
  /-- The buffer of `videoReader`, which one connection leaves to the next. -/
  reader : List UInt8
  /-- The frames that have been written and that the reader has not delivered. -/
  inFlight : List Item
  viewer : Viewer
  /-- Messages on their way to the page. -/
  messages : List (Nat × List UInt8)
  player : Player Nat
  /-- The frames that have been dropped. -/
  dropped : List Nat

/-- No frame has been sent, and nobody is connected. -/
def initial : Pipeline :=
  { sent := []
    client := false
    txQueue := []
    wire := []
    reader := []
    inFlight := []
    viewer := .absent
    messages := []
    player := VideoPlayer.initDecoder
    dropped := [] }

/-- What moves a frame on, or does away with it. -/
inductive Action
  /-- The phone sends a frame, and `queue_video` is called. -/
  | queueVideo (packet : VideoPacket)
  /-- The server connects, in place of an earlier connection if there is one. -/
  | connect
  /-- The connection ends. -/
  | disconnect
  /-- The send thread takes a packet and writes it. -/
  | send
  /-- The server reads at most `n` bytes. -/
  | receive (n : Nat)
  | viewerConnects
  /-- The viewer's socket closes, and its messages are lost. -/
  | viewerLeaves
  /-- The page's handler gets a message. -/
  | message (env : Surroundings)
  /-- The decoder outputs a frame. -/
  | output
  /-- The decoder fails. -/
  | error

/-- `queue_video`. -/
def queueVideo (s : Pipeline) (packet : VideoPacket) : Pipeline :=
  if s.client then
    let pops := (IpcSocket.makeRoom SocketName.video.maxQueue s.txQueue).1
    let queue := (IpcSocket.makeRoom SocketName.video.maxQueue s.txQueue).2
    { s with
      sent := s.sent ++ [packet]
      txQueue := queue ++ [{ index := s.sent.length, packet }]
      dropped := s.dropped ++ (s.txQueue.take pops).map Item.index }
  else { s with sent := s.sent ++ [packet], dropped := s.dropped ++ [s.sent.length] }

/-- A connection begins or ends: what is on the wire is lost, and the reader stays. -/
def reconnect (s : Pipeline) (client : Bool) : Pipeline :=
  { s with client, wire := [], inFlight := [], dropped := s.dropped ++ s.inFlight.map Item.index }

/-- The callback of `videoReader.push`, and `broadcastVideo`.  The payload counts as that of
the first frame in flight, which it is while the reader is in step with the packets. -/
def broadcastVideo (s : Pipeline) (payload : List UInt8) : Pipeline :=
  let index := (s.inFlight.head?.map Item.index).getD s.sent.length
  match parseVideoPayload payload, s.viewer with
  | .ok (some frame), .connected =>
      { s with inFlight := s.inFlight.tail
               messages := s.messages ++ [(index, packVideoForWs frame)] }
  | _, _ => { s with inFlight := s.inFlight.tail, dropped := s.dropped ++ [index] }

/-- The server's reader gets a chunk. -/
def receive (s : Pipeline) (n : Nat) : Pipeline :=
  let pushed := lengthPrefixedReader.push s.reader (s.wire.take n)
  pushed.1.foldl broadcastVideo { s with wire := s.wire.drop n, reader := pushed.2 }

/-- The page's handler: a frame that it does not pass to the decoder is dropped. -/
def onmessage (s : Pipeline) (env : Surroundings) (index : Nat) (message : List UInt8) :
    Pipeline :=
  let player := VideoPlayer.onmessage s.player env index message
  { s with
    player
    dropped := if player.decoded.length = s.player.decoded.length then s.dropped ++ [index]
      else s.dropped }

/-- One step; nothing is written without a client. -/
def step (s : Pipeline) : Action → Option Pipeline
  | .queueVideo packet => some (queueVideo s packet)
  | .connect => some (reconnect s true)
  | .disconnect => some (reconnect s false)
  | .send =>
      match s.client, s.txQueue with
      | true, item :: queue =>
          some { s with txQueue := queue, wire := s.wire ++ item.packet.bytes
                        inFlight := s.inFlight ++ [item] }
      | _, _ => none
  | .receive n => some (receive s n)
  | .viewerConnects =>
      if s.viewer = .absent then some { s with viewer := .connected } else none
  | .viewerLeaves =>
      some { s with
        viewer := .gone, messages := [], dropped := s.dropped ++ s.messages.map Prod.fst }
  | .message env =>
      match s.messages with
      | (index, message) :: messages => some (onmessage { s with messages } env index message)
      | [] => none
  | .output => some { s with player := VideoPlayer.output s.player }
  | .error => some { s with player := VideoPlayer.error s.player }

/-- The connection begins or ends while the reader holds no part of a packet. -/
def BetweenPackets (s : Pipeline) : Action → Prop
  | .connect | .disconnect => s.reader = []
  | _ => True

/-- The frames that have not been dropped, from the decoder's input backwards. -/
def line (s : Pipeline) : List Nat :=
  s.player.decoded.map Chunk.frame ++ (s.messages.map Prod.fst ++
    (s.inFlight.map Item.index ++ s.txQueue.map Item.index))

/-- What a step does to the frames: some in a row are dropped from the line, and one may
be sent, to the end of the line or to be dropped at once. -/
def Moves (s t : Pipeline) : Prop :=
  ∃ ahead lost behind joined refused, line s = ahead ++ lost ++ behind ∧
    line t = ahead ++ behind ++ joined ∧ t.dropped = s.dropped ++ lost ++ refused ∧
    ((joined = [] ∧ refused = [] ∧ t.sent = s.sent) ∨
      (joined ++ refused = [s.sent.length] ∧ ∃ packet, t.sent = s.sent ++ [packet]))

/-- Frames are dropped, and none is sent. -/
theorem moves_of_lost {s t : Pipeline} (ahead lost behind : List Nat)
    (hs : line s = ahead ++ lost ++ behind) (ht : line t = ahead ++ behind)
    (hdropped : t.dropped = s.dropped ++ lost) (hsent : t.sent = s.sent) : Moves s t :=
  ⟨ahead, lost, behind, [], [], hs, ht.trans (List.append_nil _).symm,
    hdropped.trans (List.append_nil _).symm, Or.inl ⟨rfl, rfl, hsent⟩⟩

/-- Frames stay in line. -/
theorem moves_of_eq {s t : Pipeline} (hline : line t = line s) (hdropped : t.dropped = s.dropped)
    (hsent : t.sent = s.sent) : Moves s t :=
  moves_of_lost (line s) [] [] (by simp) (by simpa using hline) (by simpa using hdropped) hsent

theorem moves_queueVideo (s : Pipeline) (packet : VideoPacket) :
    Moves s (queueVideo s packet) := by
  unfold queueVideo
  by_cases hclient : s.client = true
  · -- the oldest packets make room
    rw [if_pos hclient, IpcSocket.makeRoom_eq SocketName.video.maxQueue_pos]
    generalize s.txQueue.length + 1 - SocketName.video.maxQueue = pops
    have hqueue : s.txQueue.map Item.index =
        (s.txQueue.take pops).map Item.index ++ (s.txQueue.drop pops).map Item.index := by
      rw [← List.map_append, List.take_append_drop]
    refine ⟨s.player.decoded.map Chunk.frame ++ (s.messages.map Prod.fst ++
      s.inFlight.map Item.index), (s.txQueue.take pops).map Item.index,
      (s.txQueue.drop pops).map Item.index, [s.sent.length], [], ?_, ?_, ?_,
      Or.inr ⟨rfl, packet, rfl⟩⟩
    · rw [line, hqueue]
      simp only [List.append_assoc]
    · simp only [line, List.map_append, List.map_cons, List.map_nil, List.append_assoc]
    · rw [List.append_nil]
  · rw [if_neg hclient]
    exact ⟨line s, [], [], [], [s.sent.length], by simp, by simp [line], by simp,
      Or.inr ⟨rfl, packet, rfl⟩⟩

theorem moves_reconnect (s : Pipeline) (client : Bool) : Moves s (reconnect s client) :=
  moves_of_lost (s.player.decoded.map Chunk.frame ++ s.messages.map Prod.fst)
    (s.inFlight.map Item.index) (s.txQueue.map Item.index) (by simp [line])
    (by simp [line, reconnect]) rfl rfl

theorem moves_viewerLeaves (s : Pipeline) :
    Moves s { s with
      viewer := .gone, messages := [], dropped := s.dropped ++ s.messages.map Prod.fst } :=
  moves_of_lost (s.player.decoded.map Chunk.frame) (s.messages.map Prod.fst)
    (s.inFlight.map Item.index ++ s.txQueue.map Item.index) (by simp [line]) (by simp [line])
    rfl rfl

/-- The payload of the first frame in flight makes a message, or the frame is dropped. -/
theorem broadcastVideo_cases {s : Pipeline} {item : Item} {inFlight : List Item}
    (hfirst : s.inFlight = item :: inFlight) :
    broadcastVideo s item.packet.payload = { s with
        inFlight, messages := s.messages ++ [(item.index, packVideoForWs item.packet.frame)] } ∨
      broadcastVideo s item.packet.payload = { s with
        inFlight, dropped := s.dropped ++ [item.index] } := by
  unfold broadcastVideo
  rw [item.packet.parse_payload, hfirst]
  cases s.viewer with
  | connected => exact Or.inl rfl
  | absent => exact Or.inr rfl
  | gone => exact Or.inr rfl

theorem moves_broadcastVideo {s : Pipeline} {item : Item} {inFlight : List Item}
    (hfirst : s.inFlight = item :: inFlight) :
    Moves s (broadcastVideo s item.packet.payload) := by
  rcases broadcastVideo_cases hfirst with heq | heq
  · rw [heq]
    exact moves_of_eq (by simp [line, hfirst]) rfl rfl
  · rw [heq]
    exact moves_of_lost (s.player.decoded.map Chunk.frame ++ s.messages.map Prod.fst) [item.index]
      (inFlight.map Item.index ++ s.txQueue.map Item.index) (by simp [line, hfirst])
      (by simp [line]) rfl rfl

/-- The page's handler passes a frame on, as the last of the decoder's input, or drops
it. -/
theorem onmessage_cases (s : Pipeline) (env : Surroundings) (index : Nat)
    (message : List UInt8) :
    (∃ player : Player Nat, player.decoded = s.player.decoded ∧
      onmessage s env index message = { s with player, dropped := s.dropped ++ [index] }) ∨
    ∃ (player : Player Nat) (chunk : Chunk Nat), player.decoded = s.player.decoded ++ [chunk] ∧
      chunk.frame = index ∧ chunk.data = message.drop 1 ∧
      onmessage s env index message = { s with player } := by
  unfold onmessage
  rcases VideoPlayer.onmessage_cases s.player env index message with heq | ⟨q, hq, -, heq⟩ |
    ⟨q, hq, -, heq⟩
  · refine Or.inl ⟨s.player, rfl, ?_⟩
    simp only [heq, if_true]
  · have hdecoded := VideoPlayer.prepare_decoded hq
    refine Or.inl ⟨q, hdecoded, ?_⟩
    simp only [heq, hdecoded, if_true]
  · have hdecoded : (VideoPlayer.submit q index message).decoded = s.player.decoded ++ [_] :=
      congrArg (· ++ [_]) (VideoPlayer.prepare_decoded hq)
    refine Or.inr ⟨VideoPlayer.submit q index message, _, hdecoded, rfl, rfl, ?_⟩
    have hlength : (VideoPlayer.submit q index message).decoded.length ≠
        s.player.decoded.length := by
      rw [hdecoded, List.length_append]
      exact Nat.succ_ne_self _
    simp only [heq, if_neg hlength]

theorem moves_onmessage {s : Pipeline} {env : Surroundings} {index : Nat} {message : List UInt8}
    {messages : List (Nat × List UInt8)} (hmessages : s.messages = (index, message) :: messages) :
    Moves s (onmessage { s with messages } env index message) := by
  rcases onmessage_cases { s with messages } env index message with ⟨player, hplayer, heq⟩ |
    ⟨player, chunk, hplayer, hframe, -, heq⟩
  · rw [heq]
    exact moves_of_lost (s.player.decoded.map Chunk.frame) [index] (messages.map Prod.fst ++
      (s.inFlight.map Item.index ++ s.txQueue.map Item.index)) (by simp [line, hmessages])
      (by simp [line, hplayer]) rfl rfl
  · rw [heq]
    exact moves_of_eq (by simp [line, hmessages, hplayer, hframe]) rfl rfl

/-! ## Every frame has its place -/

/-- The frames stand in line in order; each that has been sent is in line or dropped, and
not both. -/
structure Placed (line dropped : List Nat) (sent : Nat) : Prop where
  sorted : line.Pairwise (· < ·)
  sent_iff : ∀ i, i < sent ↔ i ∈ line ∨ i ∈ dropped
  apart : ∀ i ∈ dropped, i ∉ line

theorem Placed.lose {ahead lost behind dropped : List Nat} {sent : Nat}
    (h : Placed (ahead ++ lost ++ behind) dropped sent) :
    Placed (ahead ++ behind) (dropped ++ lost) sent := by
  have hsorted := h.sorted
  rw [List.append_assoc, List.pairwise_append, List.pairwise_append] at hsorted
  obtain ⟨hahead, ⟨-, hbehind, hlost_behind⟩, hbefore⟩ := hsorted
  refine ⟨List.pairwise_append.mpr ⟨hahead, hbehind, fun i hi j hj =>
    hbefore i hi j (List.mem_append_right _ hj)⟩, fun i => ?_, fun i hi hmem => ?_⟩
  · rw [h.sent_iff]
    simp only [List.mem_append]
    tauto
  · rcases List.mem_append.mp hi with hi | hi
    · refine h.apart i hi ?_
      simp only [List.mem_append] at hmem ⊢
      tauto
    · rcases List.mem_append.mp hmem with hmem | hmem
      · exact absurd (hbefore i hmem i (List.mem_append_left _ hi)) (lt_irrefl i)
      · exact absurd (hlost_behind i hi i hmem) (lt_irrefl i)

/-- A frame that has not been sent has no place. -/
theorem Placed.not_mem {line dropped : List Nat} {sent : Nat} (h : Placed line dropped sent) :
    sent ∉ line ∧ sent ∉ dropped :=
  ⟨fun hmem => lt_irrefl sent ((h.sent_iff sent).mpr (Or.inl hmem)),
    fun hmem => lt_irrefl sent ((h.sent_iff sent).mpr (Or.inr hmem))⟩

theorem Placed.join {line dropped : List Nat} {sent : Nat} (h : Placed line dropped sent) :
    Placed (line ++ [sent]) dropped (sent + 1) := by
  refine ⟨List.pairwise_append.mpr ⟨h.sorted, List.pairwise_singleton _ _, ?_⟩, fun i => ?_,
    fun i hi hmem => ?_⟩
  · intro i hi j hj
    rw [List.mem_singleton.mp hj]
    exact (h.sent_iff i).mpr (Or.inl hi)
  · rw [Nat.lt_succ_iff_lt_or_eq, h.sent_iff, List.mem_append, List.mem_singleton]
    tauto
  · rcases List.mem_append.mp hmem with hmem | hmem
    · exact h.apart i hi hmem
    · exact h.not_mem.2 (List.mem_singleton.mp hmem ▸ hi)

theorem Placed.refuse {line dropped : List Nat} {sent : Nat} (h : Placed line dropped sent) :
    Placed line (dropped ++ [sent]) (sent + 1) := by
  refine ⟨h.sorted, fun i => ?_, fun i hi hmem => ?_⟩
  · rw [Nat.lt_succ_iff_lt_or_eq, h.sent_iff, List.mem_append, List.mem_singleton]
    tauto
  · rcases List.mem_append.mp hi with hi | hi
    · exact h.apart i hi hmem
    · exact h.not_mem.1 (List.mem_singleton.mp hi ▸ hmem)

/-- Each frame sent is in line or dropped. -/
def InLine (s : Pipeline) : Prop := Placed (line s) s.dropped s.sent.length

theorem inLine_moves {s t : Pipeline} (h : InLine s) (hmoves : Moves s t) : InLine t := by
  obtain ⟨ahead, lost, behind, joined, refused, hs, ht, hdropped, hcases⟩ := hmoves
  unfold InLine at h ⊢
  rw [hs] at h
  have hlost := h.lose
  rw [ht, hdropped]
  rcases hcases with ⟨rfl, rfl, hsent⟩ | ⟨heq, packet, hsent⟩
  · rw [hsent, List.append_nil, List.append_nil]
    exact hlost
  · rw [hsent, List.length_append, List.length_singleton]
    rcases List.append_eq_singleton_iff.mp heq with ⟨rfl, rfl⟩ | ⟨rfl, rfl⟩
    · rw [List.append_nil]
      exact hlost.refuse
    · rw [List.append_nil]
      exact hlost.join

/-! ## Every stage carries the phone's frames -/

/-- What is under way and what has been decoded are the bytes of the frames that the phone
has sent under their numbers. -/
structure Carried (s : Pipeline) : Prop where
  items : ∀ item ∈ s.inFlight ++ s.txQueue, s.sent[item.index]? = some item.packet
  messages : ∀ m ∈ s.messages, ∃ packet, s.sent[m.1]? = some packet ∧
    m.2 = packVideoForWs packet.frame
  decoded : ∀ chunk ∈ s.player.decoded, ∃ packet, s.sent[chunk.frame]? = some packet ∧
    chunk.data = packet.data

/-- Something is taken away. -/
theorem Carried.of_subset {s t : Pipeline} (h : Carried s) (hsent : t.sent = s.sent)
    (hitems : t.inFlight ++ t.txQueue ⊆ s.inFlight ++ s.txQueue)
    (hmessages : t.messages ⊆ s.messages) (hdecoded : t.player.decoded = s.player.decoded) :
    Carried t where
  items := fun item hmem => hsent ▸ h.items item (hitems hmem)
  messages := fun m hmem => hsent ▸ h.messages m (hmessages hmem)
  decoded := fun chunk hmem => hsent ▸ h.decoded chunk (hdecoded ▸ hmem)

/-- The phone sends a frame more. -/
theorem Carried.sends {s : Pipeline} (h : Carried s) (packet : VideoPacket) (dropped : List Nat) :
    Carried { s with sent := s.sent ++ [packet], dropped } := by
  have hkept : ∀ {i : Nat} {p : VideoPacket}, s.sent[i]? = some p →
      (s.sent ++ [packet])[i]? = some p := fun hi =>
    (List.getElem?_append_left (List.getElem?_eq_some_iff.mp hi).1).trans hi
  exact {
    items := fun item hmem => hkept (h.items item hmem)
    messages := fun m hmem => (h.messages m hmem).imp fun _ hp => hp.imp_left hkept
    decoded := fun chunk hmem => (h.decoded chunk hmem).imp fun _ hp => hp.imp_left hkept }

theorem carried_queueVideo {s : Pipeline} (h : Carried s) (packet : VideoPacket) :
    Carried (queueVideo s packet) := by
  unfold queueVideo
  by_cases hclient : s.client = true
  · rw [if_pos hclient, IpcSocket.makeRoom_eq SocketName.video.maxQueue_pos]
    generalize s.txQueue.length + 1 - SocketName.video.maxQueue = pops
    have hsends := h.sends packet (s.dropped ++ (s.txQueue.take pops).map Item.index)
    refine ⟨fun item hmem => ?_, hsends.messages, hsends.decoded⟩
    rcases List.mem_append.mp hmem with hflight | hqueue
    · exact hsends.items item (List.mem_append_left _ hflight)
    · rcases List.mem_append.mp hqueue with hold | hnew
      · exact hsends.items item (List.mem_append_right _ (List.mem_of_mem_drop hold))
      · obtain rfl := List.mem_singleton.mp hnew
        exact List.getElem?_concat_length
  · rw [if_neg hclient]
    exact h.sends packet _

theorem carried_broadcastVideo {s : Pipeline} {item : Item} {inFlight : List Item}
    (h : Carried s) (hfirst : s.inFlight = item :: inFlight) :
    Carried (broadcastVideo s item.packet.payload) := by
  have hless : inFlight ++ s.txQueue ⊆ s.inFlight ++ s.txQueue := by
    rw [hfirst]
    exact List.subset_cons_self _ _
  rcases broadcastVideo_cases hfirst with heq | heq
  · rw [heq]
    have hrest : Carried { s with inFlight } := h.of_subset rfl hless (fun _ => id) rfl
    refine ⟨hrest.items, fun m hmem => ?_, hrest.decoded⟩
    rcases List.mem_append.mp hmem with hold | hnew
    · exact h.messages m hold
    · obtain rfl := List.mem_singleton.mp hnew
      have hitem : item ∈ s.inFlight ++ s.txQueue := by
        rw [hfirst]
        exact List.mem_cons_self
      exact ⟨item.packet, h.items item hitem, rfl⟩
  · rw [heq]
    exact h.of_subset rfl hless (fun _ => id) rfl

theorem carried_onmessage {s : Pipeline} {env : Surroundings} {index : Nat}
    {message : List UInt8} {messages : List (Nat × List UInt8)} (h : Carried s)
    (hmessages : s.messages = (index, message) :: messages) :
    Carried (onmessage { s with messages } env index message) := by
  have hless : messages ⊆ s.messages := by
    rw [hmessages]
    exact List.subset_cons_self _ _
  rcases onmessage_cases { s with messages } env index message with ⟨player, hplayer, heq⟩ |
    ⟨player, chunk, hplayer, hframe, hdata, heq⟩
  · rw [heq]
    exact h.of_subset rfl (fun _ => id) hless hplayer
  · rw [heq]
    refine ⟨h.items, fun m hmem => h.messages m (hless hmem), fun other hmem => ?_⟩
    rw [hplayer] at hmem
    rcases List.mem_append.mp hmem with hold | hnew
    · exact h.decoded other hold
    · obtain rfl := List.mem_singleton.mp hnew
      obtain ⟨packet, hpacket, hmessage⟩ :=
        h.messages (index, message) (hmessages ▸ List.mem_cons_self)
      have hbytes : message = packVideoForWs packet.frame := hmessage
      refine ⟨packet, hframe ▸ hpacket, ?_⟩
      rw [hdata, hbytes]
      rfl

/-! ## Every step -/

/-- What the reader holds and what it has not read are the packets in flight. -/
structure Inv (s : Pipeline) : Prop where
  inLine : InLine s
  carried : Carried s
  framed : s.reader ++ s.wire = bytes s.inFlight

theorem inv_initial : Inv initial where
  inLine := ⟨List.Pairwise.nil, by simp [initial, line, VideoPlayer.initDecoder], nofun⟩
  carried := ⟨nofun, nofun, nofun⟩
  framed := rfl

/-- The payloads of the first frames in flight are delivered. -/
theorem delivered {s : Pipeline} (hline : InLine s) (hcarried : Carried s) (k : Nat) :
    let t := ((s.inFlight.take k).map fun item => item.packet.payload).foldl broadcastVideo s
    InLine t ∧ Carried t ∧ t.inFlight = s.inFlight.drop k ∧ t.reader = s.reader ∧
      t.wire = s.wire := by
  induction k generalizing s with
  | zero => exact ⟨hline, hcarried, rfl, rfl, rfl⟩
  | succ k ih =>
    cases hfirst : s.inFlight with
    | nil => exact ⟨hline, hcarried, hfirst, rfl, rfl⟩
    | cons item inFlight =>
      have hline' := inLine_moves hline (moves_broadcastVideo hfirst)
      have hcarried' := carried_broadcastVideo hcarried hfirst
      have hrest : (broadcastVideo s item.packet.payload).inFlight = inFlight ∧
          (broadcastVideo s item.packet.payload).reader = s.reader ∧
          (broadcastVideo s item.packet.payload).wire = s.wire := by
        rcases broadcastVideo_cases hfirst with heq | heq <;> rw [heq] <;> exact ⟨rfl, rfl, rfl⟩
      have hlater := ih hline' hcarried'
      rw [hrest.1, hrest.2.1, hrest.2.2] at hlater
      exact hlater

theorem Inv.receive {s : Pipeline} (h : Inv s) (n : Nat) : Inv (receive s n) := by
  have hstream : (s.reader ++ s.wire.take n) ++ s.wire.drop n =
      s.inFlight.flatMap fun item => item.packet.bytes := by
    rw [List.append_assoc, List.take_append_drop]
    exact h.framed
  obtain ⟨k, rest, hdrains, hrest⟩ := Deframer.Drains.encoded_prefix
    (fun (item : Item) _ r => lengthPrefixedReader_next_packet item.packet r)
    lengthPrefixedReader_nil hstream
  have hpush : lengthPrefixedReader.push s.reader (s.wire.take n) =
      ((s.inFlight.take k).map fun item => item.packet.payload, rest) := hdrains.drain_eq
  obtain ⟨hline, hcarried, hinFlight, hreader, hwire⟩ := delivered
    (s := { s with wire := s.wire.drop n, reader := rest }) h.inLine
    (h.carried.of_subset rfl (fun _ => id) (fun _ => id) rfl) k
  unfold VideoPipeline.receive
  rw [hpush]
  refine ⟨hline, hcarried, ?_⟩
  rw [hreader, hwire, hinFlight]
  exact hrest

theorem Inv.reconnect {s : Pipeline} (h : Inv s) (hreader : s.reader = []) (client : Bool) :
    Inv (reconnect s client) where
  inLine := inLine_moves h.inLine (moves_reconnect s client)
  carried := h.carried.of_subset rfl (List.subset_append_right _ _) (fun _ => id) rfl
  framed := congrArg (· ++ []) hreader

theorem inv_step {s t : Pipeline} {a : Action} (h : Inv s) (hbetween : BetweenPackets s a)
    (hstep : step s a = some t) : Inv t := by
  cases a with
  | queueVideo packet =>
    obtain rfl := Option.some.inj hstep
    refine ⟨inLine_moves h.inLine (moves_queueVideo s packet),
      carried_queueVideo h.carried packet, ?_⟩
    unfold queueVideo
    split <;> exact h.framed
  | connect =>
    obtain rfl := Option.some.inj hstep
    exact h.reconnect hbetween true
  | disconnect =>
    obtain rfl := Option.some.inj hstep
    exact h.reconnect hbetween false
  | send =>
    simp only [step] at hstep
    split at hstep
    · rename_i item queue _ hqueue
      obtain rfl := Option.some.inj hstep
      refine ⟨inLine_moves h.inLine (moves_of_eq (by simp [line, hqueue]) rfl rfl),
        h.carried.of_subset rfl (fun other hmem => ?_) (fun _ => id) rfl, ?_⟩
      · rw [hqueue]
        simpa using hmem
      · show s.reader ++ (s.wire ++ item.packet.bytes) = bytes (s.inFlight ++ [item])
        rw [← List.append_assoc, h.framed, bytes, bytes, List.flatMap_append,
          List.flatMap_singleton]
    · cases hstep
  | receive n =>
    obtain rfl := Option.some.inj hstep
    exact h.receive n
  | viewerConnects =>
    obtain ⟨-, ht⟩ := Option.ite_none_right_eq_some.mp hstep
    obtain rfl := Option.some.inj ht
    exact ⟨inLine_moves h.inLine (moves_of_eq rfl rfl rfl),
      h.carried.of_subset rfl (fun _ => id) (fun _ => id) rfl, h.framed⟩
  | viewerLeaves =>
    obtain rfl := Option.some.inj hstep
    exact ⟨inLine_moves h.inLine (moves_viewerLeaves s),
      h.carried.of_subset rfl (fun _ => id) (List.nil_subset _) rfl, h.framed⟩
  | message env =>
    simp only [step] at hstep
    split at hstep
    · rename_i index message messages hmessages
      obtain rfl := Option.some.inj hstep
      exact ⟨inLine_moves h.inLine (moves_onmessage hmessages),
        carried_onmessage h.carried hmessages, h.framed⟩
    · cases hstep
  | output =>
    obtain rfl := Option.some.inj hstep
    exact ⟨inLine_moves h.inLine (moves_of_eq rfl rfl rfl),
      h.carried.of_subset rfl (fun _ => id) (fun _ => id) rfl, h.framed⟩
  | error =>
    obtain rfl := Option.some.inj hstep
    exact ⟨inLine_moves h.inLine (moves_of_eq rfl rfl rfl),
      h.carried.of_subset rfl (fun _ => id) (fun _ => id) rfl, h.framed⟩

/-! ## What the decoder gets -/

/-- In an increasing list that holds `n`, the place before that of `n + 1` is the one of
`n`. -/
theorem getElem?_pred {xs : List Nat} (h : xs.Pairwise (· < ·)) {k n : Nat}
    (hk : xs[k]? = some (n + 1)) (hmem : n ∈ xs) : ∃ j, k = j + 1 ∧ xs[j]? = some n := by
  obtain ⟨j, hj, hjn⟩ := List.getElem_of_mem hmem
  obtain ⟨hklt, hkn⟩ := List.getElem?_eq_some_iff.mp hk
  rw [List.pairwise_iff_getElem] at h
  have hjk : j < k := by
    rcases Nat.lt_trichotomy j k with hlt | rfl | hlt
    · exact hlt
    · omega
    · have := h k j hklt hj hlt
      omega
  refine ⟨j, ?_, by rw [List.getElem?_eq_getElem hj, hjn]⟩
  by_contra hne
  -- something would have to fit between `n` and `n + 1`
  have hbelow := h j (j + 1) hj (by omega) (Nat.lt_succ_self j)
  have habove := h (j + 1) k (by omega) hklt (by omega)
  omega

/-- The chunk at `k` comes right after the chunk of the frame before it. -/
def FollowsPredecessor (decoded : List (Chunk Nat)) (k : Nat) (chunk : Chunk Nat) : Prop :=
  ∃ j prev, k = j + 1 ∧ decoded[j]? = some prev ∧ prev.frame + 1 = chunk.frame

/-- The chunks are the phone's frames, in the phone's order, none that has been dropped is
among them, and each but the phone's first follows its predecessor, unless that has been
dropped. -/
structure PrecededUnlessDropped (s : Pipeline) : Prop where
  frames : ∀ chunk ∈ s.player.decoded, ∃ packet, s.sent[chunk.frame]? = some packet ∧
    chunk.data = packet.data
  inOrder : (s.player.decoded.map Chunk.frame).Pairwise (· < ·)
  notDropped : ∀ chunk ∈ s.player.decoded, chunk.frame ∉ s.dropped
  preceded : ∀ k chunk n, s.player.decoded[k]? = some chunk → chunk.frame = n + 1 →
    n ∈ s.dropped ∨ FollowsPredecessor s.player.decoded k chunk

theorem Inv.precededUnlessDropped {s : Pipeline} (h : Inv s) : PrecededUnlessDropped s := by
  have hdecoded : ∀ {k : Nat}, k < s.player.decoded.length →
      (line s)[k]? = (s.player.decoded.map Chunk.frame)[k]? := fun hk =>
    List.getElem?_append_left (by simpa using hk)
  have hline := h.inLine
  refine ⟨h.carried.decoded, (List.pairwise_append.mp hline.sorted).1,
    fun chunk hmem hdropped => ?_, fun k chunk n hk hframe => ?_⟩
  · exact hline.apart _ hdropped (List.mem_append_left _ (List.mem_map_of_mem hmem))
  · have hklt := (List.getElem?_eq_some_iff.mp hk).1
    have hkline : (line s)[k]? = some (n + 1) := by
      rw [hdecoded hklt, List.getElem?_map, hk, Option.map_some, hframe]
    have hsent : n < s.sent.length :=
      Nat.lt_of_succ_lt ((hline.sent_iff (n + 1)).mpr (Or.inl (List.mem_of_getElem? hkline)))
    rcases (hline.sent_iff n).mp hsent with hmem | hdropped
    · obtain ⟨j, rfl, hj⟩ := getElem?_pred hline.sorted hkline hmem
      have hjlt : j < s.player.decoded.length := Nat.lt_of_succ_lt hklt
      rw [hdecoded hjlt, List.getElem?_map] at hj
      obtain ⟨prev, hprev, hframe'⟩ := Option.map_eq_some_iff.mp hj
      exact Or.inr ⟨j, prev, rfl, hprev, by rw [hframe', hframe]⟩
    · exact Or.inl hdropped

/-- **A frame follows its predecessor unless that was dropped.**  Throughout every run of the
pipeline in which connections begin and end between two packets, with any frames, cuts,
overflows, losses and timing of the decoder, the frames are submitted with their own bytes
and in the phone's order, and each delta frame, and each key frame, comes right after the
frame that preceded it in the phone's stream, unless that one was dropped on the way. -/
theorem preceded_unless_dropped (actions : List Action)
    (hbetween : Transition.Meets step BetweenPackets initial actions) :
    Transition.Throughout step PrecededUnlessDropped initial actions :=
  Transition.throughout_of_meets (I := Inv) (fun _ h => h.precededUnlessDropped)
    (fun _ _ _ => inv_step) inv_initial hbetween

/-- A frame with parameter sets. -/
def keyPacket : VideoPacket := ⟨0, VideoPlayer.keyFrame.annexB, by decide⟩

/-- A frame that refers to another. -/
def deltaPacket : VideoPacket := ⟨1, [0, 0, 0, 1, 0x41, 0x9a], by decide⟩

/-- The page has a size, and the decoder accepts what it is given. -/
def env : Surroundings := { aaWidth := 1280, aaHeight := 720, accepts := true }

/-- A key frame is decoded; the server goes away before it has read the next frame, and comes
back for the one after that. -/
def reconnecting : List Action :=
  [.connect, .viewerConnects, .queueVideo keyPacket, .send, .receive 9, .receive 65536,
    .message env, .queueVideo deltaPacket, .send, .disconnect, .connect, .queueVideo deltaPacket,
    .send, .receive 65536, .message env]

theorem preceded_reconnecting :
    (∃ s, Transition.run step initial reconnecting = some s ∧
      s.player.decoded.map Chunk.frame = [0, 2] ∧ s.dropped = [1]) ∧
      Transition.Throughout step PrecededUnlessDropped initial reconnecting := by
  refine ⟨⟨_, rfl, rfl, rfl⟩, preceded_unless_dropped reconnecting ?_⟩
  -- the reader is empty when the connections begin and end
  have hlast : ∀ s, Transition.Meets step BetweenPackets s
      [.queueVideo deltaPacket, .send, .receive 65536, .message env] := fun s _ _ =>
    ⟨trivial, fun _ _ => ⟨trivial, fun _ _ => ⟨trivial, fun _ _ => ⟨trivial, trivial⟩⟩⟩⟩
  refine Transition.meets_cons rfl rfl ?_
  refine Transition.meets_cons rfl trivial (Transition.meets_cons rfl trivial ?_)
  refine Transition.meets_cons rfl trivial (Transition.meets_cons rfl trivial ?_)
  refine Transition.meets_cons rfl trivial (Transition.meets_cons rfl trivial ?_)
  refine Transition.meets_cons rfl trivial (Transition.meets_cons rfl trivial ?_)
  exact Transition.meets_cons rfl rfl (Transition.meets_cons rfl rfl (hlast _))

/-- Every delta frame in the decoder's input follows its predecessor. -/
def DeltasFollow (s : Pipeline) : Prop :=
  ∀ k chunk, s.player.decoded[k]? = some chunk → chunk.type = .delta →
    FollowsPredecessor s.player.decoded k chunk

/-- A key frame reaches the decoder, then six delta frames come before the send thread has
written one: the queue has room for five, and the first of the six is dropped. -/
def overflowing : List Action :=
  [.connect, .viewerConnects, .queueVideo keyPacket, .send, .receive 9, .receive 65536,
    .message env] ++
    List.replicate 6 (.queueVideo deltaPacket) ++ [.send, .receive 65536, .message env]

/-- The second delta frame is decoded right after the key frame. -/
theorem delta_after_dropped :
    ∃ s, Transition.run step initial overflowing = some s ∧ ¬ DeltasFollow s := by
  obtain ⟨s, hrun, hdecoded⟩ : ∃ s, Transition.run step initial overflowing = some s ∧
      s.player.decoded.map (fun chunk => (chunk.frame, chunk.type)) = [(0, .key), (2, .delta)] :=
    ⟨_, rfl, rfl⟩
  obtain ⟨first, rest, hs, hfirst, hrest⟩ := List.map_eq_cons_iff.mp hdecoded
  obtain ⟨second, _, rfl, hsecond, -⟩ := List.map_eq_cons_iff.mp hrest
  refine ⟨s, hrun, fun h => ?_⟩
  obtain ⟨j, prev, hj, hprev, hframe⟩ :=
    h 1 second (by rw [hs]; rfl) (congrArg Prod.snd hsecond)
  obtain rfl : j = 0 := (Nat.succ.inj hj).symm
  rw [hs] at hprev
  obtain rfl : first = prev := Option.some.inj hprev
  rw [(Prod.mk.inj hfirst).1, (Prod.mk.inj hsecond).1] at hframe
  exact absurd hframe (by omega)

end Whutfa.VideoPipeline
