import Whutfa.H264
import Whutfa.IpcFraming
import Whutfa.NalUnits
import Whutfa.Transition

/-! # The browser's video player

`initDecoder`, `configureDecoder` and the message handler of `connectVideo`
(`frontend/app.js`).  A message is the key flag and the frame's bytes, as the server
packs them; the handler's one `await` does not let another message in between.  What the
browser decides is part of a step: whether `configure` accepts the configuration, and
when a frame is output or the decoder fails.  The chunks' timestamps are left out.

The decoder is configured with an `avcC` description, which makes its chunks AVC texts;
the chunks are the phone's Annex-B bytes.  So a chunk is read as the frame's own NAL units
only if these are single bytes (`decoded_units_iff`).
-/
namespace Whutfa.VideoPlayer

open H264 NalUnits

/-- The `state` of the `VideoDecoder`. -/
inductive DecoderState
  | unconfigured
  | configured
  | closed
  deriving DecidableEq

/-- The argument of `configure`. -/
structure DecoderConfig where
  codec : JsString
  codedWidth : Nat
  codedHeight : Nat
  description : List UInt8
  deriving DecidableEq

/-- The `type` of an `EncodedVideoChunk`. -/
inductive ChunkType
  | key
  | delta
  deriving DecidableEq

/-- A chunk passed to `decoder.decode`, with the frame it comes from and the decoder's
description. -/
structure Chunk (ι : Type*) where
  frame : ι
  type : ChunkType
  data : List UInt8
  description : List UInt8

/-- The page's decoder; frames are known by `ι`. -/
structure Player (ι : Type*) where
  state : DecoderState
  config : Option DecoderConfig
  pendingDecode : Nat
  decoded : List (Chunk ι)

/-- `initDecoder`. -/
def initDecoder {ι : Type*} : Player ι :=
  { state := .unconfigured, config := none, pendingDecode := 0, decoded := [] }

/-- `aaWidth` and `aaHeight`, and whether `configure` accepts: what the handler finds. -/
structure Surroundings where
  aaWidth : Nat
  aaHeight : Nat
  accepts : Bool

variable {ι : Type*}

/-- `configureDecoder`; `none` if `configure` throws. -/
def configureDecoder (p : Player ι) (env : Surroundings) (sets : ParameterSets) :
    Option (Player ι) :=
  match buildAvcDescription sets with
  | none => some p
  | some description =>
      if env.accepts then
        some { p with
          state := .configured
          config := some { codec := codecStringFromSps sets.sps, codedWidth := env.aaWidth
                           codedHeight := env.aaHeight, description } }
      else none

/-- The NAL units that the handler finds: `data.buffer` is the whole message, with the
flag. -/
def messageUnits (message : List UInt8) : List (List UInt8) := splitAnnexB message

/-- The handler up to its gate; `none` if it has returned or thrown. -/
def prepare (p : Player ι) (env : Surroundings) (message : List UInt8) : Option (Player ι) :=
  let units := messageUnits message
  if units = [] then none
  else
    let sets := extractSpsPps units
    if sets.sps.isSome ∧ sets.pps.isSome ∧ p.state = .unconfigured then
      configureDecoder p env sets
    else some p

/-- What the page takes for a key frame: the flag is set, or the units say so. -/
def isKey (message : List UInt8) : Bool :=
  message.head? == some 1 || isKeyframeAccessUnit (messageUnits message)

/-- Whether the frame gets past the gate to a decoder that is configured. -/
def admits (p : Player ι) (message : List UInt8) : Bool :=
  !(decide (2 < p.pendingDecode) && !isKey message) && p.state == .configured

/-- The rest of the handler. -/
def submit (p : Player ι) (frame : ι) (message : List UInt8) : Player ι :=
  { p with
    pendingDecode := p.pendingDecode + 1
    decoded := p.decoded ++
      [{ frame, type := if isKey message then .key else .delta, data := message.drop 1
         description := (p.config.map DecoderConfig.description).getD [] }] }

/-- The handler of a message. -/
def onmessage (p : Player ι) (env : Surroundings) (frame : ι) (message : List UInt8) :
    Player ι :=
  match prepare p env message with
  | none => p
  | some p => if admits p message then submit p frame message else p

/-- The decoder has output a frame. -/
def output (p : Player ι) : Player ι := { p with pendingDecode := p.pendingDecode - 1 }

/-- The decoder has failed. -/
def error (p : Player ι) : Player ι := { p with state := .closed }

/-! ## What a message does -/

theorem prepare_decoded {p q : Player ι} {env : Surroundings} {message : List UInt8}
    (h : prepare p env message = some q) : q.decoded = p.decoded := by
  obtain ⟨-, h⟩ := Option.ite_none_left_eq_some.mp h
  split at h
  · unfold configureDecoder at h
    split at h
    · exact Option.some.inj h ▸ rfl
    · obtain ⟨-, h⟩ := Option.ite_none_right_eq_some.mp h
      exact Option.some.inj h ▸ rfl
  · exact Option.some.inj h ▸ rfl

/-- A message leaves the decoder's input as it is, or adds its frame. -/
theorem onmessage_cases (p : Player ι) (env : Surroundings) (frame : ι)
    (message : List UInt8) :
    onmessage p env frame message = p ∨
    (∃ q, prepare p env message = some q ∧ admits q message = false ∧
      onmessage p env frame message = q) ∨
    ∃ q, prepare p env message = some q ∧ admits q message = true ∧
      onmessage p env frame message = submit q frame message := by
  unfold onmessage
  split
  · exact Or.inl rfl
  · rename_i q hq
    by_cases hadmits : admits q message = true
    · exact Or.inr (Or.inr ⟨q, hq, hadmits, if_pos hadmits⟩)
    · exact Or.inr (Or.inl ⟨q, hq, Bool.eq_false_of_not_eq_true hadmits, if_neg hadmits⟩)

/-! ## Frames in two formats -/

/-- The message that the server makes of a frame of the phone. -/
def wsMessage (timestampUs : Nat) (au : AccessUnit) : List UInt8 :=
  packVideoForWs { timestampUs, data := au.annexB, keyframe := detectKeyframe au.annexB }

/-- What happens to a page that is sent access units. -/
inductive Action
  | message (timestampUs : Nat) (au : AccessUnit) (env : Surroundings)
  | output
  | error

/-- The callback for it. -/
def step (p : Player AccessUnit) : Action → Option (Player AccessUnit)
  | .message timestampUs au env => some (onmessage p env au (wsMessage timestampUs au))
  | .output => some (output p)
  | .error => some (error p)

/-- The chunk, read in the format that its description declares, is the frame's NAL
units. -/
def ReadAsSent (chunk : Chunk AccessUnit) : Prop :=
  readAvc (lengthSize chunk.description) chunk.data = some chunk.frame.units

/-- A frame that is passed to the decoder consists of NAL units of one byte. -/
def SubmitsOneByteUnits (p : Player AccessUnit) (a : Action) : Prop :=
  ∀ timestampUs au env q, a = .message timestampUs au env →
    prepare p env (wsMessage timestampUs au) = some q →
    admits q (wsMessage timestampUs au) = true → au.OneByteUnits

/-- A configured decoder has a description, with lengths of four bytes. -/
def Described (p : Player ι) : Prop :=
  p.state = .configured → ∃ config, p.config = some config ∧ lengthSize config.description = 4

theorem Described.prepare {p q : Player ι} {env : Surroundings} {message : List UInt8}
    (h : Described p) (hq : prepare p env message = some q) : Described q := by
  obtain ⟨-, hq⟩ := Option.ite_none_left_eq_some.mp hq
  split at hq
  · unfold configureDecoder at hq
    split at hq
    · exact Option.some.inj hq ▸ h
    · rename_i description hdescription
      obtain ⟨-, hq⟩ := Option.ite_none_right_eq_some.mp hq
      obtain rfl := Option.some.inj hq
      exact fun _ => ⟨_, rfl, lengthSize_buildAvcDescription hdescription⟩
  · exact Option.some.inj hq ▸ h

theorem state_of_admits {p : Player ι} {message : List UInt8} (h : admits p message = true) :
    p.state = .configured := by
  have hstate := (Bool.and_eq_true_iff.mp h).2
  exact eq_of_beq hstate

/-- **A submitted frame is read as sent only if its units are single bytes.** -/
theorem readAsSent_submit {q : Player AccessUnit} {timestampUs : Nat} {au : AccessUnit}
    (h : Described q) (hadmits : admits q (wsMessage timestampUs au) = true) :
    (∀ chunk ∈ (submit q au (wsMessage timestampUs au)).decoded, ReadAsSent chunk) ↔
      (∀ chunk ∈ q.decoded, ReadAsSent chunk) ∧ au.OneByteUnits := by
  obtain ⟨config, hconfig, hsize⟩ := h (state_of_admits hadmits)
  have hlast : ReadAsSent
      { frame := au, type := if isKey (wsMessage timestampUs au) then .key else .delta
        data := (wsMessage timestampUs au).drop 1
        description := (q.config.map DecoderConfig.description).getD [] } ↔ au.OneByteUnits := by
    unfold ReadAsSent
    rw [hconfig, Option.map_some, Option.getD_some, hsize]
    exact read_annexB_iff au
  unfold submit
  rw [← hlast]
  constructor
  · intro hall
    exact ⟨fun chunk hmem => hall chunk (List.mem_append_left _ hmem),
      hall _ (List.mem_append_right _ (List.mem_singleton_self _))⟩
  · rintro ⟨hold, hnew⟩ chunk hmem
    rcases List.mem_append.mp hmem with hmem | hmem
    · exact hold chunk hmem
    · rw [List.mem_singleton.mp hmem]
      exact hnew

theorem described_step {p q : Player AccessUnit} {a : Action} (h : Described p)
    (hstep : step p a = some q) : Described q := by
  cases a with
  | message timestampUs au env =>
    obtain rfl := Option.some.inj hstep
    rcases onmessage_cases p env au (wsMessage timestampUs au) with heq | ⟨q, hq, -, heq⟩ |
      ⟨q, hq, -, heq⟩
    · rw [heq]
      exact h
    · rw [heq]
      exact h.prepare hq
    · rw [heq]
      show Described q
      exact h.prepare hq
  | output =>
    obtain rfl := Option.some.inj hstep
    exact h
  | error =>
    obtain rfl := Option.some.inj hstep
    exact nofun

theorem readAsSent_step {p q : Player AccessUnit} {a : Action} (hdescribed : Described p)
    (h : ∀ chunk ∈ p.decoded, ReadAsSent chunk) (hunits : SubmitsOneByteUnits p a)
    (hstep : step p a = some q) : ∀ chunk ∈ q.decoded, ReadAsSent chunk := by
  cases a with
  | message timestampUs au env =>
    obtain rfl := Option.some.inj hstep
    rcases onmessage_cases p env au (wsMessage timestampUs au) with heq | ⟨q, hq, -, heq⟩ |
      ⟨q, hq, hadmits, heq⟩
    · rw [heq]
      exact h
    · rw [heq, prepare_decoded hq]
      exact h
    · rw [heq]
      refine (readAsSent_submit (hdescribed.prepare hq) hadmits).mpr ⟨?_, ?_⟩
      · rw [prepare_decoded hq]
        exact h
      · exact hunits timestampUs au env q rfl hq hadmits
  | output =>
    obtain rfl := Option.some.inj hstep
    exact h
  | error =>
    obtain rfl := Option.some.inj hstep
    exact h

theorem not_readAsSent_step {p q : Player AccessUnit} {a : Action} (hdescribed : Described p)
    (hunits : ¬ SubmitsOneByteUnits p a) (hstep : step p a = some q) :
    ¬ ∀ chunk ∈ q.decoded, ReadAsSent chunk := by
  intro hall
  refine hunits fun timestampUs au env r ha hr hadmits => ?_
  subst ha
  obtain rfl := Option.some.inj hstep
  have hsubmit : onmessage p env au (wsMessage timestampUs au) =
      submit r au (wsMessage timestampUs au) := by
    unfold onmessage
    rw [hr]
    exact if_pos hadmits
  rw [hsubmit] at hall
  exact ((readAsSent_submit (hdescribed.prepare hr) hadmits).mp hall).2

/-- **When the decoder is given what its description declares.**  In every run of the
player, every chunk passed to the decoder reads, in the AVC format that its description
declares, as exactly the NAL units of the frame the phone sent, if and only if every frame
that is passed on consists of NAL units of one byte behind start codes of four. -/
theorem decoded_units_iff (actions : List Action) :
    Transition.Throughout step (fun p => ∀ chunk ∈ p.decoded, ReadAsSent chunk) initDecoder
        actions ↔
      Transition.Meets step SubmitsOneByteUnits initDecoder actions :=
  Transition.throughout_iff_meets
    (I := fun p => Described p ∧ ∀ chunk ∈ p.decoded, ReadAsSent chunk) (fun _ h => h.2)
    (fun _ _ _ h hunits hstep =>
      ⟨described_step h.1 hstep, readAsSent_step h.1 h.2 hunits hstep⟩)
    (fun _ _ _ h hunits hstep => not_readAsSent_step h.1 hunits hstep) ⟨nofun, nofun⟩

/-- A key frame: a sequence parameter set, a picture parameter set and a slice. -/
def keyFrame : AccessUnit :=
  [(.four, ⟨[0x67, 0x64, 0, 0x28], nofun, rfl, nofun⟩),
   (.four, ⟨[0x68, 0xeb, 0xe3], nofun, rfl, nofun⟩), (.four, ⟨[0x65, 0x88], nofun, rfl, nofun⟩)]

/-- The first frame configures the decoder and is passed to it as it came; read with the
lengths that were declared it is cut off in its second unit. -/
theorem keyFrame_not_readAsSent :
    ∃ p, Transition.run step initDecoder
        [.message 0 keyFrame { aaWidth := 1280, aaHeight := 720, accepts := true }] = some p ∧
      p.state = .configured ∧ ∃ chunk ∈ p.decoded, ¬ ReadAsSent chunk := by
  obtain ⟨p, hrun, hstate, hdecoded⟩ :
      ∃ p, Transition.run step initDecoder
          [.message 0 keyFrame { aaWidth := 1280, aaHeight := 720, accepts := true }] = some p ∧
        p.state = .configured ∧
        p.decoded = [{ frame := keyFrame, type := .key, data := keyFrame.annexB
                       description := [1, 0x64, 0, 0x28, 0xff, 0xe1, 0, 4, 0x67, 0x64, 0, 0x28,
                         1, 0, 3, 0x68, 0xeb, 0xe3] }] :=
    ⟨_, rfl, rfl, rfl⟩
  refine ⟨p, hrun, hstate, _, hdecoded ▸ List.mem_singleton_self _, fun hread => ?_⟩
  exact absurd hread (show ¬ readAvc 4 keyFrame.annexB = some keyFrame.units by decide)

end Whutfa.VideoPlayer
