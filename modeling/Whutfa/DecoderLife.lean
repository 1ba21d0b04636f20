import Whutfa.VideoPlayer

/-! # One decoder for the life of a page

Everything that can happen to the decoder of a page (`initDecoder`, `configureDecoder` and
the message handler of `connectVideo` in `frontend/app.js`): messages of any bytes, on
whatever connections and of whatever sessions, frames that are output, and failures.

The page makes one decoder, and only a decoder that is unconfigured is configured.  So the
first access unit with usable parameter sets decides for the life of the page: the sets of
a later session are not looked at, and once the decoder has failed no frame is passed on.
In between no key frame is left out (`configured_once`).
-/
namespace Whutfa.VideoPlayer

open H264

/-- What happens to the page's video player. -/
inductive Event (ι : Type*)
  | message (frame : ι) (message : List UInt8) (env : Surroundings)
  | output
  | error

variable {ι : Type*}

/-- The callback for the event. -/
def handle (p : Player ι) : Event ι → Player ι
  | .message frame message env => onmessage p env frame message
  | .output => output p
  | .error => error p

/-- The player after some events. -/
def play (p : Player ι) (events : List (Event ι)) : Player ι := events.foldl handle p

theorem play_cons (p : Player ι) (e : Event ι) (events : List (Event ι)) :
    play p (e :: events) = play (handle p e) events := rfl

/-- The steps of the player are among these, with the messages that the server makes. -/
theorem step_eq_handle (p : Player NalUnits.AccessUnit) (timestampUs : Nat)
    (au : NalUnits.AccessUnit) (env : Surroundings) :
    step p (.message timestampUs au env) =
      some (handle p (.message au (wsMessage timestampUs au) env)) := rfl

/-! ## What the events ask for -/

/-- What a message configures a decoder with that is unconfigured. -/
def configuration (env : Surroundings) (message : List UInt8) : Option DecoderConfig :=
  let sets := extractSpsPps (messageUnits message)
  if sets.sps.isSome ∧ sets.pps.isSome ∧ env.accepts then
    (buildAvcDescription sets).map fun description =>
      { codec := codecStringFromSps sets.sps, codedWidth := env.aaWidth
        codedHeight := env.aaHeight, description }
  else none

/-- The configuration of the first message that has one, unless the decoder fails before. -/
def firstConfiguration : List (Event ι) → Option DecoderConfig
  | [] => none
  | .error :: _ => none
  | .output :: events => firstConfiguration events
  | .message _ message env :: events =>
      match configuration env message with
      | some config => some config
      | none => firstConfiguration events

/-- A message that is never held back. -/
def isKeyMessage (message : List UInt8) : Bool := messageUnits message ≠ [] && isKey message

/-- The frames of the messages of a kind, up to the decoder's failure. -/
def framesBeforeError (kind : List UInt8 → Bool) : List (Event ι) → List ι
  | [] => []
  | .error :: _ => []
  | .output :: events => framesBeforeError kind events
  | .message frame message _ :: events =>
      if kind message then frame :: framesBeforeError kind events
      else framesBeforeError kind events

/-- The frames of the messages of a kind, from the message that configures the decoder, of
whatever kind, to the decoder's failure. -/
def framesOnceConfigured (kind : List UInt8 → Bool) : List (Event ι) → List ι
  | [] => []
  | .error :: _ => []
  | .output :: events => framesOnceConfigured kind events
  | .message frame message env :: events =>
      match configuration env message with
      | some _ => frame :: framesBeforeError kind events
      | none => framesOnceConfigured kind events

/-! ## What a message does in each state -/

/-- Parameter sets come from units. -/
theorem configuration_of_noUnits {message : List UInt8} (h : messageUnits message = [])
    (env : Surroundings) : configuration env message = none := by
  unfold configuration
  rw [h]
  exact if_neg fun hsets => absurd hsets.1 (by decide)

theorem prepare_unconfigured {p : Player ι} (hp : p.state = .unconfigured) (env : Surroundings)
    (message : List UInt8) :
    (∃ config, configuration env message = some config ∧
      prepare p env message = some { p with state := .configured, config := some config }) ∨
    configuration env message = none ∧
      (prepare p env message = none ∨ prepare p env message = some p) := by
  by_cases hunits : messageUnits message = []
  · exact Or.inr ⟨configuration_of_noUnits hunits env, Or.inl (if_pos hunits)⟩
  · unfold prepare configuration
    simp only [if_neg hunits]
    by_cases hsets : (extractSpsPps (messageUnits message)).sps.isSome = true ∧
        (extractSpsPps (messageUnits message)).pps.isSome = true
    · simp only [hsets, hp, true_and, and_self, if_true, configureDecoder]
      cases hbuild : buildAvcDescription (extractSpsPps (messageUnits message)) with
      | none => exact Or.inr ⟨ite_self none, Or.inr rfl⟩
      | some description =>
        by_cases haccepts : env.accepts = true
        · exact Or.inl ⟨_, if_pos haccepts, if_pos haccepts⟩
        · exact Or.inr ⟨if_neg haccepts, Or.inl (if_neg haccepts)⟩
    · refine Or.inr ⟨if_neg fun h => hsets ⟨h.1, h.2.1⟩, Or.inr (if_neg fun h => ?_)⟩
      exact hsets ⟨h.1, h.2.1⟩

/-- Nothing gets past the gate to a decoder that is not configured. -/
theorem admits_eq_false {p : Player ι} (hp : p.state ≠ .configured) (message : List UInt8) :
    admits p message = false :=
  Bool.eq_false_iff.mpr fun h => hp (state_of_admits h)

/-- **An unconfigured decoder**: a message with a configuration configures it, and is the
first to be passed on; any other leaves it. -/
theorem onmessage_unconfigured {p : Player ι} (hp : p.state = .unconfigured)
    (hpending : p.pendingDecode = 0) (env : Surroundings) (frame : ι) (message : List UInt8) :
    onmessage p env frame message =
      match configuration env message with
      | some config => submit { p with state := .configured, config := some config } frame message
      | none => p := by
  have hclosed : admits p message = false := admits_eq_false (by rw [hp]; decide) message
  rcases prepare_unconfigured hp env message with ⟨config, hconfig, hprepare⟩ |
    ⟨hconfig, hprepare | hprepare⟩
  · rw [hconfig]
    simp only [onmessage, hprepare]
    exact if_pos (by simp [admits, hpending])
  · rw [hconfig]
    simp only [onmessage, hprepare]
  · rw [hconfig]
    simp only [onmessage, hprepare, hclosed, Bool.false_eq_true, if_false]

/-- A decoder that has left that state is not configured again. -/
theorem prepare_settled {p : Player ι} (hp : p.state ≠ .unconfigured) (env : Surroundings)
    (message : List UInt8) :
    prepare p env message = if messageUnits message = [] then none else some p := by
  unfold prepare
  simp only [hp, and_false, if_false]

theorem onmessage_closed {p : Player ι} (hp : p.state = .closed) (env : Surroundings) (frame : ι)
    (message : List UInt8) : onmessage p env frame message = p := by
  have hclosed : admits p message = false := admits_eq_false (by rw [hp]; decide) message
  unfold onmessage
  rw [prepare_settled (by rw [hp]; decide)]
  split
  · rfl
  · rename_i q hq
    obtain ⟨-, hq⟩ := Option.ite_none_left_eq_some.mp hq
    obtain rfl := Option.some.inj hq
    rw [hclosed]
    rfl

/-- **A configured decoder** is passed the message or not, and a key frame always is. -/
theorem onmessage_configured {p : Player ι} (hp : p.state = .configured) (env : Surroundings)
    (frame : ι) (message : List UInt8) :
    onmessage p env frame message = submit p frame message ∨
      isKeyMessage message = false ∧ onmessage p env frame message = p := by
  unfold onmessage isKeyMessage
  rw [prepare_settled (by rw [hp]; decide)]
  by_cases hunits : messageUnits message = []
  · exact Or.inr ⟨by simp [hunits], by simp only [if_pos hunits]⟩
  · simp only [if_neg hunits]
    by_cases hadmits : admits p message = true
    · exact Or.inl (if_pos hadmits)
    · refine Or.inr ⟨?_, if_neg hadmits⟩
      have hkey : isKey message = false := by
        refine Bool.eq_false_iff.mpr fun hkey => hadmits ?_
        simp [admits, hkey, hp]
      rw [hkey, Bool.and_false]

/-! ## What some events do in each state -/

/-- From `p` to `q` the configuration has stayed, and what has been passed on are all the
`keys`, and other frames of the list only, in order. -/
structure Serves (p q : Player ι) (keys frames : List ι) : Prop where
  config : q.config = p.config
  passed : ∃ chunks, q.decoded = p.decoded ++ chunks ∧
    keys.Sublist (chunks.map Chunk.frame) ∧ (chunks.map Chunk.frame).Sublist frames ∧
    ∀ chunk ∈ chunks, chunk.description = (p.config.map DecoderConfig.description).getD []

theorem Serves.refl (p : Player ι) (frames : List ι) : Serves p p [] frames :=
  ⟨rfl, [], (List.append_nil _).symm, List.nil_sublist _, List.nil_sublist _, nofun⟩

/-- An output or an error serves nothing. -/
theorem Serves.of_eq {p p' q : Player ι} {keys frames : List ι} (h : Serves p' q keys frames)
    (hconfig : p'.config = p.config) (hdecoded : p'.decoded = p.decoded) :
    Serves p q keys frames := by
  obtain ⟨hq, chunks, happend, hkeys, hsub, hdescription⟩ := h
  exact ⟨hq.trans hconfig, chunks, hdecoded ▸ happend, hkeys, hsub, hconfig ▸ hdescription⟩

/-- A frame that is left out. -/
theorem Serves.skip {p q : Player ι} {keys frames : List ι} (h : Serves p q keys frames)
    (frame : ι) : Serves p q keys (frame :: frames) := by
  obtain ⟨hconfig, chunks, happend, hkeys, hsub, hdescription⟩ := h
  exact ⟨hconfig, chunks, happend, hkeys, hsub.cons frame, hdescription⟩

/-- A frame that is passed on. -/
theorem Serves.submit {p q : Player ι} {keys frames : List ι} {frame : ι} {message : List UInt8}
    (h : Serves (submit p frame message) q keys frames) :
    Serves p q (frame :: keys) (frame :: frames) := by
  obtain ⟨hq, chunks, happend, hkeys, hsub, hdescription⟩ := h
  refine ⟨hq, _ :: chunks, happend.trans (List.append_assoc ..), hkeys.cons_cons frame,
    hsub.cons_cons frame, ?_⟩
  intro chunk hchunk
  rcases List.mem_cons.mp hchunk with rfl | hchunk
  · rfl
  · exact hdescription chunk hchunk

theorem Serves.of_keys {p q : Player ι} {keys more frames : List ι} (h : Serves p q more frames)
    (hkeys : keys.Sublist more) : Serves p q keys frames := by
  obtain ⟨hconfig, chunks, happend, hmore, hsub, hdescription⟩ := h
  exact ⟨hconfig, chunks, happend, hkeys.trans hmore, hsub, hdescription⟩

theorem play_closed {p : Player ι} (hp : p.state = .closed) (events : List (Event ι)) :
    (play p events).state = .closed ∧ Serves p (play p events) [] [] := by
  induction events generalizing p with
  | nil => exact ⟨hp, .refl p []⟩
  | cons e events ih =>
    rw [play_cons]
    cases e with
    | message frame message env =>
      rw [handle, onmessage_closed hp]
      exact ih hp
    | output =>
      obtain ⟨hstate, hserves⟩ := ih (p := output p) hp
      exact ⟨hstate, hserves.of_eq rfl rfl⟩
    | error =>
      obtain ⟨hstate, hserves⟩ := ih (p := error p) rfl
      exact ⟨hstate, hserves.of_eq rfl rfl⟩

theorem play_configured {p : Player ι} (hp : p.state = .configured) (events : List (Event ι)) :
    ((play p events).state = .closed ↔ .error ∈ events) ∧
      Serves p (play p events) (framesBeforeError isKeyMessage events)
        (framesBeforeError (fun _ => true) events) := by
  induction events generalizing p with
  | nil => exact ⟨by simp [play, hp], .refl p []⟩
  | cons e events ih =>
    rw [play_cons]
    cases e with
    | message frame message env =>
      rw [handle, framesBeforeError, framesBeforeError, if_pos rfl]
      rcases onmessage_configured hp env frame message with hsubmit | ⟨hkey, hsame⟩
      · obtain ⟨hstate, hserves⟩ := ih (p := submit p frame message) hp
        rw [hsubmit]
        refine ⟨by simpa using hstate, hserves.submit.of_keys ?_⟩
        split
        · exact List.Sublist.refl _
        · exact List.sublist_cons_self ..
      · obtain ⟨hstate, hserves⟩ := ih hp
        rw [hsame, if_neg (by rw [hkey]; exact Bool.false_ne_true)]
        exact ⟨by simpa using hstate, hserves.skip frame⟩
    | output =>
      obtain ⟨hstate, hserves⟩ := ih (p := output p) hp
      exact ⟨by simpa [handle] using hstate, hserves.of_eq rfl rfl⟩
    | error =>
      obtain ⟨hstate, hserves⟩ := play_closed (p := error p) rfl events
      exact ⟨⟨fun _ => List.mem_cons_self .., fun _ => hstate⟩, hserves.of_eq rfl rfl⟩

/-! ## The life of the decoder -/

/-- What has become of the decoder after some events. -/
structure Lives (events : List (Event ι)) (p : Player ι) : Prop where
  closed_iff : p.state = .closed ↔ .error ∈ events
  config : p.config = firstConfiguration events
  /-- Every chunk is passed on under this configuration. -/
  described : ∀ chunk ∈ p.decoded,
    (firstConfiguration events).map DecoderConfig.description = some chunk.description
  /-- No frame from before it or from behind a failure is passed on. -/
  frames : (p.decoded.map Chunk.frame).Sublist (framesOnceConfigured (fun _ => true) events)
  /-- The frame it comes from and the key frames are. -/
  keys : (framesOnceConfigured isKeyMessage events).Sublist (p.decoded.map Chunk.frame)

/-- From the message that configures the decoder on. -/
theorem lives_of_configuration {config : DecoderConfig} {frame : ι} {message : List UInt8}
    {env : Surroundings} (hconfig : configuration env message = some config)
    (events : List (Event ι)) :
    Lives (.message frame message env :: events)
      (play initDecoder (.message frame message env :: events)) := by
  let first : Player ι :=
    submit { initDecoder with state := .configured, config := some config } frame message
  have hfirst : handle initDecoder (.message frame message env) = first := by
    rw [handle, onmessage_unconfigured rfl rfl, hconfig]
  obtain ⟨hstate, hsame, chunks, happend, hkeys, hsub, hdescription⟩ :=
    play_configured (p := first) rfl events
  rw [play_cons, hfirst]
  constructor
  · simpa using hstate
  · rw [hsame, firstConfiguration, hconfig]
    rfl
  · rw [happend, firstConfiguration, hconfig]
    intro chunk hchunk
    rcases List.mem_cons.mp hchunk with rfl | hchunk
    · rfl
    · exact congrArg some (hdescription chunk hchunk).symm
  · rw [happend, framesOnceConfigured, hconfig]
    exact hsub.cons_cons frame
  · rw [happend, framesOnceConfigured, hconfig]
    exact hkeys.cons_cons frame

/-- **A decoder is configured once.**  Whatever messages a page is sent, and whenever frames
are output or the decoder fails: its configuration is that of the first message with usable
parameter sets, every chunk is passed on under this configuration, the frames passed on
begin with that message's own, no key frame that follows is left out, and none is passed on
behind a failure. -/
theorem configured_once (events : List (Event ι)) : Lives events (play initDecoder events) := by
  induction events with
  | nil => exact ⟨⟨nofun, nofun⟩, rfl, nofun, List.nil_sublist _, List.nil_sublist _⟩
  | cons e events ih =>
    cases e with
    | message frame message env =>
      cases hconfig : configuration env message with
      | some config => exact lives_of_configuration hconfig events
      | none =>
        have hsame : handle initDecoder (.message frame message env) = initDecoder := by
          rw [handle, onmessage_unconfigured rfl rfl, hconfig]
        obtain ⟨hclosed, hfirst, hdescribed, hframes, hkeys⟩ := ih
        rw [play_cons, hsame]
        refine ⟨by simpa using hclosed, ?_, ?_, ?_, ?_⟩
        · rwa [firstConfiguration, hconfig]
        · rwa [firstConfiguration, hconfig]
        · rwa [framesOnceConfigured, hconfig]
        · rwa [framesOnceConfigured, hconfig]
    | output =>
      have hsame : handle initDecoder (Event.output : Event ι) = initDecoder := rfl
      obtain ⟨hclosed, hfirst, hdescribed, hframes, hkeys⟩ := ih
      rw [play_cons, hsame]
      exact ⟨by simpa using hclosed, hfirst, hdescribed, hframes, hkeys⟩
    | error =>
      -- a decoder that has failed before it was configured
      obtain ⟨hstate, hconfig, chunks, hdecoded, -, hsub, -⟩ :=
        play_closed (p := error (initDecoder : Player ι)) rfl events
      have hnil : chunks = [] := List.map_eq_nil_iff.mp (List.sublist_nil.mp hsub)
      have hnone : (play (error (initDecoder : Player ι)) events).decoded = [] := by
        rw [hdecoded, hnil]
        rfl
      rw [play_cons, handle]
      refine ⟨⟨fun _ => List.mem_cons_self .., fun _ => hstate⟩, hconfig, ?_, ?_, ?_⟩
      · rw [hnone]
        exact nofun
      · rw [hnone]
        exact List.nil_sublist _
      · exact List.nil_sublist _

end Whutfa.VideoPlayer
