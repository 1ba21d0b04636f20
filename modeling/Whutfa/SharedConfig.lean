import Whutfa.CDecimal
import Whutfa.Config
import Whutfa.ConfigFile

/-! # One file for two programs

The settings of `head_unit`, `video`, `audio` and `ipc`, written in the layout of
`config/config.yaml`, as the handler reads them and as the server has them.  What `yaml.parse`
makes of the text is a parameter.

The server has all of them (`inServer_loadConfig`).  The handler's reader knows no entry for
the density and the two sample rates, and cuts a line at the first `#`, also between quotes;
where none of this makes a difference the two agree, and nowhere else
(`agree_iff_readable`).
-/
namespace Whutfa.SharedConfig

open JsString
open CText (bytes)
open HandlerConfig ConfigFile

/-! ## The settings -/

/-- Characters that stand for themselves between double quotes. -/
structure Text where
  units : JsString
  wellFormed : toWellFormed units = units
  quotable : ∀ c ∈ units, c ≠ 0x22 ∧ c ≠ 0x5C ∧ c ≠ 0x0A ∧ c ≠ 0x0D

/-- The settings that both programs read. -/
structure Settings where
  manufacturer : Text
  model : Text
  name : Text
  width : UInt32
  height : UInt32
  fps : UInt32
  dpi : UInt32
  mediaSampleRate : UInt32
  speechSampleRate : UInt32
  bridgeSocket : Text
  videoSocket : Text
  audioMediaSocket : Text
  audioSpeechSocket : Text
  audioSystemSocket : Text

/-! ## The file -/

/-- A text in double quotes. -/
def quoted (s : List UInt8) : List UInt8 := 0x22 :: (s ++ [0x22])

/-- A text as it stands in the file. -/
def Text.scalar (t : Text) : List UInt8 := quoted (utf8 t.units)

/-- A number as it stands in the file. -/
def integer (n : UInt32) : List UInt8 := (Decimal.digits n.toNat).map byte

/-- A line of a section. -/
def entry (key : String) (text : List UInt8) : Entry := .scalar ⟨bytes key, text⟩

/-- The sections in front of `ipc`. -/
def Settings.front (v : Settings) : List Section :=
  [⟨bytes "head_unit",
      [entry "manufacturer" v.manufacturer.scalar, entry "model" v.model.scalar,
        entry "name" v.name.scalar]⟩,
    ⟨bytes "video",
      [entry "width" (integer v.width), entry "height" (integer v.height),
        entry "fps" (integer v.fps), entry "dpi" (integer v.dpi)]⟩,
    ⟨bytes "audio",
      [entry "media_sample_rate" (integer v.mediaSampleRate),
        entry "speech_sample_rate" (integer v.speechSampleRate)]⟩,
    ⟨bytes "server",
      [entry "http_port" (integer 8080), entry "bind_address" (quoted (bytes "0.0.0.0")),
        entry "access_token" (quoted []), entry "bind_localhost_only" (bytes "false")]⟩,
    ⟨bytes "security", [entry "require_token" (bytes "false")]⟩,
    ⟨bytes "bluetooth",
      [entry "enabled" (bytes "true"), entry "adapter_name" (quoted (bytes "WHUTFA")),
        entry "pin" (quoted (bytes "0000"))]⟩,
    ⟨bytes "sensors",
      [entry "night_mode" (bytes "false"), entry "driving_status" (quoted (bytes "parked")),
        .gps [⟨bytes "enabled", bytes "false"⟩, ⟨bytes "latitude", bytes "0.0"⟩,
          ⟨bytes "longitude", bytes "0.0"⟩]]⟩,
    ⟨bytes "diagnostics",
      [entry "log_level" (quoted (bytes "info")),
        entry "ssl_clock_max_skew_sec" (integer 300)]⟩]

/-- The entries of `ipc` that the handler reads. -/
def Settings.sockets (v : Settings) : List Entry :=
  [entry "bridge_socket" v.bridgeSocket.scalar, entry "video_socket" v.videoSocket.scalar,
    entry "audio_media_socket" v.audioMediaSocket.scalar,
    entry "audio_speech_socket" v.audioSpeechSocket.scalar]

/-- The last entry, which it does not read. -/
def Settings.lastEntry (v : Settings) : Member :=
  ⟨bytes "audio_system_socket", v.audioSystemSocket.scalar⟩

/-- The sections of the whole file. -/
def Settings.document (v : Settings) : List Section :=
  v.front ++ [⟨bytes "ipc", v.sockets ++ [.scalar v.lastEntry]⟩]

/-- `config.yaml` with the settings in it. -/
def Settings.file (v : Settings) : List UInt8 := fileText (v.document.flatMap Section.lines)

/-- The members of the document, as the file says them. -/
def Settings.said (v : Settings) : Yaml.Members :=
  [(js "head_unit", .obj
      [(js "manufacturer", .str v.manufacturer.units), (js "model", .str v.model.units),
       (js "name", .str v.name.units)]),
   (js "video", .obj
      [Config.number "width" v.width.toNat, Config.number "height" v.height.toNat,
       Config.number "fps" v.fps.toNat, Config.number "dpi" v.dpi.toNat]),
   (js "audio", .obj
      [Config.number "media_sample_rate" v.mediaSampleRate.toNat,
       Config.number "speech_sample_rate" v.speechSampleRate.toNat]),
   (js "server", .obj
      [Config.number "http_port" 8080, Config.text "bind_address" "0.0.0.0",
       Config.text "access_token" "", Config.flag "bind_localhost_only" false]),
   (js "security", .obj [Config.flag "require_token" false]),
   (js "bluetooth", .obj
      [Config.flag "enabled" true, Config.text "adapter_name" "WHUTFA",
       Config.text "pin" "0000"]),
   (js "sensors", .obj
      [Config.flag "night_mode" false, Config.text "driving_status" "parked",
       (js "gps", .obj
          [Config.flag "enabled" false, Config.number "latitude" 0,
           Config.number "longitude" 0])]),
   (js "diagnostics", .obj
      [Config.text "log_level" "info", Config.number "ssl_clock_max_skew_sec" 300]),
   (js "ipc", .obj
      [(js "bridge_socket", .str v.bridgeSocket.units),
       (js "video_socket", .str v.videoSocket.units),
       (js "audio_media_socket", .str v.audioMediaSocket.units),
       (js "audio_speech_socket", .str v.audioSpeechSocket.units),
       (js "audio_system_socket", .str v.audioSystemSocket.units)])]

/-! ## The values on both sides -/

/-- The handler has the settings, in every field that the file has too. -/
structure Settings.InHandler (v : Settings) (cfg : HandlerConfig) : Prop where
  manufacturer : cfg.manufacturer = utf8 v.manufacturer.units
  model : cfg.model = utf8 v.model.units
  name : cfg.name = utf8 v.name.units
  videoWidth : cfg.videoWidth = v.width
  videoHeight : cfg.videoHeight = v.height
  videoFps : cfg.videoFps = v.fps
  videoDpi : cfg.videoDpi = v.dpi
  mediaSampleRate : cfg.mediaSampleRate = v.mediaSampleRate
  speechSampleRate : cfg.speechSampleRate = v.speechSampleRate
  bridgeSocket : cfg.bridgeSocket = utf8 v.bridgeSocket.units
  videoSocket : cfg.videoSocket = utf8 v.videoSocket.units
  audioMediaSocket : cfg.audioMediaSocket = utf8 v.audioMediaSocket.units
  audioSpeechSocket : cfg.audioSpeechSocket = utf8 v.audioSpeechSocket.units

/-- The settings as members of the server's configuration. -/
def Settings.members (v : Settings) : List (String × String × Yaml) :=
  [("head_unit", "manufacturer", .str v.manufacturer.units),
    ("head_unit", "model", .str v.model.units), ("head_unit", "name", .str v.name.units),
    ("video", "width", .num (.finite v.width.toNat)),
    ("video", "height", .num (.finite v.height.toNat)),
    ("video", "fps", .num (.finite v.fps.toNat)), ("video", "dpi", .num (.finite v.dpi.toNat)),
    ("audio", "media_sample_rate", .num (.finite v.mediaSampleRate.toNat)),
    ("audio", "speech_sample_rate", .num (.finite v.speechSampleRate.toNat)),
    ("ipc", "bridge_socket", .str v.bridgeSocket.units),
    ("ipc", "video_socket", .str v.videoSocket.units),
    ("ipc", "audio_media_socket", .str v.audioMediaSocket.units),
    ("ipc", "audio_speech_socket", .str v.audioSpeechSocket.units),
    ("ipc", "audio_system_socket", .str v.audioSystemSocket.units)]

/-- The server has read all of the settings. -/
def Settings.InServer (v : Settings) (config : Yaml.Members) : Prop :=
  ∀ m ∈ v.members, Config.get config m.1 m.2.1 = .ok (some m.2.2)

/-- The texts that the handler reads. -/
def Settings.texts (v : Settings) : List Text :=
  [v.manufacturer, v.model, v.name, v.bridgeSocket, v.videoSocket, v.audioMediaSocket,
    v.audioSpeechSocket]

/-- The settings that the handler can read: no text has a `#`, and what it has no entry for is
as it is by default. -/
structure Settings.Readable (v : Settings) : Prop where
  texts : ∀ t ∈ v.texts, 0x23 ∉ t.units
  dpi : v.dpi = 160
  mediaSampleRate : v.mediaSampleRate = 48000
  speechSampleRate : v.speechSampleRate = 16000

variable {v : Settings}

/-! ## The handler

Section by section: what the scalars of a section do to the configuration, and that the
sections after it leave it alone. -/

theorem canBeRead_default (stubMode : Bool) : CanBeRead { stubMode } :=
  ⟨by simp only [texts]; decide, rfl, rfl, rfl⟩

theorem isAscii_hash : isAscii 0x23 := by decide

theorem hash_mem_utf8 {s : JsString} : 0x23 ∈ utf8 s ↔ 0x23 ∈ s := by
  constructor
  · exact mem_of_byte_mem_utf8 isAscii_hash
  · intro h
    obtain ⟨a, b, rfl⟩ := List.append_of_mem h
    have hrest := utf8_append_of_ascii (p := [0x23]) (by simp [isAscii_hash]) b
    rw [utf8_append_cons isAscii_hash, ← List.singleton_append, hrest]
    simp [byte]

theorem Settings.InHandler.texts_eq {cfg : HandlerConfig} (h : v.InHandler cfg) :
    cfg.texts = v.texts.map fun t => utf8 t.units := by
  obtain ⟨hmanufacturer, hmodel, hname, -, -, -, -, -, -, hbridge, hvideo, hmedia, hspeech⟩ := h
  simp only [HandlerConfig.texts, Settings.texts, List.map_cons, List.map_nil, hmanufacturer,
    hmodel, hname, hbridge, hvideo, hmedia, hspeech]

theorem readable_of_inHandler {cfg : HandlerConfig} (hcfg : CanBeRead cfg)
    (h : v.InHandler cfg) : v.Readable := by
  refine ⟨fun t ht hmem => ?_, h.videoDpi.symm.trans hcfg.videoDpi,
    h.mediaSampleRate.symm.trans hcfg.mediaSampleRate,
    h.speechSampleRate.symm.trans hcfg.speechSampleRate⟩
  refine hcfg.texts (utf8 t.units) ?_ (hash_mem_utf8.mpr hmem)
  rw [h.texts_eq]
  exact List.mem_map_of_mem ht

theorem writes_quoted {s : List UInt8} (h : 0x22 ∉ s ∧ 0x23 ∉ s ∧ 0x0A ∉ s) :
    Kind.string.Writes (quoted s) := ⟨s, rfl, h.1, h.2.1, h.2.2⟩

theorem writes_text {t : Text} (h : 0x23 ∉ t.units) : Kind.string.Writes t.scalar := by
  have hquote : isAscii 0x22 := by decide
  have hbreak : isAscii 0x0A := by decide
  exact writes_quoted ⟨fun hmem => (t.quotable _ (mem_of_byte_mem_utf8 hquote hmem)).1 rfl,
    fun hmem => h (hash_mem_utf8.mp hmem),
    fun hmem => (t.quotable _ (mem_of_byte_mem_utf8 hbreak hmem)).2.2.1 rfl⟩

theorem stoul_integer (n : UInt32) : CText.stoul (integer n) = some n.toNat :=
  CText.stoul_digits (Nat.lt_trans n.toNat_lt (by decide))

theorem writes_integer (n : UInt32) : Kind.integer.Writes (integer n) := by
  have hdigit : ∀ b ∈ integer n, 48 ≤ b.toNat ∧ b.toNat ≤ 57 := by
    intro b hb
    obtain ⟨c, hc, rfl⟩ := List.mem_map.mp hb
    obtain ⟨hval, hlow, hhigh⟩ := CText.toNat_byte_of_isDigit (Decimal.isDigit_of_mem_digits hc)
    omega
  have hvisible : ∀ b ∈ integer n, ∀ d ∈ bytes " \t\r\n\"#:", b ≠ d := by
    rintro b hb d hd rfl
    have hmarks : ((bytes " \t\r\n\"#:").all fun d => d.toNat < 48 ∨ 57 < d.toNat) = true := rfl
    have hmark := of_decide_eq_true (List.all_eq_true.mp hmarks b hd)
    have hb := hdigit b hb
    omega
  refine ⟨isPlain_of_all ?_, by rw [stoul_integer]; rfl⟩
  simp only [Bool.and_eq_true, Bool.not_eq_true', List.isEmpty_eq_false_iff, List.all_eq_true,
    bne_iff_ne, isBlank, Bool.or_eq_false_iff, decide_eq_false_iff_not]
  refine ⟨by simp [integer, Decimal.digits_ne_nil], fun b hb => ?_⟩
  have hne := hvisible b hb
  exact ⟨⟨⟨⟨⟨⟨hne _ (by decide), hne _ (by decide)⟩, hne _ (by decide)⟩, hne _ (by decide)⟩,
    hne _ (by decide)⟩, hne _ (by decide)⟩, hne _ (by decide)⟩

theorem toUInt32_integer (n : UInt32) : HandlerConfig.toUInt32 (unquote (integer n)) = some n := by
  rw [unquote_plain (writes_integer n).1, HandlerConfig.toUInt32, stoul_integer]
  exact congrArg some (UInt32.ofNat_toNat)

theorem writes_zero : Kind.decimal.Writes (bytes "0.0") :=
  ⟨isPlain_of_all rfl, by decide +kernel⟩

theorem writes_true : Kind.boolean.Writes (bytes "true") := Or.inl rfl

theorem writes_false : Kind.boolean.Writes (bytes "false") := Or.inr rfl

theorem fits_entry {name : List UInt8} {keys : List (List UInt8 × Kind)} {key : String}
    {kind : Kind} {text : List UInt8} (hkey : (bytes key, kind) ∈ keys)
    (hwrites : kind.Writes text) : (entry key text).Fits name keys := ⟨kind, hkey, hwrites⟩

theorem fits_section {name : List UInt8} {entries : List Entry}
    {keys : List (List UInt8 × Kind)} (i : Nat) (hplace : sections[i]? = some (name, keys))
    (h : ∀ e ∈ entries, e.Fits name keys) : Section.Fits ⟨name, entries⟩ :=
  ⟨keys, List.mem_of_getElem? hplace, h⟩

theorem front_fits (h : v.Readable) : ∀ s ∈ v.front, s.Fits := by
  have htexts := h.texts
  simp only [Settings.texts, List.forall_mem_cons] at htexts
  obtain ⟨hmanufacturer, hmodel, hname, -⟩ := htexts
  simp only [Settings.front, List.forall_mem_cons]
  refine ⟨fits_section 0 rfl ?_, fits_section 1 rfl ?_, fits_section 2 rfl ?_,
    fits_section 3 rfl ?_, fits_section 4 rfl ?_, fits_section 5 rfl ?_, fits_section 6 rfl ?_,
    fits_section 7 rfl ?_, nofun⟩ <;> simp only [List.forall_mem_cons]
  · exact ⟨fits_entry (by decide) (writes_text hmanufacturer),
      fits_entry (by decide) (writes_text hmodel),
      fits_entry (by decide) (writes_text hname), nofun⟩
  · exact ⟨fits_entry (by decide) (writes_integer _), fits_entry (by decide) (writes_integer _),
      fits_entry (by decide) (writes_integer _), fits_entry (by decide) (writes_integer _), nofun⟩
  · exact ⟨fits_entry (by decide) (writes_integer _), fits_entry (by decide) (writes_integer _),
      nofun⟩
  · exact ⟨fits_entry (by decide) (writes_integer _),
      fits_entry (by decide) (writes_quoted (by decide)),
      fits_entry (by decide) (writes_quoted (by decide)),
      fits_entry (by decide) writes_false, nofun⟩
  · exact ⟨fits_entry (by decide) writes_false, nofun⟩
  · exact ⟨fits_entry (by decide) writes_true,
      fits_entry (by decide) (writes_quoted (by decide)),
      fits_entry (by decide) (writes_quoted (by decide)), nofun⟩
  · refine ⟨fits_entry (by decide) writes_false,
      fits_entry (by decide) (writes_quoted (by decide)), ⟨rfl, ?_⟩, nofun⟩
    simp only [List.forall_mem_cons]
    exact ⟨⟨_, by decide, writes_false⟩, ⟨_, by decide, writes_zero⟩,
      ⟨_, by decide, writes_zero⟩, nofun⟩
  · exact ⟨fits_entry (by decide) (writes_quoted (by decide)),
      fits_entry (by decide) (writes_integer _), nofun⟩

theorem sockets_fit (h : v.Readable) : Section.Fits ⟨bytes "ipc", v.sockets⟩ := by
  have htexts := h.texts
  simp only [Settings.texts, List.forall_mem_cons] at htexts
  obtain ⟨-, -, -, hbridge, hvideo, hmedia, hspeech, -⟩ := htexts
  refine fits_section 8 rfl ?_
  simp only [Settings.sockets, List.forall_mem_cons]
  exact ⟨fits_entry (by decide) (writes_text hbridge), fits_entry (by decide) (writes_text hvideo),
    fits_entry (by decide) (writes_text hmedia), fits_entry (by decide) (writes_text hspeech),
    nofun⟩

/-- A section whose scalars have this effect. -/
def Stores (s : Section) (e : HandlerConfig → HandlerConfig) : Prop :=
  ∀ cfg, s.leaves.foldlM store cfg = some (e cfg)

theorem Stores.then {s : Section} {e : HandlerConfig → HandlerConfig} (h : Stores s e)
    {d : List Section} {cfg cfg' : HandlerConfig}
    (hrest : (d.flatMap Section.leaves).foldlM store (e cfg) = some cfg') :
    ((s :: d).flatMap Section.leaves).foldlM store cfg = some cfg' := by
  rw [List.flatMap_cons, List.foldlM_append, h cfg]
  exact hrest

theorem stores_headUnit (t u w : List UInt8) :
    Stores ⟨bytes "head_unit", [entry "manufacturer" t, entry "model" u, entry "name" w]⟩
      fun cfg => { cfg with
        manufacturer := unquote t, model := unquote u, name := unquote w } := fun _ => rfl

theorem stores_video {t u w : List UInt8} {width height fps : UInt32}
    (ht : HandlerConfig.toUInt32 (unquote t) = some width)
    (hu : HandlerConfig.toUInt32 (unquote u) = some height)
    (hw : HandlerConfig.toUInt32 (unquote w) = some fps) (x : List UInt8) :
    Stores ⟨bytes "video", [entry "width" t, entry "height" u, entry "fps" w, entry "dpi" x]⟩
      fun cfg => { cfg with videoWidth := width, videoHeight := height, videoFps := fps } := by
  have hstore : ∀ (key text : List UInt8) (cfg : HandlerConfig),
      store cfg (bytes "video", ⟨key, text⟩) = assignVideo key (unquote text) cfg :=
    fun _ _ _ => rfl
  intro cfg
  show [(bytes "video", (⟨bytes "width", t⟩ : Member)), (bytes "video", ⟨bytes "height", u⟩),
    (bytes "video", ⟨bytes "fps", w⟩), (bytes "video", ⟨bytes "dpi", x⟩)].foldlM store cfg = _
  rw [List.foldlM_cons, hstore, assignVideo_of_toUInt32 ht, Option.bind_eq_bind, Option.bind_some,
    List.foldlM_cons, hstore, assignVideo_of_toUInt32 hu, Option.bind_eq_bind, Option.bind_some,
    List.foldlM_cons, hstore, assignVideo_of_toUInt32 hw]
  rfl

/-- The place of the car is read too, and no setting. -/
theorem stores_sensors {text : List UInt8} {d : CText.Double}
    (h : CText.stod (unquote text) = some d) (night status : List UInt8) :
    Stores ⟨bytes "sensors", [entry "night_mode" night, entry "driving_status" status,
        .gps [⟨bytes "enabled", bytes "false"⟩, ⟨bytes "latitude", text⟩,
          ⟨bytes "longitude", text⟩]]⟩
      fun cfg => { cfg with gpsLat := d, gpsLon := d } := by
  have hstore : ∀ (key : List UInt8) (cfg : HandlerConfig),
      store cfg (bytes "gps", ⟨key, text⟩) = assignGps key (unquote text) cfg := fun _ _ => rfl
  intro cfg
  show [(bytes "gps", (⟨bytes "latitude", text⟩ : Member)),
    (bytes "gps", ⟨bytes "longitude", text⟩)].foldlM store cfg = _
  rw [List.foldlM_cons, hstore, assignGps_of_stod h, Option.bind_eq_bind, Option.bind_some,
    List.foldlM_cons, hstore, assignGps_of_stod h]
  rfl

theorem stores_ipc (t u w x : List UInt8) :
    Stores ⟨bytes "ipc", [entry "bridge_socket" t, entry "video_socket" u,
        entry "audio_media_socket" w, entry "audio_speech_socket" x]⟩
      fun cfg => { cfg with
        bridgeSocket := unquote t, videoSocket := unquote u, audioMediaSocket := unquote w,
        audioSpeechSocket := unquote x } := fun _ => rfl

theorem unquote_scalar (t : Text) : unquote t.scalar = utf8 t.units := unquote_quoted _

/-- The document without its last entry. -/
def Settings.shorter (v : Settings) : List Section := v.front ++ [⟨bytes "ipc", v.sockets⟩]

theorem shorter_fits (h : v.Readable) : ∀ s ∈ v.shorter, s.Fits :=
  List.forall_mem_append.mpr ⟨front_fits h, List.forall_mem_singleton.mpr (sockets_fit h)⟩

theorem document_lines :
    v.document.flatMap Section.lines = v.shorter.flatMap Section.lines ++ [v.lastEntry.line 2] := by
  simp [Settings.document, Settings.shorter, Section.lines, Entry.lines]

theorem shorter_stored {d : CText.Double} (hd : CText.stod (unquote (bytes "0.0")) = some d)
    (cfg : HandlerConfig) :
    (v.shorter.flatMap Section.leaves).foldlM store cfg =
      some { cfg with
        manufacturer := unquote v.manufacturer.scalar, model := unquote v.model.scalar,
        name := unquote v.name.scalar, videoWidth := v.width, videoHeight := v.height,
        videoFps := v.fps, bridgeSocket := unquote v.bridgeSocket.scalar,
        videoSocket := unquote v.videoSocket.scalar,
        audioMediaSocket := unquote v.audioMediaSocket.scalar,
        audioSpeechSocket := unquote v.audioSpeechSocket.scalar, gpsLat := d, gpsLon := d } := by
  refine (stores_headUnit _ _ _).then ?_
  refine (stores_video (toUInt32_integer v.width) (toUInt32_integer v.height)
    (toUInt32_integer v.fps) (integer v.dpi)).then ?_
  -- what stands in the next four sections is not read
  refine Stores.then (e := id) (fun _ => rfl) ?_
  refine Stores.then (e := id) (fun _ => rfl) ?_
  refine Stores.then (e := id) (fun _ => rfl) ?_
  refine Stores.then (e := id) (fun _ => rfl) ?_
  refine (stores_sensors hd _ _).then ?_
  refine Stores.then (e := id) (fun _ => rfl) ?_
  refine (stores_ipc _ _ _ _).then ?_
  rfl

/-- No section has a meaning for the key of the last entry. -/
theorem assign_lastEntry (sectionName val : List UInt8) (cfg : HandlerConfig) :
    assign sectionName v.lastEntry.key val cfg = some cfg := by
  unfold assign
  split_ifs <;> rfl

/-- The last entry changes nothing, whatever is in its text. -/
theorem parseLine_lastEntry (r : Reader) :
    ∃ r', parseLine r (v.lastEntry.line 2) = some r' ∧ r'.cfg = r.cfg :=
  parseLine_ignored r (indent_blank 2) (isName_of_all rfl) (assign_lastEntry (v := v) _ · r.cfg) _

theorem oneLine_text (t : Text) : 0x0A ∉ t.scalar := by
  have hbreak : isAscii 0x0A := by decide
  simp only [Text.scalar, quoted, List.mem_cons, List.mem_append, List.not_mem_nil, or_false,
    not_or]
  exact ⟨by decide, fun hmem => (t.quotable _ (mem_of_byte_mem_utf8 hbreak hmem)).2.2.1 rfl,
    by decide⟩

theorem oneLine_lines (h : v.Readable) :
    ∀ line ∈ v.document.flatMap Section.lines, 0x0A ∉ line := by
  rw [document_lines]
  refine List.forall_mem_append.mpr
    ⟨oneLine_document (shorter_fits h), List.forall_mem_singleton.mpr ?_⟩
  simp only [Member.line, Settings.lastEntry, List.mem_append, List.mem_cons, not_or]
  exact ⟨fun hmem => absurd (mem_indent hmem) (by decide), by decide, by decide, by decide,
    oneLine_text _⟩

/-- **Readable settings are read as they stand.** -/
theorem inHandler_of_readable (h : v.Readable) (stubMode : Bool) :
    ∃ cfg, parseSimpleYaml v.file { stubMode } = some cfg ∧ v.InHandler cfg := by
  obtain ⟨d, hd⟩ := Option.isSome_iff_exists.mp writes_zero.2
  obtain ⟨r', hfollows⟩ := follows_document (shorter_fits h)
    { sectionName := [], cfg := { stubMode } }
  obtain ⟨last, hlast, hkept⟩ := parseLine_lastEntry (v := v) r'
  have hcfg := Option.some.inj (hfollows.stored.symm.trans (shorter_stored hd _))
  refine ⟨last.cfg, ?_, ?_⟩
  · rw [parseSimpleYaml, Settings.file, fileText, getLines_text (oneLine_lines h), document_lines,
      List.foldlM_append, hfollows.read, Option.bind_eq_bind, Option.bind_some, List.foldlM_cons,
      hlast]
    rfl
  · rw [hkept, hcfg]
    exact ⟨unquote_scalar _, unquote_scalar _, unquote_scalar _, rfl, rfl, rfl, h.dpi.symm,
      h.mediaSampleRate.symm, h.speechSampleRate.symm, unquote_scalar _, unquote_scalar _,
      unquote_scalar _, unquote_scalar _⟩

/-! ## The server

No setting of the file is lost in the merge, and the environment overrides none of them. -/

theorem said_once : (v.said.map Prod.fst).Nodup := by
  have hsame : v.said.map Prod.fst = Config.defaults.map Prod.fst := rfl
  rw [hsame]
  decide

/-- The sections of the file have the keys of the defaults. -/
theorem get_said {name key : String} {base members : Yaml.Members} {leaf : Yaml}
    (hname : js name ≠ js "__proto__") (hsaid : v.said.lookup (js name) = some (.obj members))
    (hbase : Config.defaults.lookup (js name) = some (.obj base))
    (hsame : members.map Prod.fst = base.map Prod.fst) (honce : (base.map Prod.fst).Nodup)
    (hkey : js key ≠ js "__proto__") (hleaf : members.lookup (js key) = some leaf)
    (hscalar : ∀ b, Config.mergeValue b leaf = leaf) :
    Config.get (Config.deepMerge Config.defaults Config.defaults v.said) name key =
      .ok (some leaf) :=
  Config.get_merged said_once hname hsaid hbase (hsame ▸ honce) hkey hleaf hscalar

theorem inServer_merged :
    v.InServer (Config.deepMerge Config.defaults Config.defaults v.said) := by
  simp only [Settings.InServer, Settings.members, List.forall_mem_cons]
  refine ⟨?_, ?_, ?_, ?_, ?_, ?_, ?_, ?_, ?_, ?_, ?_, ?_, ?_, ?_, nofun⟩
  all_goals
    exact get_said (by decide) rfl rfl rfl (by decide) (by decide) rfl fun _ => by
      simp only [Config.mergeValue]

theorem hasSections_merged :
    Config.HasSections (Config.deepMerge Config.defaults Config.defaults v.said) :=
  ⟨⟨_, Config.lookup_section said_once (by decide) rfl rfl⟩,
    ⟨_, Config.lookup_section said_once (by decide) rfl rfl⟩⟩

/-- **The server has all settings**, whatever the environment is. -/
theorem inServer_loadConfig {parse : List UInt8 → Except Thrown Yaml}
    (hparse : parse v.file = .ok (.obj v.said)) (toNumber : JsString → Number) (env : Config.Env) :
    ∃ config, Config.loadConfig toNumber (fun _ => some (parse v.file)) env = .ok config ∧
      v.InServer config := by
  have hmerged : Config.merged (some (parse v.file)) =
      .ok (Config.deepMerge Config.defaults Config.defaults v.said) := by
    rw [hparse]
    rfl
  obtain ⟨config, hconfig, hkept⟩ := Config.loadConfig_of_merged toNumber
    (fun _ => some (parse v.file)) env hasSections_merged hmerged
  refine ⟨config, hconfig, fun m hm => ?_⟩
  have hother : js m.1 ≠ js "server" ∧ js m.1 ≠ js "security" := by
    have hall : ∀ name ∈ v.members.map Prod.fst,
        js name ≠ js "server" ∧ js name ≠ js "security" := by
      have hnames : v.members.map Prod.fst = ["head_unit", "head_unit", "head_unit", "video",
        "video", "video", "video", "audio", "audio", "ipc", "ipc", "ipc", "ipc", "ipc"] := rfl
      rw [hnames]
      decide
    exact hall m.1 (List.mem_map_of_mem hm)
  rw [hkept m.1 m.2.1 hother.1 hother.2]
  exact inServer_merged m hm

/-! ## Both -/

/-- **The handler and the server have the settings if and only if no text that the handler
reads has a `#`, and the density and the sample rates are the default ones.** -/
theorem agree_iff_readable {parse : List UInt8 → Except Thrown Yaml}
    (hparse : parse v.file = .ok (.obj v.said)) (toNumber : JsString → Number) (env : Config.Env)
    (aaStub : Option (List UInt8)) :
    ((∃ cfg, HandlerConfig.loadConfig aaStub (some v.file) = some cfg ∧ v.InHandler cfg) ∧
        ∃ config, Config.loadConfig toNumber (fun _ => some (parse v.file)) env = .ok config ∧
          v.InServer config) ↔ v.Readable := by
  constructor
  · rintro ⟨⟨cfg, hload, hcfg⟩, -⟩
    exact readable_of_inHandler (parseSimpleYaml_canBeRead hload (canBeRead_default _)) hcfg
  · exact fun h => ⟨inHandler_of_readable h _, inServer_loadConfig hparse toNumber env⟩

/-- An ASCII literal. -/
def Text.literal (s : String) (h : ((js s).all fun c => isAscii c && c != 0x22 && c != 0x5C &&
    c != 0x0A && c != 0x0D) = true) : Text where
  units := js s
  wellFormed := toWellFormed_of_latin1 fun c hc => by
    have hall := List.all_eq_true.mp h c hc
    simp only [Bool.and_eq_true] at hall
    exact Nat.lt_trans (toNat_lt_of_ascii hall.1.1.1.1) (by decide)
  quotable := fun c hc => by
    have hall := List.all_eq_true.mp h c hc
    simp only [Bool.and_eq_true, bne_iff_ne] at hall
    exact ⟨hall.1.1.1.2, hall.1.1.2, hall.1.2, hall.2⟩

/-- The settings of `config.yaml` itself. -/
def shipped : Settings where
  manufacturer := .literal "WHUTFA" rfl
  model := .literal "WHUTFA-1" rfl
  name := .literal "WHUTFA Web Head Unit" rfl
  width := 1280
  height := 720
  fps := 30
  dpi := 160
  mediaSampleRate := 48000
  speechSampleRate := 16000
  bridgeSocket := .literal "/tmp/aa-bridge.sock" rfl
  videoSocket := .literal "/tmp/aa-video.sock" rfl
  audioMediaSocket := .literal "/tmp/aa-audio-media.sock" rfl
  audioSpeechSocket := .literal "/tmp/aa-audio-speech.sock" rfl
  audioSystemSocket := .literal "/tmp/aa-audio-system.sock" rfl

/-- A parser that knows one text. -/
def parseShipped (content : List UInt8) : Except Thrown Yaml :=
  if content = shipped.file then .ok (.obj shipped.said) else .error .parseError

theorem shipped_readable : shipped.Readable :=
  ⟨by simp only [Settings.texts, List.forall_mem_cons]; decide, rfl, rfl, rfl⟩

theorem agree_shipped :
    (∃ cfg, HandlerConfig.loadConfig none (some shipped.file) = some cfg ∧
        shipped.InHandler cfg) ∧
      ∃ config, Config.loadConfig (fun _ => .nan) (fun _ => some (parseShipped shipped.file))
          ⟨none, none, none, none⟩ = .ok config ∧ shipped.InServer config :=
  (agree_iff_readable (if_pos rfl) _ _ none).mpr shipped_readable

/-- A number in the name, and the name ends in front of it. -/
theorem hash_ends_name :
    let v : Settings := { shipped with name := .literal "Car #1" rfl }
    ¬ ∃ cfg, HandlerConfig.loadConfig none (some v.file) = some cfg ∧ v.InHandler cfg := by
  rintro v ⟨cfg, hload, hcfg⟩
  have hreadable := readable_of_inHandler
    (parseSimpleYaml_canBeRead hload (canBeRead_default _)) hcfg
  have hname : v.name ∈ v.texts := List.mem_of_getElem? (i := 2) rfl
  exact hreadable.texts v.name hname (by decide)

end Whutfa.SharedConfig
