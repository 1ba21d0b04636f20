import Whutfa.CText
import Whutfa.Lines

/-! # The handler's configuration

`HandlerConfig` (`aa-handler/src/config.hpp`) and its reader (`aa-handler/src/config.cpp`):
`parse_simple_yaml` goes through the lines of the file with one variable for the section it
is in, whatever the indentation.  A result of `none` is an exception of `std::stoul` or
`std::stod`, which nothing catches.

What a line does is stated for each kind of line: blank or a comment (`parseLine_filler`), the
head of a section (`parseLine_header`), and an entry (`parseLine_entry`).
-/
namespace Whutfa

open CText (bytes)

/-- `HandlerConfig` with its defaults. -/
structure HandlerConfig where
  manufacturer : List UInt8 := bytes "WHUTFA"
  model : List UInt8 := bytes "WHUTFA-1"
  name : List UInt8 := bytes "WHUTFA Web Head Unit"
  videoWidth : UInt32 := 1280
  videoHeight : UInt32 := 720
  videoFps : UInt32 := 30
  videoDpi : UInt32 := 160
  mediaSampleRate : UInt32 := 48000
  speechSampleRate : UInt32 := 16000
  bridgeSocket : List UInt8 := bytes "/tmp/aa-bridge.sock"
  videoSocket : List UInt8 := bytes "/tmp/aa-video.sock"
  audioMediaSocket : List UInt8 := bytes "/tmp/aa-audio-media.sock"
  audioSpeechSocket : List UInt8 := bytes "/tmp/aa-audio-speech.sock"
  gpsEnabled : Bool := false
  gpsLat : CText.Double := .finite 0
  gpsLon : CText.Double := .finite 0
  stubMode : Bool := false

namespace HandlerConfig

/-! ## The reader

As in the source, the branch of a section is a chain of tests of the key, and a key that none
of them has leaves the configuration as it is. -/

/-- The characters that `trim` takes off. -/
def isBlank (c : UInt8) : Bool := c = 0x20 || c = 0x09 || c = 0x0D || c = 0x0A

/-- `trim`. -/
def trim (s : List UInt8) : List UInt8 :=
  ((s.dropWhile isBlank).reverse.dropWhile isBlank).reverse

/-- The lines that `std::getline` gives. -/
def getLines (content : List UInt8) : List (List UInt8) :=
  let (lines, rest) := (lineDeframer 0x0A).drain content
  lines ++ if rest = [] then [] else [rest]

/-- `val.substr(1, val.size() - 2)` for a value that begins with a quote. -/
def unquote (val : List UInt8) : List UInt8 :=
  if val.head? = some 0x22 then (val.drop 1).take (val.length - 2) else val

/-- The branch of `head_unit`. -/
def assignHeadUnit (key val : List UInt8) (cfg : HandlerConfig) : HandlerConfig :=
  let cfg := if key = bytes "manufacturer" then { cfg with manufacturer := val } else cfg
  let cfg := if key = bytes "model" then { cfg with model := val } else cfg
  if key = bytes "name" then { cfg with name := val } else cfg

/-- `static_cast<uint32_t>(std::stoul(val))`. -/
def toUInt32 (val : List UInt8) : Option UInt32 := (CText.stoul val).map UInt32.ofNat

/-- The branch of `video`. -/
def assignVideo (key val : List UInt8) (cfg : HandlerConfig) : Option HandlerConfig := do
  let cfg ← if key = bytes "width" then
    (toUInt32 val).map fun n => { cfg with videoWidth := n } else some cfg
  let cfg ← if key = bytes "height" then
    (toUInt32 val).map fun n => { cfg with videoHeight := n } else some cfg
  if key = bytes "fps" then
    (toUInt32 val).map fun n => { cfg with videoFps := n } else some cfg

/-- The branch of `ipc`. -/
def assignIpc (key val : List UInt8) (cfg : HandlerConfig) : HandlerConfig :=
  let cfg := if key = bytes "bridge_socket" then { cfg with bridgeSocket := val } else cfg
  let cfg := if key = bytes "video_socket" then { cfg with videoSocket := val } else cfg
  let cfg := if key = bytes "audio_media_socket" then { cfg with audioMediaSocket := val } else cfg
  if key = bytes "audio_speech_socket" then { cfg with audioSpeechSocket := val } else cfg

/-- The branch of `gps`. -/
def assignGps (key val : List UInt8) (cfg : HandlerConfig) : Option HandlerConfig := do
  let cfg := if key = bytes "enabled" ∧ val = bytes "true" then { cfg with gpsEnabled := true }
    else cfg
  let cfg ← if key = bytes "latitude" then
    (CText.stod val).map fun d => { cfg with gpsLat := d } else some cfg
  if key = bytes "longitude" then
    (CText.stod val).map fun d => { cfg with gpsLon := d } else some cfg

/-- What an entry of a section does. -/
def assign (sectionName key val : List UInt8) (cfg : HandlerConfig) : Option HandlerConfig :=
  if sectionName = bytes "head_unit" then some (assignHeadUnit key val cfg)
  else if sectionName = bytes "video" then assignVideo key val cfg
  else if sectionName = bytes "ipc" then some (assignIpc key val cfg)
  else if sectionName = bytes "sensors" ∧ key = bytes "gps" then some cfg
  else if sectionName = bytes "gps" ∨ (sectionName = bytes "sensors" ∧ key = bytes "enabled") then
    assignGps key val cfg
  else some cfg

/-- Where the reader is: `section`, and the configuration so far. -/
structure Reader where
  sectionName : List UInt8
  cfg : HandlerConfig

/-- One turn of the loop of `parse_simple_yaml`. -/
def parseLine (s : Reader) (line : List UInt8) : Option Reader :=
  let line := trim (line.takeWhile (· ≠ 0x23))
  if line = [] then some s
  else if line.getLast? = some 0x3A then some { s with sectionName := line.dropLast }
  else if 0x3A ∉ line then some s
  else
    let key := trim (line.takeWhile (· ≠ 0x3A))
    let val := unquote (trim ((line.dropWhile (· ≠ 0x3A)).drop 1))
    (assign s.sectionName key val s.cfg).map fun cfg => { s with cfg }

/-- `parse_simple_yaml`; `none` if a number cannot be converted. -/
def parseSimpleYaml (content : List UInt8) (cfg : HandlerConfig) : Option HandlerConfig :=
  ((getLines content).foldlM parseLine { sectionName := [], cfg }).map Reader.cfg

/-- `load_config`, with the value of `AA_STUB` and the file, if there is one. -/
def loadConfig (aaStub file : Option (List UInt8)) : Option HandlerConfig :=
  let cfg : HandlerConfig := { stubMode := aaStub = some (bytes "1") }
  match file with
  | none => some cfg
  | some content => parseSimpleYaml content cfg

/-! ## Lines

Each kind of line is recognised by how it begins and ends once it is trimmed; `Tight` is what
trimming leaves alone. -/

theorem getLines_text {lines : List (List UInt8)} (h : ∀ line ∈ lines, 0x0A ∉ line) :
    getLines (lines.flatMap (· ++ [0x0A])) = lines := by
  have hfeed : (lineDeframer (0x0A : UInt8)).feed [] [lines.flatMap (· ++ [0x0A])] = (lines, []) :=
    Lines.feed_lines h (by simp)
  have hdrain : (lineDeframer (0x0A : UInt8)).drain (lines.flatMap (· ++ [0x0A])) =
      (lines, []) := by
    simp only [Deframer.feed, Deframer.push, List.nil_append, List.append_nil] at hfeed
    exact hfeed
  simp [getLines, hdrain]

/-- A text that `trim` leaves as it is: something visible stands at both ends. -/
def Tight (t : List UInt8) : Prop :=
  (∀ c, t.head? = some c → isBlank c = false) ∧ ∀ c, t.getLast? = some c → isBlank c = false

theorem dropWhile_of_head {t : List UInt8} (ht : ∀ c, t.head? = some c → isBlank c = false) :
    t.dropWhile isBlank = t := by
  cases t with
  | nil => rfl
  | cons c t => exact List.dropWhile_cons_of_neg (by simp [ht c rfl])

theorem trim_indented {blank t : List UInt8} (hblank : ∀ c ∈ blank, isBlank c = true)
    (h : Tight t) : trim (blank ++ t) = t := by
  have hlast : ∀ c, t.reverse.head? = some c → isBlank c = false := by
    intro c hc
    rw [List.head?_reverse] at hc
    exact h.2 c hc
  rw [trim, List.dropWhile_append_of_pos hblank, dropWhile_of_head h.1, dropWhile_of_head hlast,
    List.reverse_reverse]

theorem trim_tight {t : List UInt8} (h : Tight t) : trim t = t :=
  trim_indented (List.forall_mem_nil _) h

theorem trim_blank {blank : List UInt8} (hblank : ∀ c ∈ blank, isBlank c = true) :
    trim blank = [] := by
  have htight : Tight ([] : List UInt8) := ⟨nofun, nofun⟩
  have hnil := trim_indented hblank htight
  rwa [List.append_nil] at hnil

theorem takeWhile_ne_of_not_mem {c : UInt8} {t : List UInt8} (h : c ∉ t) :
    t.takeWhile (· ≠ c) = t := by
  rw [List.takeWhile_eq_self_iff]
  intro d hd
  exact decide_eq_true fun heq => h (heq ▸ hd)

/-- A blank line, or one with a comment only. -/
def IsFiller (line : List UInt8) : Prop :=
  0x0A ∉ line ∧ ∀ c ∈ line.takeWhile (· ≠ 0x23), isBlank c = true

theorem parseLine_filler (s : Reader) {line : List UInt8} (h : IsFiller line) :
    parseLine s line = some s := by
  unfold parseLine
  simp only [trim_blank h.2, if_true]

/-- A name of a section or a key: visible characters, without the ones of the syntax. -/
def IsName (t : List UInt8) : Prop :=
  t ≠ [] ∧ ∀ c ∈ t, isBlank c = false ∧ c ≠ 0x3A ∧ c ≠ 0x23

theorem IsName.head {t : List UInt8} (h : IsName t) :
    ∀ c, t.head? = some c → isBlank c = false := fun c hc => (h.2 c (List.mem_of_head? hc)).1

theorem IsName.tight {t : List UInt8} (h : IsName t) : Tight t :=
  ⟨h.head, fun c hc => (h.2 c (List.mem_of_getLast? hc)).1⟩

/-- The head of a section, or of the mapping that is nested. -/
theorem parseLine_header (s : Reader) {blank name : List UInt8}
    (hblank : ∀ c ∈ blank, isBlank c = true ∧ c ≠ 0x23) (hname : IsName name) :
    parseLine s (blank ++ (name ++ [0x3A])) = some { s with sectionName := name } := by
  have hhash : (0x23 : UInt8) ∉ blank ++ (name ++ [0x3A]) := by
    simp only [List.mem_append, List.mem_singleton, not_or]
    exact ⟨fun hmem => (hblank _ hmem).2 rfl, fun hmem => (hname.2 _ hmem).2.2 rfl, by decide⟩
  have htight : Tight (name ++ [0x3A]) := by
    constructor
    · intro c hc
      rw [List.head?_append_of_ne_nil _ hname.1] at hc
      exact hname.head c hc
    · intro c hc
      rw [List.getLast?_concat] at hc
      obtain rfl := Option.some.inj hc
      decide
  unfold parseLine
  simp only [takeWhile_ne_of_not_mem hhash, trim_indented (fun c hc => (hblank c hc).1) htight]
  rw [if_neg (by simp), if_pos List.getLast?_concat, List.dropLast_concat]

/-- What stands behind the colon of an entry: something visible that is no head. -/
structure IsValue (text : List UInt8) : Prop where
  nonempty : text ≠ []
  tight : Tight text
  noComment : 0x23 ∉ text
  noHeader : text.getLast? ≠ some 0x3A

theorem parseLine_entry (s : Reader) {blank key text : List UInt8}
    (hblank : ∀ c ∈ blank, isBlank c = true ∧ c ≠ 0x23) (hkey : IsName key)
    (htext : IsValue text) :
    parseLine s (blank ++ (key ++ 0x3A :: 0x20 :: text)) =
      (assign s.sectionName key (unquote text) s.cfg).map fun cfg => { s with cfg } := by
  have hhash : (0x23 : UInt8) ∉ blank ++ (key ++ 0x3A :: 0x20 :: text) := by
    simp only [List.mem_append, List.mem_cons, not_or]
    exact ⟨fun hmem => (hblank _ hmem).2 rfl, fun hmem => (hkey.2 _ hmem).2.2 rfl, by decide,
      by decide, htext.noComment⟩
  have hlast : (key ++ 0x3A :: 0x20 :: text).getLast? = text.getLast? := by
    rw [show key ++ 0x3A :: 0x20 :: text = (key ++ [0x3A, 0x20]) ++ text by simp,
      List.getLast?_append_of_ne_nil _ htext.nonempty]
  have htight : Tight (key ++ 0x3A :: 0x20 :: text) := by
    constructor
    · intro c hc
      rw [List.head?_append_of_ne_nil _ hkey.1] at hc
      exact hkey.head c hc
    · rw [hlast]
      exact htext.tight.2
  have hcolon : ∀ c ∈ key, (decide (c ≠ 0x3A)) = true := fun c hc =>
    decide_eq_true (hkey.2 c hc).2.1
  have htake : (key ++ 0x3A :: 0x20 :: text).takeWhile (· ≠ 0x3A) = key := by
    rw [List.takeWhile_append_of_pos hcolon, List.takeWhile_cons_of_neg (by simp), List.append_nil]
  have hdrop : (key ++ 0x3A :: 0x20 :: text).dropWhile (· ≠ 0x3A) = 0x3A :: 0x20 :: text := by
    rw [List.dropWhile_append_of_pos hcolon, List.dropWhile_cons_of_neg (by simp)]
  have hspace : ∀ c ∈ [(0x20 : UInt8)], isBlank c = true := List.all_eq_true.mp rfl
  have hvalue : trim (0x20 :: text) = text := trim_indented hspace htext.tight
  unfold parseLine
  simp only [takeWhile_ne_of_not_mem hhash, trim_indented (fun c hc => (hblank c hc).1) htight,
    htake, hdrop, trim_tight hkey.tight, List.drop_one, List.tail_cons, hvalue]
  rw [if_neg (by simp), hlast, if_neg htext.noHeader, if_neg (by simp)]

/-! ## Entries

An entry either throws, whatever has been read so far, or puts one value in one place.  So two
entries with different places can be exchanged, which is what makes the order of a file
irrelevant. -/

/-- What an entry of `video` does when its value is a number. -/
theorem assignVideo_of_toUInt32 {val : List UInt8} {n : UInt32} (h : toUInt32 val = some n)
    (key : List UInt8) (cfg : HandlerConfig) :
    assignVideo key val cfg = some { cfg with
      videoWidth := if key = bytes "width" then n else cfg.videoWidth
      videoHeight := if key = bytes "height" then n else cfg.videoHeight
      videoFps := if key = bytes "fps" then n else cfg.videoFps } := by
  unfold assignVideo
  rw [h]
  split_ifs <;> rfl

theorem assignGps_of_stod {val : List UInt8} {d : CText.Double} (h : CText.stod val = some d)
    (key : List UInt8) (cfg : HandlerConfig) :
    assignGps key val cfg = some { cfg with
      gpsEnabled := if key = bytes "enabled" ∧ val = bytes "true" then true else cfg.gpsEnabled
      gpsLat := if key = bytes "latitude" then d else cfg.gpsLat
      gpsLon := if key = bytes "longitude" then d else cfg.gpsLon } := by
  unfold assignGps
  rw [h]
  split_ifs <;> rfl

/-- What an entry that throws no exception does to the configuration. -/
inductive Effect (val : List UInt8) :
    List UInt8 → List UInt8 → (HandlerConfig → HandlerConfig) → Prop
  | ignored (sectionName key : List UInt8) : Effect val sectionName key id
  | manufacturer : Effect val (bytes "head_unit") (bytes "manufacturer")
      fun cfg => { cfg with manufacturer := val }
  | model : Effect val (bytes "head_unit") (bytes "model") fun cfg => { cfg with model := val }
  | name : Effect val (bytes "head_unit") (bytes "name") fun cfg => { cfg with name := val }
  | width (n : UInt32) (h : toUInt32 val = some n) :
      Effect val (bytes "video") (bytes "width") fun cfg => { cfg with videoWidth := n }
  | height (n : UInt32) (h : toUInt32 val = some n) :
      Effect val (bytes "video") (bytes "height") fun cfg => { cfg with videoHeight := n }
  | fps (n : UInt32) (h : toUInt32 val = some n) :
      Effect val (bytes "video") (bytes "fps") fun cfg => { cfg with videoFps := n }
  | bridgeSocket : Effect val (bytes "ipc") (bytes "bridge_socket")
      fun cfg => { cfg with bridgeSocket := val }
  | videoSocket : Effect val (bytes "ipc") (bytes "video_socket")
      fun cfg => { cfg with videoSocket := val }
  | audioMediaSocket : Effect val (bytes "ipc") (bytes "audio_media_socket")
      fun cfg => { cfg with audioMediaSocket := val }
  | audioSpeechSocket : Effect val (bytes "ipc") (bytes "audio_speech_socket")
      fun cfg => { cfg with audioSpeechSocket := val }
  /-- `enabled` is read in `sensors` too, and only `true` has an effect. -/
  | gpsEnabled (sectionName : List UInt8) : Effect val sectionName (bytes "enabled")
      fun cfg => { cfg with gpsEnabled := true }
  | gpsLat (d : CText.Double) (h : CText.stod val = some d) :
      Effect val (bytes "gps") (bytes "latitude") fun cfg => { cfg with gpsLat := d }
  | gpsLon (d : CText.Double) (h : CText.stod val = some d) :
      Effect val (bytes "gps") (bytes "longitude") fun cfg => { cfg with gpsLon := d }

/-- An entry throws whatever the configuration is, or has its effect on all. -/
def Settles (sectionName key val : List UInt8) : Prop :=
  (∀ cfg, assign sectionName key val cfg = none) ∨
    ∃ e, Effect val sectionName key e ∧ ∀ cfg, assign sectionName key val cfg = some (e cfg)

/-- An entry whose value is converted first. -/
theorem settles_of_map {α : Type} {sectionName key val : List UInt8} {converted : Option α}
    {store : α → HandlerConfig → HandlerConfig}
    (heffect : ∀ a, converted = some a → Effect val sectionName key (store a))
    (hassign : ∀ cfg, assign sectionName key val cfg = converted.map fun a => store a cfg) :
    Settles sectionName key val := by
  cases hconverted : converted with
  | none => exact Or.inl fun cfg => by rw [hassign, hconverted]; rfl
  | some a => exact Or.inr ⟨store a, heffect a hconverted, fun cfg => by
      rw [hassign, hconverted]; rfl⟩

theorem settles_of_eq {sectionName key val : List UInt8} {e : HandlerConfig → HandlerConfig}
    (heffect : Effect val sectionName key e)
    (hassign : ∀ cfg, assign sectionName key val cfg = some (e cfg)) :
    Settles sectionName key val := Or.inr ⟨e, heffect, hassign⟩

theorem settles_headUnit (key val : List UInt8) : Settles (bytes "head_unit") key val := by
  by_cases hmanufacturer : key = bytes "manufacturer"
  · subst hmanufacturer
    exact settles_of_eq .manufacturer fun _ => rfl
  by_cases hmodel : key = bytes "model"
  · subst hmodel
    exact settles_of_eq .model fun _ => rfl
  by_cases hname : key = bytes "name"
  · subst hname
    exact settles_of_eq .name fun _ => rfl
  refine settles_of_eq (.ignored _ _) fun cfg => ?_
  simp only [assign, assignHeadUnit, if_true, hmanufacturer, hmodel, hname, if_false]
  rfl

theorem settles_video (key val : List UInt8) : Settles (bytes "video") key val := by
  have hbranch : ∀ cfg, assign (bytes "video") key val cfg = assignVideo key val cfg :=
    fun _ => rfl
  by_cases hwidth : key = bytes "width"
  · subst hwidth
    refine settles_of_map .width fun cfg => ?_
    rw [hbranch]
    unfold assignVideo
    cases toUInt32 val <;> rfl
  by_cases hheight : key = bytes "height"
  · subst hheight
    refine settles_of_map .height fun cfg => ?_
    rw [hbranch]
    unfold assignVideo
    cases toUInt32 val <;> rfl
  by_cases hfps : key = bytes "fps"
  · subst hfps
    refine settles_of_map .fps fun cfg => ?_
    rw [hbranch]
    unfold assignVideo
    cases toUInt32 val <;> rfl
  refine settles_of_eq (.ignored _ _) fun cfg => ?_
  rw [hbranch]
  simp only [assignVideo, hwidth, hheight, hfps, if_false]
  rfl

theorem settles_ipc (key val : List UInt8) : Settles (bytes "ipc") key val := by
  by_cases hbridge : key = bytes "bridge_socket"
  · subst hbridge
    exact settles_of_eq .bridgeSocket fun _ => rfl
  by_cases hvideo : key = bytes "video_socket"
  · subst hvideo
    exact settles_of_eq .videoSocket fun _ => rfl
  by_cases hmedia : key = bytes "audio_media_socket"
  · subst hmedia
    exact settles_of_eq .audioMediaSocket fun _ => rfl
  by_cases hspeech : key = bytes "audio_speech_socket"
  · subst hspeech
    exact settles_of_eq .audioSpeechSocket fun _ => rfl
  refine settles_of_eq (.ignored _ _) fun cfg => ?_
  have hbranch : assign (bytes "ipc") key val cfg = some (assignIpc key val cfg) := rfl
  rw [hbranch]
  simp only [assignIpc, hbridge, hvideo, hmedia, hspeech, if_false]
  rfl

/-- `enabled`, in either of its sections. -/
theorem settles_enabled {sectionName val : List UInt8}
    (hassign : ∀ cfg, assign sectionName (bytes "enabled") val cfg =
      assignGps (bytes "enabled") val cfg) : Settles sectionName (bytes "enabled") val := by
  by_cases htrue : val = bytes "true"
  · subst htrue
    exact settles_of_eq (.gpsEnabled sectionName) fun cfg => by rw [hassign]; rfl
  · refine settles_of_eq (.ignored _ _) fun cfg => ?_
    rw [hassign]
    simp only [assignGps, htrue, and_false, if_false]
    rfl

theorem settles_gps (key val : List UInt8) : Settles (bytes "gps") key val := by
  have hbranch : ∀ cfg, assign (bytes "gps") key val cfg = assignGps key val cfg := fun _ => rfl
  by_cases henabled : key = bytes "enabled"
  · subst henabled
    exact settles_enabled hbranch
  by_cases hlat : key = bytes "latitude"
  · subst hlat
    refine settles_of_map .gpsLat fun cfg => ?_
    rw [hbranch]
    unfold assignGps
    cases CText.stod val <;> rfl
  by_cases hlon : key = bytes "longitude"
  · subst hlon
    refine settles_of_map .gpsLon fun cfg => ?_
    rw [hbranch]
    unfold assignGps
    cases CText.stod val <;> rfl
  refine settles_of_eq (.ignored _ _) fun cfg => ?_
  rw [hbranch]
  simp only [assignGps, henabled, hlat, hlon, false_and, if_false]
  rfl

theorem settles_sensors (key val : List UInt8) : Settles (bytes "sensors") key val := by
  by_cases henabled : key = bytes "enabled"
  · subst henabled
    refine settles_enabled fun cfg => ?_
    rw [assign, if_neg (by decide), if_neg (by decide), if_neg (by decide), if_neg (by decide),
      if_pos (by decide)]
  · refine settles_of_eq (.ignored _ _) fun cfg => ?_
    have hgps : bytes "sensors" ≠ bytes "gps" := by decide
    have hother : assign (bytes "sensors") key val cfg =
        if bytes "sensors" = bytes "sensors" ∧ key = bytes "gps" then some cfg
        else if bytes "sensors" = bytes "gps" ∨
            (bytes "sensors" = bytes "sensors" ∧ key = bytes "enabled") then assignGps key val cfg
        else some cfg := rfl
    rw [hother]
    simp only [hgps, henabled, and_false, or_self, if_false, ite_self]
    rfl

/-- **What an entry does is the same for every configuration.** -/
theorem settles (sectionName key val : List UInt8) : Settles sectionName key val := by
  by_cases hhead : sectionName = bytes "head_unit"
  · exact hhead ▸ settles_headUnit key val
  by_cases hvideo : sectionName = bytes "video"
  · exact hvideo ▸ settles_video key val
  by_cases hipc : sectionName = bytes "ipc"
  · exact hipc ▸ settles_ipc key val
  by_cases hgps : sectionName = bytes "gps"
  · exact hgps ▸ settles_gps key val
  by_cases hsensors : sectionName = bytes "sensors"
  · exact hsensors ▸ settles_sensors key val
  refine settles_of_eq (.ignored _ _) fun cfg => ?_
  simp only [assign, hhead, hvideo, hipc, hgps, hsensors, false_and, or_self, if_false]
  rfl

/-- Entries with different places have effects that commute. -/
theorem Effect.comm {s k v s' k' v' : List UInt8} {e e' : HandlerConfig → HandlerConfig}
    (h : Effect v s k e) (h' : Effect v' s' k' e') (hne : (s, k) ≠ (s', k'))
    (cfg : HandlerConfig) : e (e' cfg) = e' (e cfg) := by
  cases h <;> cases h' <;> first | rfl | exact absurd rfl hne

theorem assign_comm {s k v s' k' v' : List UInt8} (hne : (s, k) ≠ (s', k'))
    (cfg : HandlerConfig) :
    (assign s k v cfg).bind (assign s' k' v') = (assign s' k' v' cfg).bind (assign s k v) := by
  have hnone : ∀ o : Option HandlerConfig, o.bind (fun _ => (none : Option HandlerConfig)) = none :=
    fun o => by cases o <;> rfl
  rcases settles s k v with hthrows | ⟨e, heffect, hassign⟩
  · rw [funext hthrows, hnone]
    rfl
  · rcases settles s' k' v' with hthrows | ⟨e', heffect', hassign'⟩
    · rw [funext hthrows, hnone]
      rfl
    · rw [hassign, hassign', Option.bind_some, Option.bind_some, hassign, hassign',
        heffect.comm heffect' hne]

/-! ## What is never read

The line is cut at its first `#`, quoted or not, before anything else is done with it.  Nothing
that comes out of a file has one therefore, and what no branch assigns keeps its default. -/

theorem mem_of_mem_trim {c : UInt8} {t : List UInt8} (h : c ∈ trim t) : c ∈ t := by
  have hback : c ∈ (t.dropWhile isBlank).reverse :=
    (List.dropWhile_suffix _).subset (List.mem_reverse.mp h)
  exact (List.dropWhile_suffix _).subset (List.mem_reverse.mp hback)

theorem mem_of_mem_unquote {c : UInt8} {val : List UInt8} (h : c ∈ unquote val) : c ∈ val := by
  unfold unquote at h
  split at h
  · exact List.mem_of_mem_drop (List.mem_of_mem_take h)
  · exact h

/-- What a line does, whatever it is. -/
theorem parseLine_cases (s : Reader) (line : List UInt8) :
    (∃ name, parseLine s line = some { s with sectionName := name }) ∨
      ∃ val, 0x23 ∉ val ∧ parseLine s line =
        (assign s.sectionName (trim ((trim (line.takeWhile (· ≠ 0x23))).takeWhile (· ≠ 0x3A))) val
          s.cfg).map fun cfg => { s with cfg } := by
  by_cases hempty : trim (line.takeWhile (· ≠ 0x23)) = []
  · exact Or.inl ⟨s.sectionName, by unfold parseLine; simp only [hempty, if_true]⟩
  by_cases hheader : (trim (line.takeWhile (· ≠ 0x23))).getLast? = some 0x3A
  · exact Or.inl ⟨_, by unfold parseLine; simp only [hempty, hheader, if_false, if_true]; rfl⟩
  by_cases hcolon : 0x3A ∉ trim (line.takeWhile (· ≠ 0x23))
  · exact Or.inl ⟨s.sectionName, by
      unfold parseLine
      simp only [hempty, hheader, hcolon, not_false_eq_true, if_false, if_true]⟩
  refine Or.inr ⟨unquote (trim (((trim (line.takeWhile (· ≠ 0x23))).dropWhile (· ≠ 0x3A)).drop 1)),
    fun hmem => ?_, by unfold parseLine; simp only [hempty, hheader, hcolon, if_false]⟩
  -- the value is a part of what stands before the first `#`
  have hline := mem_of_mem_trim ((List.dropWhile_suffix _).subset
    (List.mem_of_mem_drop (mem_of_mem_trim (mem_of_mem_unquote hmem))))
  have hne := List.mem_takeWhile_imp hline
  exact absurd rfl (of_decide_eq_true hne)

/-- Trimming goes no further than the colon. -/
theorem trim_name_colon {blank key : List UInt8} (hblank : ∀ c ∈ blank, isBlank c = true)
    (hkey : IsName key) (rest : List UInt8) :
    ∃ rest', trim (blank ++ (key ++ 0x3A :: rest)) = key ++ 0x3A :: rest' := by
  have hback : ∀ a b : List UInt8,
      (a ++ 0x3A :: b).dropWhile isBlank = a.dropWhile isBlank ++ 0x3A :: b := by
    intro a b
    induction a with
    | nil => rfl
    | cons c a ih =>
      rw [List.cons_append, List.dropWhile_cons, List.dropWhile_cons]
      by_cases hc : isBlank c = true
      · rw [if_pos hc, if_pos hc, ih]
      · rw [if_neg hc, if_neg hc]
        rfl
  have hhead : ∀ c, (key ++ 0x3A :: rest).head? = some c → isBlank c = false := by
    intro c hc
    rw [List.head?_append_of_ne_nil _ hkey.1] at hc
    exact hkey.head c hc
  refine ⟨(rest.reverse.dropWhile isBlank).reverse, ?_⟩
  rw [trim, List.dropWhile_append_of_pos hblank, dropWhile_of_head hhead, List.reverse_append,
    List.reverse_cons, List.append_assoc, List.singleton_append, hback, List.reverse_append,
    List.reverse_cons, List.reverse_reverse, List.append_assoc, List.singleton_append]

/-- An entry whose key has no meaning where it is read, with any text behind it. -/
theorem parseLine_ignored (s : Reader) {blank key : List UInt8}
    (hblank : ∀ c ∈ blank, isBlank c = true ∧ c ≠ 0x23) (hkey : IsName key)
    (hassign : ∀ val, assign s.sectionName key val s.cfg = some s.cfg) (rest : List UInt8) :
    ∃ s', parseLine s (blank ++ (key ++ 0x3A :: rest)) = some s' ∧ s'.cfg = s.cfg := by
  rcases parseLine_cases s (blank ++ (key ++ 0x3A :: rest)) with ⟨name, hname⟩ | ⟨val, -, hline⟩
  · exact ⟨_, hname, rfl⟩
  · have hcut : (blank ++ (key ++ 0x3A :: rest)).takeWhile (· ≠ 0x23) =
        blank ++ (key ++ 0x3A :: rest.takeWhile (· ≠ 0x23)) := by
      rw [List.takeWhile_append_of_pos fun c hc => decide_eq_true (hblank c hc).2,
        List.takeWhile_append_of_pos fun c hc => decide_eq_true (hkey.2 c hc).2.2,
        List.takeWhile_cons_of_pos (by decide)]
    obtain ⟨rest', hrest'⟩ := trim_name_colon (fun c hc => (hblank c hc).1) hkey
      (rest.takeWhile (· ≠ 0x23))
    have htake : (key ++ 0x3A :: rest').takeWhile (· ≠ 0x3A) = key := by
      rw [List.takeWhile_append_of_pos fun c hc => decide_eq_true (hkey.2 c hc).2.1,
        List.takeWhile_cons_of_neg (by simp), List.append_nil]
    rw [hcut, hrest', htake, trim_tight hkey.tight, hassign] at hline
    exact ⟨s, hline, rfl⟩

/-- The texts of a configuration that the file has too. -/
def texts (cfg : HandlerConfig) : List (List UInt8) :=
  [cfg.manufacturer, cfg.model, cfg.name, cfg.bridgeSocket, cfg.videoSocket, cfg.audioMediaSocket,
    cfg.audioSpeechSocket]

/-- What every configuration that is read has: no `#` in a text, and the numbers that no entry
assigns. -/
structure CanBeRead (cfg : HandlerConfig) : Prop where
  texts : ∀ t ∈ cfg.texts, 0x23 ∉ t
  videoDpi : cfg.videoDpi = 160
  mediaSampleRate : cfg.mediaSampleRate = 48000
  speechSampleRate : cfg.speechSampleRate = 16000

theorem Effect.canBeRead {val sectionName key : List UInt8} {e : HandlerConfig → HandlerConfig}
    (h : Effect val sectionName key e) (hval : 0x23 ∉ val) {cfg : HandlerConfig}
    (hcfg : CanBeRead cfg) : CanBeRead (e cfg) := by
  obtain ⟨htexts, hdpi, hmedia, hspeech⟩ := hcfg
  refine ⟨?_, ?_, ?_, ?_⟩
  · simp only [HandlerConfig.texts, List.forall_mem_cons] at htexts
    cases h <;> simp [HandlerConfig.texts, hval, htexts]
  · cases h <;> exact hdpi
  · cases h <;> exact hmedia
  · cases h <;> exact hspeech

theorem parseLine_canBeRead {s s' : Reader} {line : List UInt8} (h : parseLine s line = some s')
    (hcfg : CanBeRead s.cfg) : CanBeRead s'.cfg := by
  rcases parseLine_cases s line with ⟨name, hname⟩ | ⟨val, hval, hassign⟩
  · obtain rfl := Option.some.inj (hname.symm.trans h)
    exact hcfg
  · rw [h] at hassign
    obtain ⟨cfg, hcfg', rfl⟩ := Option.map_eq_some_iff.mp hassign.symm
    rcases settles s.sectionName _ val with hthrows | ⟨e, heffect, heq⟩
    · rw [hthrows] at hcfg'
      cases hcfg'
    · obtain rfl := Option.some.inj ((heq s.cfg).symm.trans hcfg')
      exact heffect.canBeRead hval hcfg

/-- **Nothing that is read has a `#`, another density or other sample rates.** -/
theorem parseSimpleYaml_canBeRead {content : List UInt8} {cfg cfg' : HandlerConfig}
    (h : parseSimpleYaml content cfg = some cfg') (hcfg : CanBeRead cfg) : CanBeRead cfg' := by
  have hrun : ∀ (lines : List (List UInt8)) (s s' : Reader), lines.foldlM parseLine s = some s' →
      CanBeRead s.cfg → CanBeRead s'.cfg := by
    intro lines
    induction lines with
    | nil =>
      intro s s' h hs
      obtain rfl := Option.some.inj h
      exact hs
    | cons line lines ih =>
      intro s s' h hs
      rw [List.foldlM_cons] at h
      obtain ⟨mid, hline, hrest⟩ := Option.bind_eq_some_iff.mp h
      exact ih mid s' hrest (parseLine_canBeRead hline hs)
  obtain ⟨s', hs', rfl⟩ := Option.map_eq_some_iff.mp h
  exact hrun _ _ s' hs' hcfg

end HandlerConfig

end Whutfa
