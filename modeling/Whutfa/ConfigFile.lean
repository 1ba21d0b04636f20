import Mathlib.Data.List.Forall2
import Mathlib.Data.List.Nodup
import Mathlib.Data.List.Perm.Basic
import Whutfa.HandlerConfig

/-! # Configuration files

Files in the layout of `config/config.yaml`: sections, their entries, and the mapping `gps`
that is nested in `sensors`.  `parse_simple_yaml` takes what follows the nested mapping for
entries of `gps`; a file in the layout is read as it stands all the same (`read_document`), and
so the order of its parts and the fillers between them do not matter (`order_irrelevant`).
-/
namespace Whutfa.ConfigFile

open CText (bytes)
open HandlerConfig

/-! ## The layout

A document is described by its parts, and its lines are made from them, so that two orders of
the same parts are two descriptions of one set of scalars. -/

/-- What the handler's reader takes the text of a member for. -/
inductive Kind
  | string | integer | decimal | boolean
  deriving DecidableEq

/-- A scalar without quotes, on one line. -/
structure IsPlain (text : List UInt8) : Prop extends IsValue text where
  oneLine : 0x0A ∉ text
  noQuote : text.head? ≠ some 0x22

/-- The texts of a scalar. -/
def Kind.Writes : Kind → List UInt8 → Prop
  | .string, text => ∃ s, text = 0x22 :: (s ++ [0x22]) ∧ 0x22 ∉ s ∧ 0x23 ∉ s ∧ 0x0A ∉ s
  | .integer, text => IsPlain text ∧ (CText.stoul text).isSome
  | .decimal, text => IsPlain text ∧ (CText.stod text).isSome
  | .boolean, text => text = bytes "true" ∨ text = bytes "false"

/-- The keys of the mapping that is nested in `sensors`. -/
def gpsKeys : List (List UInt8 × Kind) :=
  [(bytes "enabled", .boolean), (bytes "latitude", .decimal), (bytes "longitude", .decimal)]

/-- The sections, with the keys of their scalars. -/
def sections : List (List UInt8 × List (List UInt8 × Kind)) :=
  [(bytes "head_unit",
      [(bytes "manufacturer", .string), (bytes "model", .string), (bytes "name", .string)]),
    (bytes "video",
      [(bytes "width", .integer), (bytes "height", .integer), (bytes "fps", .integer),
        (bytes "dpi", .integer)]),
    (bytes "audio",
      [(bytes "media_sample_rate", .integer), (bytes "speech_sample_rate", .integer)]),
    (bytes "server",
      [(bytes "http_port", .integer), (bytes "bind_address", .string),
        (bytes "access_token", .string), (bytes "bind_localhost_only", .boolean)]),
    (bytes "security", [(bytes "require_token", .boolean)]),
    (bytes "bluetooth",
      [(bytes "enabled", .boolean), (bytes "adapter_name", .string), (bytes "pin", .string)]),
    (bytes "sensors", [(bytes "night_mode", .boolean), (bytes "driving_status", .string)]),
    (bytes "diagnostics",
      [(bytes "log_level", .string), (bytes "ssl_clock_max_skew_sec", .integer)]),
    (bytes "ipc",
      [(bytes "bridge_socket", .string), (bytes "video_socket", .string),
        (bytes "audio_media_socket", .string), (bytes "audio_speech_socket", .string),
        (bytes "audio_system_socket", .string)])]

/-- A key with its scalar. -/
structure Member where
  key : List UInt8
  text : List UInt8

/-- What stands in a section: a scalar, or the nested mapping of `sensors`. -/
inductive Entry
  | scalar (m : Member)
  | gps (members : List Member)

/-- A mapping at the top of the file. -/
structure Section where
  name : List UInt8
  entries : List Entry

/-- The blanks in front of a line. -/
def indent (n : Nat) : List UInt8 := List.replicate n 0x20

/-- The line of a member, behind `n` blanks. -/
def Member.line (n : Nat) (m : Member) : List UInt8 :=
  indent n ++ (m.key ++ 0x3A :: 0x20 :: m.text)

/-- The lines of an entry. -/
def Entry.lines : Entry → List (List UInt8)
  | .scalar m => [m.line 2]
  | .gps members => (indent 2 ++ (bytes "gps" ++ [0x3A])) :: members.map (Member.line 4)

/-- The lines of a section. -/
def Section.lines (s : Section) : List (List UInt8) :=
  (indent 0 ++ (s.name ++ [0x3A])) :: s.entries.flatMap Entry.lines

/-- The scalars of an entry, with the mapping that each stands in. -/
def Entry.leaves (sectionName : List UInt8) : Entry → List (List UInt8 × Member)
  | .scalar m => [(sectionName, m)]
  | .gps members => members.map (bytes "gps", ·)

/-- The scalars of a section. -/
def Section.leaves (s : Section) : List (List UInt8 × Member) :=
  s.entries.flatMap (Entry.leaves s.name)

/-- The key is one of those that are read here, and the text is one of its kind. -/
def Member.Fits (keys : List (List UInt8 × Kind)) (m : Member) : Prop :=
  ∃ kind, (m.key, kind) ∈ keys ∧ kind.Writes m.text

/-- The entry's keys are those of the section; only `sensors` has a nested mapping. -/
def Entry.Fits (sectionName : List UInt8) (keys : List (List UInt8 × Kind)) : Entry → Prop
  | .scalar m => m.Fits keys
  | .gps members => sectionName = bytes "sensors" ∧ ∀ m ∈ members, m.Fits gpsKeys

/-- The section is one of the file's, and so are its keys. -/
def Section.Fits (s : Section) : Prop :=
  ∃ keys, (s.name, keys) ∈ sections ∧ ∀ e ∈ s.entries, e.Fits s.name keys

/-- The sections and keys are those of the file, and no key stands twice in a mapping. -/
structure InLayout (d : List Section) : Prop where
  fits : ∀ s ∈ d, s.Fits
  once : ((d.flatMap Section.leaves).map fun leaf => (leaf.1, leaf.2.key)).Nodup

/-- Lines with fillers put between them. -/
inductive Padded : List (List UInt8) → List (List UInt8) → Prop
  | nil : Padded [] []
  | line (line : List UInt8) {lines padded : List (List UInt8)} (h : Padded lines padded) :
      Padded (line :: lines) (line :: padded)
  | filler {line : List UInt8} (hfiller : IsFiller line) {lines padded : List (List UInt8)}
      (h : Padded lines padded) : Padded lines (line :: padded)

/-- A permutation whose elements may be changed too. -/
def PermUpTo {α : Type} (R : α → α → Prop) (l l' : List α) : Prop :=
  ∃ mid, l.Perm mid ∧ List.Forall₂ R mid l'

/-- The members of the nested mapping in another order. -/
inductive Entry.Reordered : Entry → Entry → Prop
  | scalar (m : Member) : Reordered (.scalar m) (.scalar m)
  | gps {members members' : List Member} (h : members.Perm members') :
      Reordered (.gps members) (.gps members')

/-- The entries of a section in another order, and those of the nested mapping. -/
structure Section.Reordered (s s' : Section) : Prop where
  name : s'.name = s.name
  entries : PermUpTo Entry.Reordered s.entries s'.entries

/-! ## Reading

What the reader makes of lines is compared with storing their scalars one after the other
(`Follows`), a part of the file at a time. -/

/-- What the reader does with a scalar, if it takes it for one of its mapping. -/
def store (cfg : HandlerConfig) (leaf : List UInt8 × Member) : Option HandlerConfig :=
  assign leaf.1 leaf.2.key (unquote leaf.2.text) cfg

theorem foldlM_padded {lines padded : List (List UInt8)} (h : Padded lines padded) (r : Reader) :
    padded.foldlM parseLine r = lines.foldlM parseLine r := by
  induction h generalizing r with
  | nil => rfl
  | line line h ih =>
    rw [List.foldlM_cons, List.foldlM_cons]
    exact congrArg (parseLine r line).bind (funext ih)
  | filler hfiller h ih =>
    rw [List.foldlM_cons, parseLine_filler r hfiller]
    exact ih r

/-- The lines lead from `r` to `r'`, and so do their scalars. -/
structure Follows (lines : List (List UInt8)) (leaves : List (List UInt8 × Member))
    (r r' : Reader) : Prop where
  read : lines.foldlM parseLine r = some r'
  stored : leaves.foldlM store r.cfg = some r'.cfg

theorem Follows.append {lines lines' : List (List UInt8)}
    {leaves leaves' : List (List UInt8 × Member)} {r mid r' : Reader}
    (h : Follows lines leaves r mid) (h' : Follows lines' leaves' mid r') :
    Follows (lines ++ lines') (leaves ++ leaves') r r' := by
  constructor
  · rw [List.foldlM_append, h.read]
    exact h'.read
  · rw [List.foldlM_append, h.stored]
    exact h'.stored

/-- What each part of a list keeps is kept over all of it. -/
theorem follows_flatMap {α : Type} {P : Reader → Prop} {linesOf : α → List (List UInt8)}
    {leavesOf : α → List (List UInt8 × Member)} {l : List α}
    (hstep : ∀ a ∈ l, ∀ r, P r → ∃ r', P r' ∧ Follows (linesOf a) (leavesOf a) r r')
    {r : Reader} (hr : P r) :
    ∃ r', P r' ∧ Follows (l.flatMap linesOf) (l.flatMap leavesOf) r r' := by
  induction l generalizing r with
  | nil => exact ⟨r, hr, rfl, rfl⟩
  | cons a l ih =>
    obtain ⟨mid, hmid, hhead⟩ := hstep a List.mem_cons_self r hr
    obtain ⟨r', hr', htail⟩ := ih (fun b hb => hstep b (List.mem_cons_of_mem a hb)) hmid
    exact ⟨r', hr', hhead.append htail⟩

/-! ## Scalars -/

theorem mem_indent {n : Nat} {c : UInt8} (hc : c ∈ indent n) : c = 0x20 :=
  (List.mem_replicate.mp hc).2

theorem indent_blank (n : Nat) : ∀ c ∈ indent n, isBlank c = true ∧ c ≠ 0x23 := by
  intro c hc
  obtain rfl := mem_indent hc
  exact ⟨rfl, by decide⟩

theorem isValue_quoted {s : List UInt8} (hhash : 0x23 ∉ s) : IsValue (0x22 :: (s ++ [0x22])) := by
  have hlast : (0x22 :: (s ++ [0x22])).getLast? = some (0x22 : UInt8) := by
    rw [← List.cons_append, List.getLast?_concat]
  refine ⟨List.cons_ne_nil _ _, ⟨fun c hc => ?_, fun c hc => ?_⟩, ?_, ?_⟩
  · obtain rfl := Option.some.inj hc
    rfl
  · obtain rfl := Option.some.inj (hlast.symm.trans hc)
    rfl
  · simp [hhash]
  · rw [hlast]
    decide

theorem unquote_quoted (s : List UInt8) : unquote (0x22 :: (s ++ [0x22])) = s := by
  simp [unquote]

/-- A word of visible characters that are none of the syntax. -/
theorem isPlain_of_all {t : List UInt8} (h : (!t.isEmpty &&
    t.all fun c => !isBlank c && c != 0x22 && c != 0x23 && c != 0x3A) = true) : IsPlain t := by
  simp only [Bool.and_eq_true, Bool.not_eq_true', List.isEmpty_eq_false_iff, List.all_eq_true,
    bne_iff_ne] at h
  obtain ⟨hne, hall⟩ := h
  refine ⟨⟨hne, ⟨fun c hc => ?_, fun c hc => ?_⟩, fun hc => ?_, fun hc => ?_⟩, fun hc => ?_,
    fun hc => ?_⟩
  · exact (hall c (List.mem_of_head? hc)).1.1.1
  · exact (hall c (List.mem_of_getLast? hc)).1.1.1
  · exact (hall _ hc).1.2 rfl
  · exact (hall _ (List.mem_of_getLast? hc)).2 rfl
  · exact absurd (hall _ hc).1.1.1 (by decide)
  · exact (hall _ (List.mem_of_head? hc)).1.1.2 rfl

theorem isPlain_boolean {text : List UInt8} (h : Kind.boolean.Writes text) : IsPlain text := by
  rcases h with rfl | rfl <;> exact isPlain_of_all rfl

theorem Kind.Writes.isValue {kind : Kind} {text : List UInt8} (h : kind.Writes text) :
    IsValue text ∧ 0x0A ∉ text := by
  cases kind with
  | string =>
    obtain ⟨s, rfl, -, hhash, hbreak⟩ := h
    exact ⟨isValue_quoted hhash, by simp [hbreak]⟩
  | integer => exact ⟨h.1.toIsValue, h.1.oneLine⟩
  | decimal => exact ⟨h.1.toIsValue, h.1.oneLine⟩
  | boolean => exact ⟨(isPlain_boolean h).toIsValue, (isPlain_boolean h).oneLine⟩

theorem unquote_plain {text : List UInt8} (h : IsPlain text) : unquote text = text :=
  if_neg h.noQuote

theorem isName_of_all {t : List UInt8} (h : (!t.isEmpty &&
    t.all fun c => !isBlank c && c != 0x3A && c != 0x23) = true) : IsName t := by
  simp only [Bool.and_eq_true, Bool.not_eq_true', List.isEmpty_eq_false_iff, List.all_eq_true,
    bne_iff_ne] at h
  exact ⟨h.1, fun c hc => ⟨(h.2 c hc).1.1, (h.2 c hc).1.2, (h.2 c hc).2⟩⟩

/-- The mappings of the file, the nested one too. -/
def mappings : List (List UInt8 × List (List UInt8 × Kind)) := (bytes "gps", gpsKeys) :: sections

theorem isName_of_mapping {place : List UInt8} {keys : List (List UInt8 × Kind)}
    (h : (place, keys) ∈ mappings) : IsName place ∧ ∀ k ∈ keys, IsName k.1 := by
  have hall : (mappings.all fun m => (m.1 :: m.2.map Prod.fst).all fun t => !t.isEmpty &&
      t.all fun c => !isBlank c && c != 0x3A && c != 0x23) = true := rfl
  have hnames := List.all_eq_true.mp (List.all_eq_true.mp hall _ h)
  refine ⟨isName_of_all (hnames _ List.mem_cons_self), fun k hk => isName_of_all (hnames _ ?_)⟩
  exact List.mem_cons_of_mem _ (List.mem_map_of_mem hk)

theorem parseLine_member (r : Reader) {place : List UInt8} {keys : List (List UInt8 × Kind)}
    {m : Member} (hplace : (place, keys) ∈ mappings) (hfits : m.Fits keys) (n : Nat) :
    parseLine r (m.line n) = (store r.cfg (r.sectionName, m)).map fun cfg => { r with cfg } := by
  obtain ⟨kind, hmem, hwrites⟩ := hfits
  exact parseLine_entry r (indent_blank n) ((isName_of_mapping hplace).2 _ hmem) hwrites.isValue.1

/-! ## Conversions -/

theorem toUInt32_of_writes {text : List UInt8} (h : Kind.integer.Writes text) :
    ∃ n, HandlerConfig.toUInt32 (unquote text) = some n := by
  obtain ⟨n, hn⟩ := Option.isSome_iff_exists.mp h.2
  exact ⟨UInt32.ofNat n, by rw [unquote_plain h.1, HandlerConfig.toUInt32, hn]; rfl⟩

/-- The scalars of `video` are all integers. -/
theorem store_video {m : Member} {keys : List (List UInt8 × Kind)}
    (hkeys : keys.map Prod.snd = List.replicate keys.length .integer) (hfits : m.Fits keys)
    (cfg : HandlerConfig) : ∃ cfg', store cfg (bytes "video", m) = some cfg' := by
  obtain ⟨kind, hmem, hwrites⟩ := hfits
  have hkind : kind ∈ keys.map Prod.snd := List.mem_map_of_mem hmem
  rw [hkeys] at hkind
  obtain rfl := List.eq_of_mem_replicate hkind
  obtain ⟨n, hn⟩ := toUInt32_of_writes hwrites
  exact ⟨_, assignVideo_of_toUInt32 hn m.key cfg⟩

theorem store_gps {m : Member} (hfits : m.Fits gpsKeys) (cfg : HandlerConfig) :
    ∃ cfg', store cfg (bytes "gps", m) = some cfg' := by
  obtain ⟨key, text⟩ := m
  obtain ⟨kind, hmem, hwrites⟩ := hfits
  have hdecimal : kind = .decimal → ∃ cfg', assignGps key (unquote text) cfg = some cfg' := by
    rintro rfl
    obtain ⟨d, hd⟩ := Option.isSome_iff_exists.mp hwrites.2
    rw [unquote_plain hwrites.1]
    exact ⟨_, assignGps_of_stod hd key cfg⟩
  simp only [gpsKeys, List.mem_cons, Prod.mk.injEq, List.not_mem_nil, or_false] at hmem
  rcases hmem with ⟨rfl, -⟩ | ⟨-, hkind⟩ | ⟨-, hkind⟩
  · exact ⟨_, rfl⟩
  · exact hdecimal hkind
  · exact hdecimal hkind

theorem keys_of_sensors {keys : List (List UInt8 × Kind)} (h : (bytes "sensors", keys) ∈ sections) :
    keys = [(bytes "night_mode", .boolean), (bytes "driving_status", .string)] := by
  have hnames : (sections.map Prod.fst).Nodup := by decide
  have hsensors : (bytes "sensors", [(bytes "night_mode", Kind.boolean),
      (bytes "driving_status", .string)]) ∈ sections := List.mem_of_getElem? (i := 6) rfl
  exact congrArg Prod.snd (List.inj_on_of_nodup_map hnames h hsensors rfl)

/-- The keys of `sensors` have no meaning there, nor in `gps`. -/
theorem store_sensors {m : Member} {keys : List (List UInt8 × Kind)}
    (hkeys : keys = [(bytes "night_mode", .boolean), (bytes "driving_status", .string)])
    (hfits : m.Fits keys) (cfg : HandlerConfig) :
    store cfg (bytes "sensors", m) = some cfg ∧ store cfg (bytes "gps", m) = some cfg := by
  obtain ⟨key, text⟩ := m
  obtain ⟨kind, hmem, -⟩ := hfits
  simp only [hkeys, List.mem_cons, Prod.mk.injEq, List.not_mem_nil, or_false] at hmem
  rcases hmem with ⟨rfl, -⟩ | ⟨rfl, -⟩ <;> exact ⟨rfl, rfl⟩

theorem store_isSome {place : List UInt8} {keys : List (List UInt8 × Kind)} {m : Member}
    (hplace : (place, keys) ∈ mappings) (hfits : m.Fits keys) (cfg : HandlerConfig) :
    ∃ cfg', store cfg (place, m) = some cfg' := by
  simp only [mappings, sections, List.mem_cons, Prod.mk.injEq, List.not_mem_nil, or_false]
    at hplace
  rcases hplace with ⟨rfl, rfl⟩ | ⟨rfl, -⟩ | ⟨rfl, rfl⟩ | ⟨rfl, -⟩ | ⟨rfl, -⟩ | ⟨rfl, -⟩ |
    ⟨rfl, -⟩ | ⟨rfl, hkeys⟩ | ⟨rfl, -⟩ | ⟨rfl, -⟩
  · exact store_gps hfits cfg
  · exact ⟨_, rfl⟩
  · exact store_video rfl hfits cfg
  · exact ⟨_, rfl⟩
  · exact ⟨_, rfl⟩
  · exact ⟨_, rfl⟩
  · exact ⟨_, rfl⟩
  · exact ⟨cfg, (store_sensors hkeys hfits cfg).1⟩
  · exact ⟨_, rfl⟩
  · exact ⟨_, rfl⟩

/-! ## Parts of the file

The lines of a part store its scalars, each under its own section. -/

theorem follows_member {r : Reader} {place : List UInt8} {keys : List (List UInt8 × Kind)}
    {m : Member} (hplace : (place, keys) ∈ mappings) (hfits : m.Fits keys) (n : Nat)
    (hread : store r.cfg (r.sectionName, m) = store r.cfg (place, m)) :
    ∃ r', r'.sectionName = r.sectionName ∧ Follows [m.line n] [(place, m)] r r' := by
  obtain ⟨cfg', hcfg⟩ := store_isSome hplace hfits r.cfg
  refine ⟨{ r with cfg := cfg' }, rfl, ?_, ?_⟩
  · have hline := parseLine_member r hplace hfits n
    rw [hread, hcfg] at hline
    rw [List.foldlM_cons, hline]
    rfl
  · rw [List.foldlM_cons, hcfg]
    rfl

theorem follows_header (r : Reader) {name : List UInt8} (hname : IsName name) (n : Nat) :
    Follows [indent n ++ (name ++ [0x3A])] [] r { r with sectionName := name } := by
  constructor
  · rw [List.foldlM_cons, parseLine_header r (indent_blank n) hname]
    rfl
  · rfl

/-- The section that the reader is in: behind the nested mapping it is the wrong one. -/
def Inside (sectionName : List UInt8) (r : Reader) : Prop :=
  r.sectionName = sectionName ∨
    (sectionName = bytes "sensors" ∧ r.sectionName = bytes "gps")

theorem follows_gps {members : List Member} (hfits : ∀ m ∈ members, m.Fits gpsKeys) (r : Reader) :
    ∃ r', r'.sectionName = bytes "gps" ∧
      Follows (Entry.gps members).lines ((Entry.gps members).leaves (bytes "sensors")) r r' := by
  have hplace : (bytes "gps", gpsKeys) ∈ mappings := List.mem_cons_self
  have hmembers : ∃ r', r'.sectionName = bytes "gps" ∧
      Follows (members.flatMap fun m => [m.line 4]) (members.flatMap fun m => [(bytes "gps", m)])
        { r with sectionName := bytes "gps" } r' := by
    refine follows_flatMap (P := fun r => r.sectionName = bytes "gps") (fun m hm r hr => ?_) rfl
    obtain ⟨r', hr', hfollows⟩ := follows_member hplace (hfits m hm) 4 (by rw [hr])
    exact ⟨r', hr'.trans hr, hfollows⟩
  obtain ⟨r', hr', hfollows⟩ := hmembers
  refine ⟨r', hr', ?_⟩
  rw [← List.map_eq_flatMap, ← List.map_eq_flatMap] at hfollows
  exact (follows_header r (isName_of_mapping hplace).1 2).append hfollows

theorem follows_entry {sectionName : List UInt8} {keys : List (List UInt8 × Kind)} {e : Entry}
    (hplace : (sectionName, keys) ∈ sections) (hfits : e.Fits sectionName keys) {r : Reader}
    (hr : Inside sectionName r) :
    ∃ r', Inside sectionName r' ∧ Follows e.lines (e.leaves sectionName) r r' := by
  cases e with
  | scalar m =>
    have hread : store r.cfg (r.sectionName, m) = store r.cfg (sectionName, m) := by
      rcases hr with hr | ⟨rfl, hr⟩
      · rw [hr]
      · -- the nested mapping is over, and the reader does not know
        have hstore := store_sensors (keys_of_sensors hplace) hfits r.cfg
        rw [hr, hstore.1, hstore.2]
    obtain ⟨r', hr', hfollows⟩ :=
      follows_member (List.mem_cons_of_mem _ hplace) hfits 2 hread
    exact ⟨r', by rw [Inside, hr']; exact hr, hfollows⟩
  | gps members =>
    obtain ⟨rfl, hmembers⟩ := hfits
    obtain ⟨r', hr', hfollows⟩ := follows_gps hmembers r
    exact ⟨r', Or.inr ⟨rfl, hr'⟩, hfollows⟩

theorem follows_section {s : Section} (hfits : s.Fits) (r : Reader) :
    ∃ r', Follows s.lines s.leaves r r' := by
  obtain ⟨keys, hplace, hentries⟩ := hfits
  have hname := (isName_of_mapping (List.mem_cons_of_mem _ hplace)).1
  have hinside : Inside s.name { r with sectionName := s.name } := Or.inl rfl
  obtain ⟨r', -, hfollows⟩ := follows_flatMap
    (fun e he _ hr => follows_entry hplace (hentries e he) hr) hinside
  exact ⟨r', (follows_header r hname 0).append hfollows⟩

/-! ## The file

The lines are joined by line feeds, and none of them has one, so that `getline` gives them back. -/

/-- The text of the lines. -/
def fileText (lines : List (List UInt8)) : List UInt8 := lines.flatMap (· ++ [0x0A])

theorem oneLine_of_name {t : List UInt8} (h : IsName t) : 0x0A ∉ t := fun hmem =>
  absurd (h.2 _ hmem).1 (by decide)

theorem oneLine_header {name : List UInt8} (hname : IsName name) (n : Nat) :
    0x0A ∉ indent n ++ (name ++ [0x3A]) := by
  simp only [List.mem_append, List.mem_singleton, not_or]
  exact ⟨fun hmem => absurd (mem_indent hmem) (by decide), oneLine_of_name hname, by decide⟩

theorem oneLine_member {place : List UInt8} {keys : List (List UInt8 × Kind)} {m : Member}
    (hplace : (place, keys) ∈ mappings) (hfits : m.Fits keys) (n : Nat) : 0x0A ∉ m.line n := by
  obtain ⟨kind, hmem, hwrites⟩ := hfits
  simp only [Member.line, List.mem_append, List.mem_cons, not_or]
  exact ⟨fun hmem => absurd (mem_indent hmem) (by decide),
    oneLine_of_name ((isName_of_mapping hplace).2 _ hmem), by decide, by decide,
    hwrites.isValue.2⟩

theorem oneLine_section {s : Section} (hfits : s.Fits) : ∀ line ∈ s.lines, 0x0A ∉ line := by
  obtain ⟨keys, hplace, hentries⟩ := hfits
  have hplace := List.mem_cons_of_mem (bytes "gps", gpsKeys) hplace
  intro line hline
  rcases List.mem_cons.mp hline with rfl | hline
  · exact oneLine_header (isName_of_mapping hplace).1 0
  · obtain ⟨e, he, hline⟩ := List.mem_flatMap.mp hline
    have hfits := hentries e he
    cases e with
    | scalar m =>
      obtain rfl := List.mem_singleton.mp hline
      exact oneLine_member hplace hfits 2
    | gps members =>
      have hgps : (bytes "gps", gpsKeys) ∈ mappings := List.mem_cons_self
      rcases List.mem_cons.mp hline with rfl | hline
      · exact oneLine_header (isName_of_mapping hgps).1 2
      · obtain ⟨m, hm, rfl⟩ := List.mem_map.mp hline
        exact oneLine_member hgps (hfits.2 m hm) 4

theorem oneLine_padded {lines padded : List (List UInt8)} (h : Padded lines padded)
    (hlines : ∀ line ∈ lines, 0x0A ∉ line) : ∀ line ∈ padded, 0x0A ∉ line := by
  induction h with
  | nil => exact hlines
  | line line h ih =>
    rw [List.forall_mem_cons] at hlines ⊢
    exact ⟨hlines.1, ih hlines.2⟩
  | filler hfiller h ih => exact List.forall_mem_cons.mpr ⟨hfiller.1, ih hlines⟩

theorem follows_document {d : List Section} (hfits : ∀ s ∈ d, s.Fits) (r : Reader) :
    ∃ r', Follows (d.flatMap Section.lines) (d.flatMap Section.leaves) r r' := by
  have hsections : ∀ s ∈ d, ∀ r, True → ∃ r', True ∧ Follows s.lines s.leaves r r' := by
    intro s hs r _
    obtain ⟨r', hfollows⟩ := follows_section (hfits s hs) r
    exact ⟨r', trivial, hfollows⟩
  obtain ⟨r', -, hfollows⟩ := follows_flatMap hsections (r := r) trivial
  exact ⟨r', hfollows⟩

theorem oneLine_document {d : List Section} (hfits : ∀ s ∈ d, s.Fits) :
    ∀ line ∈ d.flatMap Section.lines, 0x0A ∉ line := by
  intro line hline
  obtain ⟨s, hs, hline⟩ := List.mem_flatMap.mp hline
  exact oneLine_section (hfits s hs) line hline

/-- **A file in the layout is read as it stands.** -/
theorem read_document {d : List Section} (hfits : ∀ s ∈ d, s.Fits) (cfg : HandlerConfig) :
    ∃ cfg', (d.flatMap Section.leaves).foldlM store cfg = some cfg' ∧
      ∀ lines, Padded (d.flatMap Section.lines) lines →
        parseSimpleYaml (fileText lines) cfg = some cfg' := by
  obtain ⟨r', hfollows⟩ := follows_document hfits { sectionName := [], cfg }
  refine ⟨r'.cfg, hfollows.stored, fun lines hpadded => ?_⟩
  have honeLine := oneLine_padded hpadded (oneLine_document hfits)
  rw [parseSimpleYaml, fileText, getLines_text honeLine, foldlM_padded hpadded, hfollows.read]
  rfl

/-! ## The order of the parts

Different keys go to different fields, so their effects commute. -/

theorem PermUpTo.flatMap {α β : Type} {R : α → α → Prop} {f : α → List β}
    (hf : ∀ a b, R a b → (f a).Perm (f b)) {l l' : List α} (h : PermUpTo R l l') :
    (l.flatMap f).Perm (l'.flatMap f) := by
  obtain ⟨mid, hperm, hchanged⟩ := h
  refine (hperm.flatMap_right f).trans ?_
  clear hperm
  induction hchanged with
  | nil => exact List.Perm.refl _
  | cons hR _ ih =>
    rw [List.flatMap_cons, List.flatMap_cons]
    exact (hf _ _ hR).append ih

/-- What all elements have and no change takes away. -/
theorem PermUpTo.forall_mem {α : Type} {R : α → α → Prop} {P : α → Prop}
    (hP : ∀ a b, R a b → P a → P b) {l l' : List α} (h : PermUpTo R l l') (hl : ∀ a ∈ l, P a) :
    ∀ b ∈ l', P b := by
  obtain ⟨mid, hperm, hchanged⟩ := h
  have hmid : ∀ a ∈ mid, P a := fun a ha => hl a (hperm.mem_iff.mpr ha)
  clear hperm
  induction hchanged with
  | nil => exact hmid
  | cons hR _ ih =>
    rw [List.forall_mem_cons] at hmid ⊢
    exact ⟨hP _ _ hR hmid.1, ih hmid.2⟩

theorem Entry.Reordered.fits {e e' : Entry} (h : e.Reordered e') {sectionName : List UInt8}
    {keys : List (List UInt8 × Kind)} (hfits : e.Fits sectionName keys) :
    e'.Fits sectionName keys := by
  cases h with
  | scalar m => exact hfits
  | gps h => exact ⟨hfits.1, fun m hm => hfits.2 m (h.mem_iff.mpr hm)⟩

theorem Entry.Reordered.leaves_perm {e e' : Entry} (h : e.Reordered e') (sectionName : List UInt8) :
    (e.leaves sectionName).Perm (e'.leaves sectionName) := by
  cases h with
  | scalar m => exact List.Perm.refl _
  | gps h => exact h.map _

theorem Section.Reordered.fits {s s' : Section} (h : s.Reordered s') (hfits : s.Fits) :
    s'.Fits := by
  obtain ⟨keys, hplace, hentries⟩ := hfits
  rw [Section.Fits, h.name]
  exact ⟨keys, hplace, h.entries.forall_mem (fun _ _ he => he.fits) hentries⟩

theorem Section.Reordered.leaves_perm {s s' : Section} (h : s.Reordered s') :
    s.leaves.Perm s'.leaves := by
  rw [Section.leaves, Section.leaves, h.name]
  exact h.entries.flatMap fun _ _ he => he.leaves_perm s.name

/-- Scalars with different keys are stored in any order. -/
theorem foldlM_store_perm {leaves leaves' : List (List UInt8 × Member)}
    (hperm : leaves.Perm leaves')
    (honce : (leaves.map fun leaf => (leaf.1, leaf.2.key)).Nodup) (cfg : HandlerConfig) :
    leaves.foldlM store cfg = leaves'.foldlM store cfg := by
  rw [List.foldlM_eq_foldl, List.foldlM_eq_foldl]
  refine hperm.foldl_eq' (fun a ha b hb o => ?_) _
  by_cases hab : (a.1, a.2.key) = (b.1, b.2.key)
  · rw [List.inj_on_of_nodup_map honce ha hb hab]
  · cases o with
    | none => rfl
    | some cfg => exact assign_comm hab cfg

/-- **The order of the parts and the fillers change nothing.** -/
theorem order_irrelevant {d d' : List Section} (h : InLayout d)
    (hreordered : PermUpTo Section.Reordered d d') {lines lines' : List (List UInt8)}
    (hlines : Padded (d.flatMap Section.lines) lines)
    (hlines' : Padded (d'.flatMap Section.lines) lines') (cfg : HandlerConfig) :
    ∃ cfg', parseSimpleYaml (fileText lines) cfg = some cfg' ∧
      parseSimpleYaml (fileText lines') cfg = some cfg' := by
  have hfits' : ∀ s ∈ d', s.Fits := hreordered.forall_mem (fun _ _ hs => hs.fits) h.fits
  have hperm := hreordered.flatMap fun _ _ hs => hs.leaves_perm
  obtain ⟨read, hstored, hread⟩ := read_document h.fits cfg
  obtain ⟨read', hstored', hread'⟩ := read_document hfits' cfg
  have heq : read = read' := by
    rw [← Option.some_inj, ← hstored, ← hstored']
    exact foldlM_store_perm hperm h.once cfg
  exact ⟨read, hread lines hlines, heq ▸ hread' lines' hlines'⟩

theorem order_irrelevant_sensors :
    let lines := ["video:", "  width: 800", "sensors:", "  night_mode: true", "  gps:",
      "    latitude: 48.5", "    enabled: true"].map bytes
    let lines' := ["# the car", "sensors:", "  gps:", "    enabled: true", "", "    latitude: 48.5",
      "  night_mode: true", "video:", "  width: 800"].map bytes
    ∃ cfg', parseSimpleYaml (fileText lines) {} = some cfg' ∧
      parseSimpleYaml (fileText lines') {} = some cfg' := by
  let width : Member := ⟨bytes "width", bytes "800"⟩
  let night : Member := ⟨bytes "night_mode", bytes "true"⟩
  let latitude : Member := ⟨bytes "latitude", bytes "48.5"⟩
  let enabled : Member := ⟨bytes "enabled", bytes "true"⟩
  let video : Section := ⟨bytes "video", [.scalar width]⟩
  have hwidth : Kind.integer.Writes width.text := ⟨isPlain_of_all rfl, rfl⟩
  have hlatitude : Kind.decimal.Writes latitude.text := ⟨isPlain_of_all rfl, by decide +kernel⟩
  have hgps : ∀ m ∈ [latitude, enabled], m.Fits gpsKeys := by
    simp only [List.forall_mem_cons]
    exact ⟨⟨.decimal, by decide, hlatitude⟩, ⟨.boolean, by decide, Or.inl rfl⟩, nofun⟩
  have hvideo : video.Fits :=
    ⟨_, List.mem_of_getElem? (i := 1) rfl, by
      simp only [video, List.forall_mem_cons]
      exact ⟨⟨.integer, List.mem_cons_self, hwidth⟩, nofun⟩⟩
  have hsensors : Section.Fits ⟨bytes "sensors", [.scalar night, .gps [latitude, enabled]]⟩ :=
    ⟨_, List.mem_of_getElem? (i := 6) rfl, by
      simp only [List.forall_mem_cons]
      exact ⟨⟨.boolean, List.mem_cons_self, Or.inl rfl⟩, ⟨rfl, hgps⟩, nofun⟩⟩
  have hreordered : PermUpTo Section.Reordered
      [video, ⟨bytes "sensors", [.scalar night, .gps [latitude, enabled]]⟩]
      [⟨bytes "sensors", [.gps [enabled, latitude], .scalar night]⟩, video] := by
    refine ⟨_, .swap _ _ _, .cons ⟨rfl, _, .swap _ _ _, ?_⟩ (.cons ⟨rfl, _, .refl _, ?_⟩ .nil)⟩
    · exact .cons (.gps (.swap _ _ _)) (.cons (.scalar night) .nil)
    · exact .cons (.scalar width) .nil
  refine order_irrelevant ⟨?_, by decide⟩ hreordered ?_ ?_ _
  · exact List.forall_mem_cons.mpr ⟨hvideo, List.forall_mem_cons.mpr ⟨hsensors, nofun⟩⟩
  · exact .line _ (.line _ (.line _ (.line _ (.line _ (.line _ (.line _ .nil))))))
  · have hcomment : IsFiller (bytes "# the car") := ⟨by decide, List.all_eq_true.mp rfl⟩
    have hempty : IsFiller [] := ⟨by decide, List.all_eq_true.mp rfl⟩
    exact .filler hcomment (.line _ (.line _ (.line _ (.filler hempty
      (.line _ (.line _ (.line _ (.line _ .nil))))))))

end Whutfa.ConfigFile
