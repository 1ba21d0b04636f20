import Whutfa.YamlValue

/-! # The server's configuration

`loadConfig` and `deepMerge` (`server/src/config.ts`).  What `yaml.parse` makes of the file
at a path, or throws, is a parameter, and so is how a text becomes a number.  The result is
whatever the merge gives: nothing checks that it is an `AppConfig`.

A configuration with a token asks for one: whatever the file says, `loadConfig` sets
`security.require_token` when `server.access_token` is set (`requireToken_of_accessToken`).
-/
namespace Whutfa.Config

open JsString Yaml

/-- A member with a text. -/
def text (key value : String) : JsString × Yaml := (js key, .str (js value))

/-- A member with a number. -/
def number (key : String) (value : ℚ) : JsString × Yaml := (js key, .num (.finite value))

/-- A member with a boolean. -/
def flag (key : String) (value : Bool) : JsString × Yaml := (js key, .bool value)

/-- `defaults`. -/
def defaults : Members :=
  [(js "head_unit", .obj
      [text "manufacturer" "WHUTFA", text "model" "WHUTFA-1",
       text "name" "WHUTFA Web Head Unit"]),
   (js "video", .obj
      [number "width" 1280, number "height" 720, number "fps" 30, number "dpi" 160]),
   (js "audio", .obj [number "media_sample_rate" 48000, number "speech_sample_rate" 16000]),
   (js "server", .obj
      [number "http_port" 8080, text "bind_address" "0.0.0.0", text "access_token" "",
       flag "bind_localhost_only" false]),
   (js "security", .obj [flag "require_token" false]),
   (js "bluetooth", .obj
      [flag "enabled" true, text "adapter_name" "WHUTFA", text "pin" "0000"]),
   (js "sensors", .obj
      [flag "night_mode" false, text "driving_status" "parked",
       (js "gps", .obj [flag "enabled" false, number "latitude" 0, number "longitude" 0])]),
   (js "diagnostics", .obj [text "log_level" "info", number "ssl_clock_max_skew_sec" 300]),
   (js "ipc", .obj
      [text "bridge_socket" "/tmp/aa-bridge.sock", text "video_socket" "/tmp/aa-video.sock",
       text "audio_media_socket" "/tmp/aa-audio-media.sock",
       text "audio_speech_socket" "/tmp/aa-audio-speech.sock",
       text "audio_system_socket" "/tmp/aa-audio-system.sock"])]

/-- `out[key] = v`; `__proto__` is no member of its own. -/
def assign (out : Members) (key : JsString) (v : Yaml) : Members :=
  if key = js "__proto__" then out else put out key v

mutual

/-- What `key` becomes.  The defaults have no arrays and no `null`, so that a value of theirs
is an object only where it is a mapping; a document has no `undefined`. -/
def mergeValue (base : Option Yaml) : Yaml → Yaml
  | .obj patch =>
      match base with
      | some (.obj members) => .obj (deepMerge members members patch)
      | _ => .obj patch
  | v => v

/-- The loop of `deepMerge`; `out` begins as `base`. -/
def deepMerge (base out : Members) : Members → Members
  | [] => out
  | (key, v) :: patch => deepMerge base (assign out key (mergeValue (base.lookup key) v)) patch

end

/-- `process.env`. -/
structure Env where
  configPath : Option JsString
  httpPort : Option JsString
  bindAddress : Option JsString
  accessToken : Option JsString

/-- `merged.name.key`. -/
def get (merged : Members) (name key : String) : Except Thrown (Option Yaml) :=
  read (merged.lookup (js name)) (js key)

/-- `merged.name.key = v`. -/
def set (merged : Members) (name key : String) (v : Yaml) : Except Thrown Members := do
  let section' ← write (merged.lookup (js name)) (js key) v
  pure (put merged (js name) section')

/-- `if (value) merged.server.key = f(value)`. -/
def override (merged : Members) (value : Option JsString) (key : String)
    (f : JsString → Yaml) : Except Thrown Members :=
  match value with
  | none | some [] => pure merged
  | some s => set merged "server" key (f s)

/-- `if (merged.server.access_token) merged.security.require_token = true`. -/
def requireToken (merged : Members) : Except Thrown Members := do
  let accessToken ← get merged "server" "access_token"
  if truthy accessToken then set merged "security" "require_token" (.bool true) else pure merged

/-- `if (merged.server.bind_localhost_only) merged.server.bind_address = "127.0.0.1"`. -/
def bindLocalhost (merged : Members) : Except Thrown Members := do
  let only ← get merged "server" "bind_localhost_only"
  if truthy only then set merged "server" "bind_address" (.str (js "127.0.0.1")) else pure merged

/-- The defaults, or the file over them. -/
def merged (file : Option (Except Thrown Yaml)) : Except Thrown Members :=
  match file with
  | none => pure defaults
  | some parsed => do
      let raw ← parsed
      let patch ← entries raw
      pure (deepMerge defaults defaults patch)

/-- What `yaml.parse` makes of the file at a path, if there is one. -/
abbrev Files := JsString → Option (Except Thrown Yaml)

/-- `loadConfig`: the file over the defaults, then the environment, then the two rules. -/
def loadConfig (toNumber : JsString → Number) (files : Files) (env : Env) :
    Except Thrown Members := do
  let config ← merged (files (env.configPath.getD (js "/config/config.yaml")))
  let config ← override config env.httpPort "http_port" fun s => .num (toNumber s)
  let config ← override config env.bindAddress "bind_address" .str
  let config ← override config env.accessToken "access_token" .str
  let config ← requireToken config
  bindLocalhost config

/-! ## The token is required where there is one -/

theorem set_eq_ok {merged config : Members} {name key : String} {v : Yaml}
    (h : set merged name key v = .ok config) : ∃ section',
      write (merged.lookup (js name)) (js key) v = .ok section' ∧
        config = put merged (js name) section' := by
  obtain ⟨section', hwrite, hput⟩ := bind_eq_ok.mp h
  exact ⟨section', hwrite, (Except.ok.inj hput).symm⟩

theorem get_set_self {merged config : Members} {name key : String} {v : Yaml}
    (h : set merged name key v = .ok config) : get config name key = .ok (some v) := by
  obtain ⟨section', hwrite, rfl⟩ := set_eq_ok h
  rw [get, lookup_put_self]
  exact read_write_self hwrite

/-- Another member of a section, or one of another section, stays as it is. -/
theorem get_set_ne {merged config : Members} {name key name' key' : String} {v : Yaml}
    (h : set merged name key v = .ok config)
    (hne : js name' ≠ js name ∨ js name' = js name ∧ js key' ≠ js key) :
    get config name' key' = get merged name' key' := by
  obtain ⟨section', hwrite, rfl⟩ := set_eq_ok h
  unfold get
  rcases hne with hname | ⟨hname, hkey⟩
  · rw [lookup_put_ne hname]
  · rw [hname, lookup_put_self]
    exact read_write_ne hwrite hkey

theorem requireToken_get {merged config : Members} (h : requireToken merged = .ok config) :
    ∃ accessToken, get config "server" "access_token" = .ok accessToken ∧
      (truthy accessToken = true →
        get config "security" "require_token" = .ok (some (.bool true))) := by
  obtain ⟨accessToken, hget, h⟩ := bind_eq_ok.mp h
  by_cases htoken : truthy accessToken = true
  · rw [if_pos htoken] at h
    refine ⟨accessToken, ?_, fun _ => get_set_self h⟩
    rw [get_set_ne h (Or.inl (by decide)), hget]
  · rw [if_neg htoken] at h
    obtain rfl := Except.ok.inj h
    exact ⟨accessToken, hget, fun htrue => absurd htrue htoken⟩

theorem bindLocalhost_get {merged config : Members} (h : bindLocalhost merged = .ok config)
    {name key : String}
    (hne : js name ≠ js "server" ∨ js name = js "server" ∧ js key ≠ js "bind_address") :
    get config name key = get merged name key := by
  obtain ⟨only, -, h⟩ := bind_eq_ok.mp h
  by_cases honly : truthy only = true
  · rw [if_pos honly] at h
    exact get_set_ne h hne
  · rw [if_neg honly] at h
    obtain rfl := Except.ok.inj h
    rfl

/-- **Where there is a token, it is required.** -/
theorem requireToken_of_accessToken {toNumber : JsString → Number} {files : Files} {env : Env}
    {config : Members} (h : loadConfig toNumber files env = .ok config) :
    ∃ accessToken, get config "server" "access_token" = .ok accessToken ∧
      (truthy accessToken = true →
        get config "security" "require_token" = .ok (some (.bool true))) := by
  obtain ⟨_, -, h⟩ := bind_eq_ok.mp h
  obtain ⟨_, -, h⟩ := bind_eq_ok.mp h
  obtain ⟨_, -, h⟩ := bind_eq_ok.mp h
  obtain ⟨_, -, h⟩ := bind_eq_ok.mp h
  obtain ⟨_, hrequire, hlocal⟩ := bind_eq_ok.mp h
  rw [bindLocalhost_get hlocal (Or.inr ⟨rfl, by decide⟩),
    bindLocalhost_get hlocal (Or.inl (by decide))]
  exact requireToken_get hrequire

/-! ## What the file says is in the result -/

/-- **A merge has the file's value for a key of the file, and its own for another.** -/
theorem lookup_deepMerge (base : Members) {patch : Members} (honce : (patch.map Prod.fst).Nodup)
    {key : JsString} (hkey : key ≠ js "__proto__") (out : Members) :
    (deepMerge base out patch).lookup key =
      ((patch.lookup key).map (mergeValue (base.lookup key))).or (out.lookup key) := by
  induction patch generalizing out with
  | nil => simp [deepMerge]
  | cons m patch ih =>
    obtain ⟨k, v⟩ := m
    obtain ⟨hfresh, hrest⟩ := List.nodup_cons.mp honce
    rw [deepMerge, ih hrest]
    by_cases heq : key = k
    · subst heq
      rw [lookup_of_not_mem hfresh, List.lookup_cons_self, assign, if_neg hkey, lookup_put_self]
      rfl
    · rw [List.lookup_cons, beq_eq_false_iff_ne.mpr heq]
      congr 1
      unfold assign
      split
      · rfl
      · exact lookup_put_ne heq _ _

/-- A section of the file is merged into the one of the defaults. -/
theorem lookup_section {patch base defaults members : Members} {name : String}
    (honce : (patch.map Prod.fst).Nodup) (hname : js name ≠ js "__proto__")
    (hpatch : patch.lookup (js name) = some (.obj members))
    (hbase : defaults.lookup (js name) = some (.obj base)) :
    (deepMerge defaults defaults patch).lookup (js name) =
      some (.obj (deepMerge base base members)) := by
  rw [lookup_deepMerge _ honce hname, hpatch, hbase, Option.map_some, mergeValue]
  rfl

/-- A scalar of a section of the file is in the result. -/
theorem get_merged {patch base defaults members : Members} {name key : String} {leaf : Yaml}
    (honce : (patch.map Prod.fst).Nodup) (hname : js name ≠ js "__proto__")
    (hpatch : patch.lookup (js name) = some (.obj members))
    (hbase : defaults.lookup (js name) = some (.obj base))
    (hkeys : (members.map Prod.fst).Nodup) (hkey : js key ≠ js "__proto__")
    (hleaf : members.lookup (js key) = some leaf) (hscalar : ∀ b, mergeValue b leaf = leaf) :
    get (deepMerge defaults defaults patch) name key = .ok (some leaf) := by
  rw [get, lookup_section honce hname hpatch hbase]
  show Except.ok ((deepMerge base base members).lookup (js key)) = _
  rw [lookup_deepMerge _ hkeys hkey, hleaf, Option.map_some, hscalar]
  rfl

/-- `merged.server` and `merged.security` are objects. -/
structure HasSections (config : Members) : Prop where
  server : ∃ members, config.lookup (js "server") = some (.obj members)
  security : ∃ members, config.lookup (js "security") = some (.obj members)

/-- A step of `loadConfig` that throws nothing and changes these two only. -/
def Passes (step : Members → Except Thrown Members) : Prop :=
  ∀ config, HasSections config → ∃ config', step config = .ok config' ∧ HasSections config' ∧
    ∀ name key, js name ≠ js "server" → js name ≠ js "security" →
      get config' name key = get config name key

theorem Passes.pure : Passes fun config => Pure.pure config := fun config h =>
  ⟨config, rfl, h, fun _ _ _ _ => rfl⟩

theorem Passes.set {name : String} (hname : name = "server" ∨ name = "security") (key : String)
    (v : Yaml) : Passes fun config => set config name key v := by
  intro config h
  have hsection : ∃ members, config.lookup (js name) = some (.obj members) := by
    rcases hname with rfl | rfl
    · exact h.server
    · exact h.security
  obtain ⟨members, hmembers⟩ := hsection
  have hset : Config.set config name key v =
      .ok (put config (js name) (.obj (put members (js key) v))) := by
    rw [Config.set, hmembers]
    rfl
  have hobj : ∀ other, (∃ members, config.lookup (js other) = some (.obj members)) →
      ∃ members', (put config (js name) (.obj (put members (js key) v))).lookup (js other) =
        some (.obj members') := by
    intro other hother
    by_cases heq : js other = js name
    · rw [heq]
      exact ⟨_, lookup_put_self _ _ _⟩
    · rw [lookup_put_ne heq]
      exact hother
  refine ⟨_, hset, ⟨hobj _ h.server, hobj _ h.security⟩, fun other key' hserver hsecurity => ?_⟩
  refine get_set_ne hset (Or.inl ?_)
  rcases hname with rfl | rfl
  · exact hserver
  · exact hsecurity

theorem Passes.override (value : Option JsString) (key : String) (f : JsString → Yaml) :
    Passes fun config => override config value key f := by
  rcases value with _ | _ | ⟨c, s⟩
  · exact Passes.pure
  · exact Passes.pure
  · exact Passes.set (Or.inl rfl) key _

theorem Passes.requireToken : Passes requireToken := by
  intro config h
  obtain ⟨members, hmembers⟩ := h.server
  have hget : get config "server" "access_token" =
      .ok (members.lookup (js "access_token")) := by
    rw [get, hmembers]
    rfl
  unfold Config.requireToken
  rw [hget]
  show ∃ config', ite _ _ _ = _ ∧ _
  split
  · exact Passes.set (Or.inr rfl) _ _ config h
  · exact Passes.pure config h

theorem Passes.bindLocalhost : Passes bindLocalhost := by
  intro config h
  obtain ⟨members, hmembers⟩ := h.server
  have hget : get config "server" "bind_localhost_only" =
      .ok (members.lookup (js "bind_localhost_only")) := by
    rw [get, hmembers]
    rfl
  unfold Config.bindLocalhost
  rw [hget]
  show ∃ config', ite _ _ _ = _ ∧ _
  split
  · exact Passes.set (Or.inl rfl) _ _ config h
  · exact Passes.pure config h

theorem Passes.bind {step next : Members → Except Thrown Members} (hstep : Passes step)
    (hnext : Passes next) : Passes fun config => step config >>= next := by
  intro config h
  obtain ⟨mid, hmid, hsections, hkept⟩ := hstep config h
  obtain ⟨config', hconfig', hsections', hkept'⟩ := hnext mid hsections
  refine ⟨config', ?_, hsections', fun name key hserver hsecurity => ?_⟩
  · show step config >>= next = _
    rw [hmid]
    exact hconfig'
  · rw [hkept' name key hserver hsecurity, hkept name key hserver hsecurity]

/-- **The environment changes nothing outside of `server` and `security`.** -/
theorem loadConfig_of_merged (toNumber : JsString → Number) (files : Files) (env : Env)
    {config : Members} (hsections : HasSections config)
    (h : merged (files (env.configPath.getD (js "/config/config.yaml"))) = .ok config) :
    ∃ config', loadConfig toNumber files env = .ok config' ∧
      ∀ name key, js name ≠ js "server" → js name ≠ js "security" →
        get config' name key = get config name key := by
  have hpasses := (Passes.override env.httpPort "http_port" fun s => .num (toNumber s)).bind
    ((Passes.override env.bindAddress "bind_address" .str).bind
      ((Passes.override env.accessToken "access_token" .str).bind
        (Passes.requireToken.bind Passes.bindLocalhost)))
  obtain ⟨config', hconfig', -, hkept⟩ := hpasses config hsections
  refine ⟨config', ?_, hkept⟩
  unfold loadConfig
  rw [h]
  exact hconfig'

end Whutfa.Config
