import Whutfa.Config

/-! # The defaults under the file

What `loadConfig` keeps of the defaults and of the file, leaf by leaf.  `deepMerge` goes down
where both have a mapping; a blank stands for `null`, which is a value to it, and takes the
place of a whole mapping.  So a document is merged leaf by leaf if and only if it is `Filled`:
it has a mapping wherever the defaults have one (`leafAt_merge`), and only then does
`loadConfig` return what it should (`loadConfig_keeps_iff`).
-/
namespace Whutfa.Config

open JsString Yaml

/-! ## Merging

`deepMerge` goes down both mappings a key at a time, and the proofs follow a path in the same
way. -/

/-- A value of the file, and what the defaults have in its place: no mapping where they have a
leaf. -/
inductive Fits : Option Yaml → Yaml → Prop
  | leaf (base : Option Yaml) {v : Yaml} (h : v.isMapping = false) : Fits base v
  | mapping {base : Option Yaml} {members : Members} (hbase : leafAt base [] = none)
      (hkeys : (members.map Prod.fst).Nodup) (hproto : js "__proto__" ∉ members.map Prod.fst)
      (hmembers : ∀ m ∈ members, Fits (valueAt base [m.1]) m.2) : Fits base (.obj members)

/-- Where the defaults have a mapping the value has one too, if it has anything. -/
def Filled (base : Option Yaml) (v : Yaml) : Prop :=
  ∀ path, MappingAt base path → ∀ w, valueAt (some v) path = some w → w.isMapping = true

variable {base : Option Yaml} {v : Yaml} {patch : Members} {path : Path}

theorem Fits.lookup (h : Fits base (.obj patch)) {key : JsString}
    (hlookup : patch.lookup key = some v) : Fits (valueAt base [key]) v := by
  cases h with
  | leaf _ h => cases h
  | mapping _ _ _ hmembers => exact hmembers _ (mem_of_lookup hlookup)

theorem Filled.lookup (h : Filled base (.obj patch)) {key : JsString}
    (hlookup : patch.lookup key = some v) : Filled (valueAt base [key]) v := by
  intro path hbase w hw
  refine h (key :: path) ?_ w ?_
  · rw [MappingAt, valueAt_cons]
    exact hbase
  · rw [valueAt, hlookup]
    exact hw

theorem filled_leaf (hbase : ¬ MappingAt base []) (v : Yaml) : Filled base v :=
  fun path hmapping => absurd hmapping (not_mappingAt hbase path)

theorem filled_mapping (h : ∀ m ∈ patch, Filled (valueAt base [m.1]) m.2) :
    Filled base (.obj patch) := by
  rintro (_ | ⟨key, path⟩) hbase w hw
  · obtain rfl := Option.some.inj hw
    rfl
  · rw [MappingAt, valueAt_cons] at hbase
    rw [valueAt] at hw
    cases hlookup : patch.lookup key with
    | none =>
      rw [hlookup, valueAt_none] at hw
      cases hw
    | some u =>
      rw [hlookup] at hw
      exact h _ (mem_of_lookup hlookup) path hbase w hw

theorem mergeValue_leaf (base : Option Yaml) (hv : v.isMapping = false) :
    mergeValue base v = v := by
  cases v with
  | obj patch => cases hv
  | _ => simp only [mergeValue]

theorem mergeValue_none (v : Yaml) : mergeValue none v = v := by
  cases v <;> simp only [mergeValue]

theorem isMapping_mergeValue (base : Option Yaml) (v : Yaml) :
    (mergeValue base v).isMapping = v.isMapping := by
  cases v with
  | obj patch =>
    simp only [mergeValue]
    split <;> rfl
  | _ => rw [mergeValue_leaf base rfl]

/-- A key that the file does not have. -/
theorem lookup_deepMerge_of_not_mem (members : Members) {key : JsString}
    (h : key ∉ patch.map Prod.fst) (out : Members) :
    (deepMerge members out patch).lookup key = out.lookup key := by
  induction patch generalizing out with
  | nil => rw [deepMerge]
  | cons m patch ih =>
    obtain ⟨k, w⟩ := m
    rw [List.map_cons, List.mem_cons, not_or] at h
    rw [deepMerge, ih h.2, assign]
    split
    · rfl
    · exact lookup_put_ne h.1 _ _

/-- One key of a merge. -/
theorem valueAt_merge_cons (h : Fits base (.obj patch)) (key : JsString) (path : Path) :
    valueAt (some (mergeValue base (.obj patch))) (key :: path) =
      valueAt (((patch.lookup key).map (mergeValue (valueAt base [key]))).or
        (valueAt base [key])) path := by
  cases h with
  | leaf _ h => cases h
  | mapping hbase hkeys hproto hmembers =>
    rcases base with _ | base
    · rw [mergeValue_none, valueAt_none, Option.or_none, funext mergeValue_none, Option.map_id']
      rfl
    · obtain ⟨members, rfl⟩ : ∃ members, base = .obj members := by
        refine isMapping_iff.mp ?_
        by_contra hleaf
        rw [leafAt_eq_some.mpr ⟨rfl, Bool.eq_false_iff.mpr hleaf⟩] at hbase
        cases hbase
      have hlookup : (deepMerge members members patch).lookup key =
          ((patch.lookup key).map (mergeValue (members.lookup key))).or (members.lookup key) := by
        by_cases hkey : key = js "__proto__"
        · rw [← hkey] at hproto
          rw [lookup_deepMerge_of_not_mem _ hproto, lookup_of_not_mem hproto]
          rfl
        · exact lookup_deepMerge members hkeys hkey members
      rw [mergeValue, valueAt, hlookup]
      rfl

/-- A leaf of the file is in the merge, whatever the defaults have there. -/
theorem Fits.leafAt_of_leaf (h : Fits base v) {w : Yaml} (hw : leafAt (some v) path = some w) :
    leafAt (some (mergeValue base v)) path = some w := by
  rw [leafAt_eq_some] at hw ⊢
  refine ⟨?_, hw.2⟩
  obtain ⟨hvalue, hleaf⟩ := hw
  induction path generalizing base v with
  | nil =>
    obtain rfl := Option.some.inj hvalue
    exact congrArg some (mergeValue_leaf base hleaf)
  | cons key path ih =>
    obtain ⟨patch, hpatch⟩ := mappingAt_root hvalue
    obtain rfl := Option.some.inj hpatch
    rw [valueAt] at hvalue
    rw [valueAt_merge_cons h]
    cases hlookup : patch.lookup key with
    | none =>
      rw [hlookup, valueAt_none] at hvalue
      cases hvalue
    | some u =>
      rw [hlookup] at hvalue
      exact ih (h.lookup hlookup) hvalue

/-- **A merge has the leaves of the file, and those of the defaults elsewhere.** -/
theorem leafAt_merge (h : Fits base v) (hfilled : Filled base v) (path : Path) :
    leafAt (some (mergeValue base v)) path = (leafAt (some v) path).or (leafAt base path) := by
  induction path generalizing base v with
  | nil =>
    cases h with
    | leaf _ hv =>
      rw [mergeValue_leaf base hv, leafAt_eq_some.mpr ⟨rfl, hv⟩]
      rfl
    | @mapping _ patch hbase =>
      have hmerge : MappingAt (some (mergeValue base (.obj patch))) [] :=
        (isMapping_iff.mp (isMapping_mergeValue base (.obj patch))).imp fun _ => congrArg some
      have hfile : MappingAt (some (.obj patch)) [] := ⟨patch, rfl⟩
      rw [hbase, leafAt_of_mappingAt hmerge, leafAt_of_mappingAt hfile]
      rfl
  | cons key path ih =>
    cases hv : v.isMapping with
    | false =>
      have hbase : leafAt base (key :: path) = none := by
        refine leafAt_below (fun hmapping => ?_) key path
        rw [hfilled [] hmapping v rfl] at hv
        cases hv
      rw [mergeValue_leaf base hv, hbase, Option.or_none]
    | true =>
      obtain ⟨patch, rfl⟩ := isMapping_iff.mp hv
      have hfile : leafAt (some (.obj patch)) (key :: path) = leafAt (patch.lookup key) path := rfl
      have hdefault : leafAt base (key :: path) = leafAt (valueAt base [key]) path := by
        rw [leafAt, valueAt_cons]
        rfl
      rw [leafAt, valueAt_merge_cons h, hfile, hdefault]
      cases hlookup : patch.lookup key with
      | none =>
        rw [leafAt, valueAt_none]
        rfl
      | some u => exact ih (h.lookup hlookup) (hfilled.lookup hlookup)

/-- A mapping of the defaults is one of the merge. -/
theorem mappingAt_merge (h : Fits base v) (hfilled : Filled base v) (hbase : MappingAt base path) :
    MappingAt (some (mergeValue base v)) path := by
  induction path generalizing base v with
  | nil =>
    have hmapping := isMapping_mergeValue base v
    rw [hfilled [] hbase v rfl] at hmapping
    exact (isMapping_iff.mp hmapping).imp fun _ => congrArg some
  | cons key path ih =>
    have hroot : v.isMapping = true :=
      hfilled [] (mappingAt_root hbase.choose_spec) v rfl
    obtain ⟨patch, rfl⟩ := isMapping_iff.mp hroot
    rw [MappingAt, valueAt_cons] at hbase
    rw [MappingAt, valueAt_merge_cons h]
    cases hlookup : patch.lookup key with
    | none => exact hbase
    | some u => exact ih (h.lookup hlookup) (hfilled.lookup hlookup) hbase

/-- A leaf of the defaults is no mapping of the merge. -/
theorem not_mappingAt_merge (h : Fits base v) (hbase : leafAt base path ≠ none) :
    ¬ MappingAt (some (mergeValue base v)) path := by
  induction path generalizing base v with
  | nil =>
    cases h with
    | leaf _ hv =>
      rw [mergeValue_leaf base hv]
      exact not_mappingAt_leaf hv []
    | mapping hnone => exact absurd hnone hbase
  | cons key path ih =>
    cases hv : v.isMapping with
    | false =>
      rw [mergeValue_leaf base hv]
      exact not_mappingAt_leaf hv (key :: path)
    | true =>
      obtain ⟨patch, rfl⟩ := isMapping_iff.mp hv
      rw [leafAt, valueAt_cons] at hbase
      rw [MappingAt, valueAt_merge_cons h]
      cases hlookup : patch.lookup key with
      | none => exact fun hmapping => hbase (leafAt_of_mappingAt hmapping)
      | some u => exact ih (h.lookup hlookup) hbase

/-! ## Overriding

Behind the merge `loadConfig` assigns a few settings, each to one leaf.  The order matters for
those that two lines of it assign, and the tests that depend on a setting look at what the
lines before have made of it. -/

/-- A variable of the environment that is set and not empty. -/
def given (value : Option JsString) : Option JsString := value.filter fun s => s ≠ []

/-- Where `HTTP_PORT` is put. -/
def httpPort : Path := [js "server", js "http_port"]

/-- Where `BIND_ADDRESS` is put, and `127.0.0.1` if only the local host is to be served. -/
def bindAddress : Path := [js "server", js "bind_address"]

/-- Where `ACCESS_TOKEN` is put. -/
def accessToken : Path := [js "server", js "access_token"]

/-- Whether only the local host is to be served. -/
def bindLocalhostOnly : Path := [js "server", js "bind_localhost_only"]

/-- Whether a token is required; it is if there is one. -/
def requireTokenPath : Path := [js "security", js "require_token"]

/-- The leaves that are read or written behind the merge. -/
def settings : List Path :=
  [httpPort, bindAddress, accessToken, bindLocalhostOnly, requireTokenPath]

/-- What is set at a path whatever its leaf is: by the environment, for a token, or for the
local host. -/
def overridden (toNumber : JsString → Number) (env : Env) (leaves : Path → Option Yaml)
    (path : Path) : Option Yaml :=
  if path = httpPort then (given env.httpPort).map fun s => .num (toNumber s)
  else if path = bindAddress then
    if truthy (leaves bindLocalhostOnly) then some (.str (js "127.0.0.1"))
    else (given env.bindAddress).map .str
  else if path = accessToken then (given env.accessToken).map .str
  else if path = requireTokenPath then
    if truthy (((given env.accessToken).map .str).or (leaves accessToken)) then some (.bool true)
    else none
  else none

variable {config config' : Members}

/-- No setting is a mapping. -/
def Flat (config : Members) : Prop :=
  ∀ path ∈ settings, ¬ MappingAt (some (.obj config)) path

/-- `config'` is `config` with `value`, if there is one, at `path`. -/
structure Overrides (path : Path) (value : Option Yaml) (config config' : Members) : Prop where
  mapping : ∀ p, MappingAt (some (.obj config')) p ↔ MappingAt (some (.obj config)) p
  leaf : HasSections config → ∀ p, leafAt (some (.obj config')) p =
    (if p = path then value else none).or (leafAt (some (.obj config)) p)

theorem Overrides.refl (path : Path) (config : Members) : Overrides path none config config :=
  ⟨fun _ => Iff.rfl, fun _ p => by rw [ite_self, Option.none_or]⟩

/-- A leaf put in the place of no mapping leaves the mappings as they are. -/
theorem mappingAt_set {name key : String} (hv : v.isMapping = false)
    (hflat : ¬ MappingAt (some (.obj config)) [js name, js key])
    (h : set config name key v = .ok config') (p : Path) :
    MappingAt (some (.obj config')) p ↔ MappingAt (some (.obj config)) p := by
  obtain ⟨section', hwrite, rfl⟩ := set_eq_ok h
  refine mappingAt_put (fun path => ?_) p
  unfold write at hwrite
  split at hwrite
  · rename_i members hsection
    obtain rfl := Except.ok.inj hwrite
    rw [MappingAt, valueAt, hsection] at hflat
    rw [hsection]
    exact mappingAt_put (fun path =>
      iff_of_false (not_mappingAt_leaf hv path) (not_mappingAt hflat path)) path
  · rename_i items named hsection
    obtain rfl := Except.ok.inj hwrite
    rw [hsection]
    exact iff_of_false (not_mappingAt_leaf rfl path) (not_mappingAt_leaf rfl path)
  · cases hwrite

theorem leafAt_set {name key : String} {members : Members} (hv : v.isMapping = false)
    (hsection : config.lookup (js name) = some (.obj members))
    (hflat : ¬ MappingAt (some (.obj config)) [js name, js key])
    (h : set config name key v = .ok config') (p : Path) :
    leafAt (some (.obj config')) p =
      (if p = [js name, js key] then some v else none).or (leafAt (some (.obj config)) p) := by
  obtain ⟨section', hwrite, rfl⟩ := set_eq_ok h
  rw [hsection] at hwrite
  obtain rfl := Except.ok.inj hwrite
  rw [MappingAt, valueAt, hsection] at hflat
  rcases p with _ | ⟨n, p⟩
  · rfl
  by_cases hn : n = js name
  · subst hn
    have hbefore : leafAt (some (.obj config)) (js name :: p) = leafAt (some (.obj members)) p := by
      rw [leafAt, valueAt, hsection]
      rfl
    rw [leafAt, valueAt_put_self, hbefore]
    rcases p with _ | ⟨k, p⟩
    · rw [if_neg (by simp)]
      rfl
    by_cases hk : k = js key
    · subst hk
      rw [valueAt_put_self]
      rcases p with _ | ⟨c, p⟩
      · rw [if_pos rfl]
        exact leafAt_eq_some.mpr ⟨rfl, hv⟩
      · rw [if_neg (by simp), valueAt_leaf hv]
        exact (leafAt_below hflat c p).symm
    · rw [valueAt_put_ne hk, if_neg (by simp [hk])]
      rfl
  · rw [leafAt, valueAt_put_ne hn, if_neg (by simp [hn])]
    rfl

theorem Overrides.leaf_ne {value : Option Yaml} (h : Overrides path value config config')
    (hsections : HasSections config) {p : Path} (hp : p ≠ path) :
    leafAt (some (.obj config')) p = leafAt (some (.obj config)) p := by
  rw [h.leaf hsections, if_neg hp, Option.none_or]

theorem Overrides.flat {value : Option Yaml} (h : Overrides path value config config')
    (hflat : Flat config) : Flat config' := fun p hp hmapping =>
  hflat p hp ((h.mapping p).mp hmapping)

theorem Overrides.hasSections {value : Option Yaml} (h : Overrides path value config config')
    (hsections : HasSections config) : HasSections config' :=
  ⟨(h.mapping [js "server"]).mpr hsections.server,
    (h.mapping [js "security"]).mpr hsections.security⟩

theorem overrides_set {name key : String} (hname : name = "server" ∨ name = "security")
    (hpath : [js name, js key] ∈ settings) (hflat : Flat config) (hv : v.isMapping = false)
    (h : set config name key v = .ok config') :
    Overrides [js name, js key] (some v) config config' := by
  refine ⟨mappingAt_set hv (hflat _ hpath) h, fun hsections p => ?_⟩
  have hsection : ∃ members, config.lookup (js name) = some (.obj members) := by
    rcases hname with rfl | rfl
    · exact hsections.server
    · exact hsections.security
  obtain ⟨members, hmembers⟩ := hsection
  exact leafAt_set hv hmembers (hflat _ hpath) h p

theorem override_overrides {value : Option JsString} {key : String} {f : JsString → Yaml}
    (hpath : [js "server", js key] ∈ settings) (hf : ∀ s, (f s).isMapping = false)
    (hflat : Flat config) (h : override config value key f = .ok config') :
    Overrides [js "server", js key] ((given value).map f) config config' := by
  rcases value with _ | _ | ⟨c, s⟩
  · obtain rfl := Except.ok.inj h
    exact .refl _ _
  · obtain rfl := Except.ok.inj h
    exact .refl _ _
  · exact overrides_set (Or.inl rfl) hpath hflat (hf _) h

/-- A setting that depends on another one of `server`. -/
theorem conditional_overrides {cond name key : String}
    (hname : name = "server" ∨ name = "security") (hpath : [js name, js key] ∈ settings)
    (hcond : [js "server", js cond] ∈ settings) (hflat : Flat config) (hv : v.isMapping = false)
    (h : (do
      let o ← get config "server" cond
      if truthy o then set config name key v else pure config) = Except.ok config') :
    ∃ o, Overrides [js name, js key] (if truthy o then some v else none) config config' ∧
      (HasSections config → o = leafAt (some (.obj config)) [js "server", js cond]) := by
  obtain ⟨o, hget, h⟩ := bind_eq_ok.mp h
  refine ⟨o, ?_, fun hsections => ?_⟩
  · by_cases htruthy : truthy o = true
    · rw [if_pos htruthy] at h ⊢
      exact overrides_set hname hpath hflat hv h
    · rw [if_neg htruthy] at h ⊢
      obtain rfl := Except.ok.inj h
      exact .refl _ _
  · obtain ⟨members, hmembers⟩ := hsections.server
    rw [leafAt_of_not_mappingAt (hflat _ hcond), valueAt, hmembers]
    rw [get, hmembers] at hget
    exact (Except.ok.inj hget).symm

/-- The overrides in the order of `loadConfig`, the last first. -/
theorem or_overridden (toNumber : JsString → Number) (env : Env) (leaves : Path → Option Yaml)
    (p : Path) :
    (if p = bindAddress then
        if truthy (leaves bindLocalhostOnly) then some (.str (js "127.0.0.1")) else none
      else none).or
      ((if p = requireTokenPath then
          if truthy (((given env.accessToken).map .str).or (leaves accessToken)) then
            some (.bool true)
          else none
        else none).or
        ((if p = accessToken then (given env.accessToken).map .str else none).or
          ((if p = bindAddress then (given env.bindAddress).map .str else none).or
            ((if p = httpPort then (given env.httpPort).map fun s => .num (toNumber s)
              else none).or (leaves p))))) =
      (overridden toNumber env leaves p).or (leaves p) := by
  unfold overridden
  by_cases hport : p = httpPort
  · subst hport
    simp +decide
  by_cases haddress : p = bindAddress
  · subst haddress
    by_cases honly : truthy (leaves bindLocalhostOnly) = true
    · simp +decide [honly]
    · simp +decide [honly]
  by_cases htoken : p = accessToken
  · subst htoken
    simp +decide
  by_cases hrequire : p = requireTokenPath
  · subst hrequire
    simp +decide
  simp [hport, haddress, htoken, hrequire]

/-- **What `loadConfig` makes of a merge**: the mappings stay, and so do the leaves that are not
overridden. -/
theorem loadConfig_leaves {toNumber : JsString → Number} {files : Files} {env : Env}
    (hflat : Flat config)
    (hmerged : merged (files (env.configPath.getD (js "/config/config.yaml"))) = .ok config)
    (h : loadConfig toNumber files env = .ok config') :
    (∀ p, MappingAt (some (.obj config')) p ↔ MappingAt (some (.obj config)) p) ∧
      (HasSections config → ∀ p, leafAt (some (.obj config')) p =
        (overridden toNumber env (leafAt (some (.obj config))) p).or
          (leafAt (some (.obj config)) p)) := by
  obtain ⟨config₀, h₀, h⟩ := bind_eq_ok.mp h
  obtain rfl := Except.ok.inj (hmerged.symm.trans h₀)
  obtain ⟨config₁, h₁, h⟩ := bind_eq_ok.mp h
  obtain ⟨config₂, h₂, h⟩ := bind_eq_ok.mp h
  obtain ⟨config₃, h₃, h⟩ := bind_eq_ok.mp h
  obtain ⟨config₄, h₄, h₅⟩ := bind_eq_ok.mp h
  have hport : Overrides httpPort _ config config₁ :=
    override_overrides (by decide) (fun _ => rfl) hflat h₁
  have haddress : Overrides bindAddress _ config₁ config₂ :=
    override_overrides (by decide) (fun _ => rfl) (hport.flat hflat) h₂
  have hflat₂ := haddress.flat (hport.flat hflat)
  have htoken : Overrides accessToken _ config₂ config₃ :=
    override_overrides (by decide) (fun _ => rfl) hflat₂ h₃
  have hflat₃ := htoken.flat hflat₂
  obtain ⟨token, hrequire, htokenLeaf⟩ :=
    conditional_overrides (Or.inr rfl) (by decide) (by decide) hflat₃ rfl h₄
  obtain ⟨only, hlocal, honlyLeaf⟩ :=
    conditional_overrides (Or.inl rfl) (by decide) (by decide) (hrequire.flat hflat₃) rfl h₅
  refine ⟨fun p => ?_, fun hsections p => ?_⟩
  · rw [hlocal.mapping, hrequire.mapping, htoken.mapping, haddress.mapping, hport.mapping]
  · have hsections₁ := hport.hasSections hsections
    have hsections₂ := haddress.hasSections hsections₁
    have hsections₃ := htoken.hasSections hsections₂
    have hsections₄ := hrequire.hasSections hsections₃
    -- what the two conditions look at, in the merge
    have htokenEq : token = ((given env.accessToken).map .str).or
        (leafAt (some (.obj config)) accessToken) := by
      rw [htokenLeaf hsections₃]
      show leafAt _ accessToken = _
      rw [htoken.leaf hsections₂, if_pos rfl, haddress.leaf_ne hsections₁ (by decide),
        hport.leaf_ne hsections (by decide)]
    have honlyEq : only = leafAt (some (.obj config)) bindLocalhostOnly := by
      rw [honlyLeaf hsections₄]
      show leafAt _ bindLocalhostOnly = _
      rw [hrequire.leaf_ne hsections₃ (by decide), htoken.leaf_ne hsections₂ (by decide),
        haddress.leaf_ne hsections₁ (by decide), hport.leaf_ne hsections (by decide)]
    rw [hlocal.leaf hsections₄, hrequire.leaf hsections₃, htoken.leaf hsections₂,
      haddress.leaf hsections₁, hport.leaf hsections, htokenEq, honlyEq]
    exact or_overridden toNumber env _ p

/-! ## Files

A document is what `yaml.parse` has made of a file.  The equivalence has two sides: what is
`Filled` is kept leaf by leaf, and a blank in the place of a mapping of the defaults loses
that mapping. -/

/-- A document that is empty, or a mapping in the layout of the defaults. -/
inductive IsDocument : Yaml → Prop
  | empty : IsDocument .null
  | mapping {members : Members} (h : Fits (some (.obj defaults)) (.obj members)) :
      IsDocument (.obj members)

/-- The leaf of the file, if it has one there, or the default. -/
def fileOrDefault (doc : Yaml) (path : Path) : Option Yaml :=
  (leafAt (some doc) path).or (leafAt (some (.obj defaults)) path)

/-- The sections are mappings, and the leaves those of the file or the defaults, apart from the
overrides. -/
structure Keeps (toNumber : JsString → Number) (env : Env) (doc : Yaml) (config : Members) :
    Prop where
  sections : ∀ p, MappingAt (some (.obj defaults)) p → MappingAt (some (.obj config)) p
  leaves : ∀ p, ¬ MappingAt (some (.obj defaults)) p →
    overridden toNumber env (fileOrDefault doc) p = none →
      leafAt (some (.obj config)) p = fileOrDefault doc p

theorem merged_of_mapping (members : Members) :
    merged (some (.ok (.obj members))) = .ok (deepMerge defaults defaults members) ∧
      mergeValue (some (.obj defaults)) (.obj members) =
        .obj (deepMerge defaults defaults members) :=
  ⟨rfl, by simp only [mergeValue]⟩

/-- All settings have a default. -/
theorem flat_merged {members : Members} (h : Fits (some (.obj defaults)) (.obj members)) :
    Flat (deepMerge defaults defaults members) := by
  have hdefaults : (settings.all fun p => (leafAt (some (.obj defaults)) p).isSome) = true := rfl
  intro p hp
  rw [← (merged_of_mapping members).2]
  exact not_mappingAt_merge h
    (Option.isSome_iff_ne_none.mp (List.all_eq_true.mp hdefaults p hp))

/-- **What is kept of the file and the defaults**: everything if the document is a mapping with
a mapping in the place of each one of the defaults, and not otherwise. -/
theorem loadConfig_keeps_iff {toNumber : JsString → Number} {files : Files} {env : Env}
    {doc : Yaml} (hdoc : IsDocument doc)
    (hfile : files (env.configPath.getD (js "/config/config.yaml")) = some (.ok doc)) :
    (∃ config, loadConfig toNumber files env = .ok config ∧ Keeps toNumber env doc config) ↔
      Filled (some (.obj defaults)) doc := by
  cases hdoc with
  | empty =>
    refine iff_of_false ?_ fun hfilled => ?_
    · rintro ⟨config, hload, -⟩
      obtain ⟨_, hmerged, -⟩ := bind_eq_ok.mp hload
      rw [hfile] at hmerged
      cases hmerged
    · exact absurd (hfilled [] ⟨_, rfl⟩ .null rfl) (by decide)
  | @mapping members hfits =>
    obtain ⟨hmerged, hvalue⟩ := merged_of_mapping members
    rw [← hfile] at hmerged
    constructor
    · rintro ⟨config, hload, hkeeps⟩ p hdefault w hw
      by_contra hleaf
      have hfile : leafAt (some (.obj members)) p = some w :=
        leafAt_eq_some.mpr ⟨hw, Bool.eq_false_iff.mpr hleaf⟩
      have hkept := hfits.leafAt_of_leaf hfile
      rw [hvalue] at hkept
      have hmapping := ((loadConfig_leaves (flat_merged hfits) hmerged hload).1 p).mp
        (hkeeps.sections p hdefault)
      rw [leafAt_of_mappingAt hmapping] at hkept
      cases hkept
    · intro hfilled
      have hsection : ∀ p, MappingAt (some (.obj defaults)) p →
          MappingAt (some (.obj (deepMerge defaults defaults members))) p := by
        intro p hp
        rw [← hvalue]
        exact mappingAt_merge hfits hfilled hp
      have hsections : HasSections (deepMerge defaults defaults members) :=
        ⟨hsection [js "server"] ⟨_, rfl⟩, hsection [js "security"] ⟨_, rfl⟩⟩
      have hleaves : leafAt (some (.obj (deepMerge defaults defaults members))) =
          fileOrDefault (.obj members) := by
        rw [← hvalue]
        exact funext (leafAt_merge hfits hfilled)
      obtain ⟨config, hload, -⟩ := loadConfig_of_merged toNumber files env hsections hmerged
      obtain ⟨hmapping, hleaf⟩ := loadConfig_leaves (flat_merged hfits) hmerged hload
      refine ⟨config, hload, fun p hp => (hmapping p).mpr (hsection p hp), fun p _ hnone => ?_⟩
      rw [hleaf hsections, hleaves, hnone, Option.none_or]

/-- The place of the car in the file, and the port in the environment. -/
theorem loadConfig_keeps_latitude :
    let doc : Yaml := .obj [(js "sensors", .obj [(js "gps", .obj [number "latitude" 48])])]
    let env : Env := ⟨none, some (js "80"), none, none⟩
    ∃ config, loadConfig (fun _ => .finite 80) (fun _ => some (.ok doc)) env = .ok config ∧
      Keeps (fun _ => .finite 80) env doc config := by
  intro doc env
  have hdoc : IsDocument doc := by
    refine .mapping (.mapping rfl (by decide) (by decide) (List.forall_mem_singleton.mpr ?_))
    refine .mapping rfl (by decide) (by decide) (List.forall_mem_singleton.mpr ?_)
    exact .mapping rfl (by decide) (by decide) (List.forall_mem_singleton.mpr (.leaf _ rfl))
  have hfilled : Filled (some (.obj defaults)) doc := by
    refine filled_mapping (List.forall_mem_singleton.mpr ?_)
    refine filled_mapping (List.forall_mem_singleton.mpr ?_)
    refine filled_mapping (List.forall_mem_singleton.mpr (filled_leaf ?_ _))
    rintro ⟨members, hmembers⟩
    cases hmembers
  exact (loadConfig_keeps_iff hdoc rfl).mpr hfilled

/-- A section of which only the heading is left: the server does not start. -/
theorem server_blank_throws :
    let doc : Yaml := .obj [(js "server", .null)]
    let env : Env := ⟨none, none, none, none⟩
    IsDocument doc ∧
      loadConfig (fun _ => .nan) (fun _ => some (.ok doc)) env = .error .typeError ∧
        ¬ ∃ config, loadConfig (fun _ => .nan) (fun _ => some (.ok doc)) env = .ok config ∧
          Keeps (fun _ => .nan) env doc config := by
  intro doc env
  have hthrows : loadConfig (fun _ => .nan) (fun _ => some (.ok doc)) env = .error .typeError := by
    rfl
  refine ⟨?_, hthrows, fun ⟨config, hload, _⟩ => ?_⟩
  · exact .mapping (.mapping rfl (by decide) (by decide)
      (List.forall_mem_singleton.mpr (.leaf _ rfl)))
  · rw [hthrows] at hload
    cases hload

end Whutfa.Config
