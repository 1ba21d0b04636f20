import Whutfa.HttpServer

/-! # Requests that throw

What `checkAuth` throws, nothing catches: its callers are listeners of the HTTP server
(`server/src/index.ts`), and Node ends the process.

`loadConfig` accepts whatever the file gives.  A `security` that is blank throws with every
request but a sign of life; an `access_token` that `Buffer.from` does not take (a number,
say) throws with every request that offers a token.  There is no other way to throw
(`throws_iff`), and none with a configuration whose token is a text and whose `security` is
a mapping.
-/
namespace Whutfa.HttpServer

open JsString Yaml

/-- Nothing under `security`. -/
def SecurityBlank (config : Members) : Prop :=
  config.lookup (js "security") = none ∨ config.lookup (js "security") = some .null

/-- A token is offered where the one that is set has no bytes to compare. -/
def ComparesNoBuffer (p : Platform) (required : Option Yaml) (provided : Option JsString) : Prop :=
  ∃ accessToken token, required = some accessToken ∧ truthy required = true ∧
    (∃ thrown, bufferFrom p accessToken = .error thrown) ∧ provided = some token ∧ token ≠ []

/-- A configuration and a request that do not go together. -/
def Fatal (p : Platform) (config : Members) (r : Request) : Prop :=
  SecurityBlank config ∨ ∃ accessToken,
    Config.get config "server" "access_token" = .ok accessToken ∧
      ComparesNoBuffer p accessToken (providedToken p r)

theorem get_error_iff {config : Members} {name key : String} :
    (∃ thrown, Config.get config name key = .error thrown) ↔
      config.lookup (js name) = none ∨ config.lookup (js name) = some .null := by
  unfold Config.get
  cases config.lookup (js name) with
  | none => exact ⟨fun _ => Or.inl rfl, fun _ => ⟨_, rfl⟩⟩
  | some v =>
    cases v with
    | null => exact ⟨fun _ => Or.inr rfl, fun _ => ⟨_, rfl⟩⟩
    | _ =>
      constructor
      · rintro ⟨_, h⟩
        cases h
      · rintro (h | h)
        · cases h
        · cases h

theorem validateToken_throws_iff (p : Platform) (required : Option Yaml)
    (provided : Option JsString) :
    (∃ thrown, validateToken p required provided = .error thrown) ↔
      ComparesNoBuffer p required provided := by
  constructor
  · rintro ⟨thrown, h⟩
    cases required with
    | none => cases h
    | some accessToken =>
      cases hset : truthy (some accessToken) with
      | false =>
        simp only [validateToken, hset] at h
        cases h
      | true =>
        simp only [validateToken, hset, if_true] at h
        split at h
        · cases h
        · cases h
        · rename_i token hne
          refine ⟨accessToken, token, rfl, hset, ?_, rfl, hne⟩
          rcases bind_eq_error.mp ⟨thrown, h⟩ with hbuffer | ⟨a, -, e, hcompare⟩
          · exact hbuffer
          · split at hcompare
            · cases hcompare
            · cases hcompare
  · rintro ⟨accessToken, token, rfl, hset, hbuffer, rfl, hne⟩
    cases token with
    | nil => exact absurd rfl hne
    | cons c token =>
      simp only [validateToken, hset, if_true]
      exact bind_eq_error.mpr (Or.inl hbuffer)

/-- What `checkAuth` throws. -/
theorem checkAuth_throws_iff (p : Platform) {toNumber : JsString → Number} {files : Config.Files}
    {env : Config.Env} {config : Members}
    (hload : Config.loadConfig toNumber files env = .ok config) (r : Request) :
    (∃ thrown, checkAuth p config r = .error thrown) ↔ Fatal p config r := by
  obtain ⟨accessToken, htoken, hrequire⟩ := Config.requireToken_of_accessToken hload
  unfold checkAuth Fatal
  rw [bind_eq_error, get_error_iff]
  refine or_congr Iff.rfl ⟨?_, ?_⟩
  · rintro ⟨requireToken, -, hthrown⟩
    split at hthrown
    · rcases bind_eq_error.mp hthrown with ⟨thrown, hget⟩ | ⟨accessToken', hget, hvalidate⟩
      · rw [htoken] at hget
        cases hget
      · exact ⟨accessToken', hget, (validateToken_throws_iff p _ _).mp hvalidate⟩
    · obtain ⟨thrown, h⟩ := hthrown
      cases h
  · rintro ⟨accessToken', hget, hcompares⟩
    obtain rfl := Except.ok.inj (htoken.symm.trans hget)
    -- a token that is set is required
    have hset : truthy accessToken = true := hcompares.elim fun _ h => h.elim fun _ h => h.2.1
    refine ⟨_, hrequire hset, ?_⟩
    rw [if_pos (by rfl)]
    exact bind_eq_error.mpr (Or.inr ⟨_, htoken, (validateToken_throws_iff p _ _).mpr hcompares⟩)

/-- What asks first for `checkAuth` throws what that throws, and nothing else. -/
theorem bind_throws_iff {α : Type} {x : Except Thrown Bool} {f : Bool → Except Thrown α}
    (hf : ∀ authorized, ∃ answer, f authorized = .ok answer) :
    (∃ thrown, x >>= f = .error thrown) ↔ ∃ thrown, x = .error thrown := by
  rw [bind_eq_error]
  refine or_iff_left ?_
  rintro ⟨authorized, -, _, hthrown⟩
  obtain ⟨answer, hanswer⟩ := hf authorized
  rw [hanswer] at hthrown
  cases hthrown

/-- **The requests that end the process.**  With a configuration that `loadConfig` returns, a
request other than a sign of life throws, and so does an upgrade, exactly when nothing stands
under `security`, or when a token is offered and the one that is set has no bytes. -/
theorem throws_iff (p : Platform) {toNumber : JsString → Number} {files : Config.Files}
    {env : Config.Env} {s : Server}
    (hload : Config.loadConfig toNumber files env = .ok s.config) (r : Request) :
    ((∃ thrown, onRequest p s r = .error thrown) ↔
      (js "/healthz").isPrefixOf r.url = false ∧ Fatal p s.config r) ∧
    ((∃ thrown, onUpgrade p s r = .error thrown) ↔ Fatal p s.config r) := by
  rw [← checkAuth_throws_iff p hload r]
  constructor
  · unfold onRequest
    cases halive : (js "/healthz").isPrefixOf r.url with
    | true =>
      refine ⟨?_, fun h => by cases h.1⟩
      rintro ⟨_, h⟩
      cases h
    | false =>
      rw [if_neg Bool.false_ne_true]
      refine Iff.trans ?_ (and_iff_right rfl).symm
      split
      · refine bind_throws_iff fun authorized => ?_
        cases authorized
        · exact ⟨_, rfl⟩
        · exact ⟨_, rfl⟩
      · refine bind_throws_iff fun authorized => ?_
        cases authorized
        · exact ⟨_, rfl⟩
        · exact ⟨_, rfl⟩
  · refine bind_throws_iff fun authorized => ?_
    cases authorized
    · exact ⟨_, rfl⟩
    · exact ⟨_, rfl⟩

/-- The token in the file is a number: the process ends with a request that offers one. -/
theorem throws_iff_number :
    let file : Yaml := .obj [(js "server", .obj [Config.number "access_token" 1234])]
    let env : Config.Env := ⟨none, none, none, none⟩
    let r : Request := ⟨js "/api/status?token=secret", none, nofun⟩
    ∃ config thrown, Config.loadConfig (fun _ => .nan) (fun _ => some (.ok file)) env =
      .ok config ∧ onRequest platform (serverWith config) r = .error thrown := by
  intro file env r
  obtain ⟨config, hload, htoken⟩ : ∃ config,
      Config.loadConfig (fun _ => .nan) (fun _ => some (.ok file)) env = .ok config ∧
      Config.get config "server" "access_token" = .ok (some (.num (.finite 1234))) :=
    ⟨_, rfl, rfl⟩
  have hprovided : providedToken platform r = some (js "secret") := rfl
  obtain ⟨thrown, hthrown⟩ := (throws_iff platform (s := serverWith config) hload r).1.mpr
    ⟨rfl, Or.inr ⟨_, htoken, _, _, rfl, by decide, ⟨_, rfl⟩, hprovided, List.cons_ne_nil _ _⟩⟩
  exact ⟨config, thrown, hload, hthrown⟩

end Whutfa.HttpServer
