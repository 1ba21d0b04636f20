import Whutfa.BridgeClient
import Whutfa.Config
import Whutfa.StaticFiles

/-! # Who is answered

`validateToken` and `tokenFromUrl` (`server/src/auth.ts`), `checkAuth` and the two handlers
that call it (`server/src/index.ts`), for the configurations that `loadConfig` returns.  A
request is its target and one header; a handler that throws answers nothing.

A token that is not set asks for nothing: `validateToken` lets every request through, even
where the file says that a token is required.  Where it is set, whatever is answered has
carried it, as the same bytes (`answered_only_with_token`).
-/
namespace Whutfa.HttpServer

open JsString Yaml

/-- A request, as far as the handlers look at it. -/
structure Request where
  url : JsString
  /-- `headers["x-access-token"]`. -/
  accessToken : Option JsString
  /-- Header values are read as Latin-1. -/
  latin1 : ∀ s, accessToken = some s → ∀ c ∈ s, c.toNat < 256

/-- What is left to the platform. -/
structure Platform where
  /-- `new URL(url, "http://localhost").searchParams.get("token")`. -/
  searchToken : JsString → Except Thrown (Option JsString)
  /-- `URLSearchParams` decodes to well-formed strings. -/
  wellFormed : ∀ url s, searchToken url = .ok (some s) → toWellFormed s = s
  /-- `Buffer.from` of an array or an object. -/
  bufferFromObject : Yaml → Except Thrown (List UInt8)

/-- `Buffer.from`. -/
def bufferFrom (p : Platform) : Yaml → Except Thrown (List UInt8)
  | .str s => .ok (utf8 s)
  | .arr items named => p.bufferFromObject (.arr items named)
  | .obj members => p.bufferFromObject (.obj members)
  | _ => .error .typeError

/-- `validateToken`. -/
def validateToken (p : Platform) (required : Option Yaml) (provided : Option JsString) :
    Except Thrown Bool :=
  match required with
  | none => .ok true
  | some required =>
      if truthy (some required) then
        match provided with
        | none | some [] => .ok false
        | some provided => do
            let a ← bufferFrom p required
            let b := utf8 provided
            -- `timingSafeEqual` is asked for buffers of one length
            if a.length ≠ b.length then pure false else pure (a == b)
      else .ok true

/-- `tokenFromUrl`; an address that is no URL has no token. -/
def tokenFromUrl (p : Platform) (url : JsString) : Option JsString :=
  match p.searchToken url with
  | .ok token => token
  | .error _ => none

/-- `tokenFromUrl(url) ?? headers["x-access-token"]`. -/
def providedToken (p : Platform) (r : Request) : Option JsString :=
  match tokenFromUrl p r.url with
  | some token => some token
  | none => r.accessToken

/-- `checkAuth`. -/
def checkAuth (p : Platform) (config : Members) (r : Request) : Except Thrown Bool := do
  let requireToken ← Config.get config "security" "require_token"
  if truthy requireToken then
    let accessToken ← Config.get config "server" "access_token"
    validateToken p accessToken (providedToken p r)
  else pure true

/-- What the handlers find. -/
structure Server where
  config : Members
  handlerStatus : HandlerStatus
  videoConfig : VideoConfig
  useStub : Bool
  frontendDir : StaticFiles.Directory
  fs : StaticFiles.FileSystem

/-- What is answered. -/
inductive Response
  | healthz
  | unauthorized (body : JsString)
  | status (handlerStatus : HandlerStatus) (video : VideoConfig) (stub : Bool)
  | static (response : StaticFiles.Response)

/-- The handler of a request. -/
def onRequest (p : Platform) (s : Server) (r : Request) : Except Thrown Response :=
  if (js "/healthz").isPrefixOf r.url then .ok .healthz
  else if (js "/api/status").isPrefixOf r.url then do
    let authorized ← checkAuth p s.config r
    if authorized then pure (.status s.handlerStatus s.videoConfig s.useStub)
    else pure (.unauthorized [])
  else do
    let authorized ← checkAuth p s.config r
    if authorized then
      pure (.static (StaticFiles.serveStatic s.frontendDir s.fs (StaticFiles.pathname r.url)))
    else pure (.unauthorized (js "<h1>Unauthorized</h1><p>Set ?token= or X-Access-Token</p>"))

/-- What becomes of an upgrade. -/
inductive Upgrade
  | unauthorized
  | accepted (pathname : JsString)

/-- The handler of an upgrade. -/
def onUpgrade (p : Platform) (s : Server) (r : Request) : Except Thrown Upgrade := do
  let authorized ← checkAuth p s.config r
  if authorized then pure (.accepted (StaticFiles.pathname r.url)) else pure .unauthorized

/-! ## What an answer asks for -/

/-- The status is sent, a file is sent, or the upgrade is accepted. -/
def Answered (p : Platform) (s : Server) (r : Request) : Prop :=
  (∃ handlerStatus video stub, onRequest p s r = .ok (.status handlerStatus video stub)) ∨
    (∃ fp contentType, onRequest p s r = .ok (.static (.file fp contentType))) ∨
    ∃ pathname, onUpgrade p s r = .ok (.accepted pathname)

/-- The request has the token in its query or in its header. -/
def Request.Carries (p : Platform) (r : Request) (token : JsString) : Prop :=
  tokenFromUrl p r.url = some token ∨ r.accessToken = some token

/-- `access_token` is nothing that a condition takes for true: the empty string, say. -/
def Unset (config : Members) : Prop :=
  ∃ accessToken, Config.get config "server" "access_token" = .ok accessToken ∧
    truthy accessToken = false

/-- The token has the bytes of `access_token`, and is that string, but for its unpaired
surrogates, if it is a string. -/
def IsAccessToken (p : Platform) (config : Members) (token : JsString) : Prop :=
  ∃ accessToken, Config.get config "server" "access_token" = .ok (some accessToken) ∧
    truthy (some accessToken) = true ∧ bufferFrom p accessToken = .ok (utf8 token) ∧
    ∀ s, accessToken = .str s → token = toWellFormed s

theorem carries_providedToken {p : Platform} {r : Request} {token : JsString}
    (h : providedToken p r = some token) : r.Carries p token := by
  unfold providedToken at h
  split at h
  · rename_i hurl
    exact Or.inl (hurl.trans h)
  · exact Or.inr h

/-- Whatever a request carries is well-formed. -/
theorem Request.Carries.wellFormed {p : Platform} {r : Request} {token : JsString}
    (h : r.Carries p token) : toWellFormed token = token := by
  rcases h with h | h
  · unfold tokenFromUrl at h
    split at h
    · rename_i hsearch
      exact p.wellFormed _ _ (hsearch.trans (congrArg _ h))
    · cases h
  · exact toWellFormed_of_latin1 (r.latin1 token h)

theorem validateToken_eq_true {p : Platform} {required : Yaml} {provided : Option JsString}
    (hrequired : truthy (some required) = true)
    (h : validateToken p (some required) provided = .ok true) :
    ∃ token, provided = some token ∧ bufferFrom p required = .ok (utf8 token) := by
  simp only [validateToken, hrequired, if_true] at h
  split at h
  · cases h
  · cases h
  · rename_i token hne
    obtain ⟨a, ha, h⟩ := bind_eq_ok.mp h
    refine ⟨token, rfl, ?_⟩
    split at h
    · cases h
    · have hab : (a == utf8 token) = true := Except.ok.inj h
      rw [ha, eq_of_beq hab]

/-- A request that is let through carries the token, where that is required and set. -/
theorem carries_of_checkAuth {p : Platform} {config : Members} {r : Request}
    {accessToken : Option Yaml}
    (htoken : Config.get config "server" "access_token" = .ok accessToken)
    (hset : truthy accessToken = true)
    (hrequire : Config.get config "security" "require_token" = .ok (some (.bool true)))
    (h : checkAuth p config r = .ok true) :
    ∃ token, r.Carries p token ∧ IsAccessToken p config token := by
  obtain ⟨requireToken, hget, h⟩ := bind_eq_ok.mp h
  obtain rfl := Except.ok.inj (hrequire.symm.trans hget)
  obtain ⟨required, hget', h⟩ := bind_eq_ok.mp h
  obtain rfl := Except.ok.inj (htoken.symm.trans hget')
  cases accessToken with
  | none => cases hset
  | some required =>
    obtain ⟨token, hprovided, hbytes⟩ := validateToken_eq_true hset h
    have hcarries := carries_providedToken hprovided
    refine ⟨token, hcarries, required, htoken, hset, hbytes, ?_⟩
    rintro s rfl
    rw [← hcarries.wellFormed]
    exact toWellFormed_eq_of_utf8 (Except.ok.inj hbytes).symm

/-- A request that gets more than a sign of life or a refusal has passed `checkAuth`. -/
theorem checkAuth_of_onRequest {p : Platform} {s : Server} {r : Request} {response : Response}
    (h : onRequest p s r = .ok response) (halive : response ≠ .healthz)
    (hrefused : ∀ body, response ≠ .unauthorized body) : checkAuth p s.config r = .ok true := by
  have hguard : ∀ {answer : Response} {body : JsString}, (do
      let authorized ← checkAuth p s.config r
      if authorized then pure answer else pure (.unauthorized body)) = .ok response →
        checkAuth p s.config r = .ok true := by
    intro answer body h
    obtain ⟨authorized, hauth, h⟩ := bind_eq_ok.mp h
    cases authorized with
    | true => exact hauth
    | false => exact absurd (Except.ok.inj h).symm (hrefused body)
  unfold onRequest at h
  split at h
  · exact absurd (Except.ok.inj h).symm halive
  · split at h
    · exact hguard h
    · exact hguard h

/-- Nothing is answered without `checkAuth`. -/
theorem checkAuth_of_answered {p : Platform} {s : Server} {r : Request} (h : Answered p s r) :
    checkAuth p s.config r = .ok true := by
  rcases h with ⟨_, _, _, h⟩ | ⟨_, _, h⟩ | ⟨_, h⟩
  · exact checkAuth_of_onRequest h nofun nofun
  · exact checkAuth_of_onRequest h nofun nofun
  · obtain ⟨authorized, hauth, h⟩ := bind_eq_ok.mp h
    cases authorized with
    | true => exact hauth
    | false => cases h

/-- **Where a token is set, only requests with the token are answered.** -/
theorem answered_only_with_token (p : Platform) {toNumber : JsString → Number}
    {files : Config.Files} {env : Config.Env} {s : Server}
    (hload : Config.loadConfig toNumber files env = .ok s.config) (r : Request)
    (h : Answered p s r) :
    Unset s.config ∨ ∃ token, r.Carries p token ∧ IsAccessToken p s.config token := by
  obtain ⟨accessToken, htoken, hrequire⟩ := Config.requireToken_of_accessToken hload
  by_cases hset : truthy accessToken = true
  · exact Or.inr (carries_of_checkAuth htoken hset (hrequire hset) (checkAuth_of_answered h))
  · exact Or.inl ⟨accessToken, htoken, Bool.eq_false_iff.mpr hset⟩

/-- A platform for targets with no query but one. -/
def platform : Platform where
  searchToken url := .ok (if url = js "/api/status?token=secret" then some (js "secret") else none)
  wellFormed url s h := by
    obtain ⟨-, h⟩ := Option.ite_none_right_eq_some.mp (Except.ok.inj h)
    rw [← Option.some.inj h]
    decide
  bufferFromObject _ := .error .typeError

/-- A server with a configuration. -/
def serverWith (config : Members) : Server where
  config
  handlerStatus := defaultStatus
  videoConfig := defaultVideoConfig
  useStub := false
  frontendDir := ⟨js "/srv/frontend", rfl, by decide⟩
  fs := { existsSync := fun _ => false, isDirectory := fun _ => false }

/-- The token is set in the environment and carried in the query. -/
theorem secret_answered :
    let env : Config.Env := ⟨none, none, none, some (js "secret")⟩
    let r : Request := ⟨js "/api/status?token=secret", none, nofun⟩
    ∃ config, Config.loadConfig (fun _ => .nan) (fun _ => none) env = .ok config ∧
      ¬ Unset config ∧ ∃ token, r.Carries platform token ∧ IsAccessToken platform config token := by
  intro env r
  obtain ⟨config, hload, htoken, hanswered⟩ : ∃ config,
      Config.loadConfig (fun _ => .nan) (fun _ => none) env = .ok config ∧
      Config.get config "server" "access_token" = .ok (some (.str (js "secret"))) ∧
      onRequest platform (serverWith config) r =
        .ok (.status defaultStatus defaultVideoConfig false) := ⟨_, rfl, rfl, rfl⟩
  have hset : ¬ Unset config := by
    rintro ⟨accessToken, hget, hfalse⟩
    obtain rfl := Except.ok.inj (htoken.symm.trans hget)
    exact absurd hfalse (by decide)
  refine ⟨config, hload, hset, ?_⟩
  exact (answered_only_with_token platform (s := serverWith config) hload r
    (Or.inl ⟨_, _, _, hanswered⟩)).resolve_left hset

/-- The file requires a token and gives none: the status is sent to a request that carries
none, and `access_token` is empty. -/
theorem answered_without_token :
    let file : Yaml := .obj [(js "security", .obj [Config.flag "require_token" true])]
    let env : Config.Env := ⟨none, none, none, none⟩
    let r : Request := ⟨js "/api/status", none, nofun⟩
    ∃ config, Config.loadConfig (fun _ => .nan) (fun _ => some (.ok file)) env = .ok config ∧
      Config.get config "security" "require_token" = .ok (some (.bool true)) ∧
      Answered platform (serverWith config) r ∧
      ¬ ∃ token, r.Carries platform token ∧ IsAccessToken platform config token := by
  intro file env r
  obtain ⟨config, hload, hrequire, hanswered⟩ : ∃ config,
      Config.loadConfig (fun _ => .nan) (fun _ => some (.ok file)) env = .ok config ∧
      Config.get config "security" "require_token" = .ok (some (.bool true)) ∧
      onRequest platform (serverWith config) r =
        .ok (.status defaultStatus defaultVideoConfig false) := ⟨_, rfl, rfl, rfl⟩
  refine ⟨config, hload, hrequire, Or.inl ⟨_, _, _, hanswered⟩, ?_⟩
  rintro ⟨token, hurl | hheader, -⟩
  · exact absurd hurl (by simp [tokenFromUrl, platform, r, js])
  · cases hheader

end Whutfa.HttpServer
