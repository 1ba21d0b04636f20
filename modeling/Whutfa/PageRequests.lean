import Whutfa.HttpServer
import Whutfa.UrlEncoded

/-! # What a page asks for

The requests that a page of the frontend makes (`frontend/index.html`, `frontend/app.js`),
answered by the handlers of the server.  The page reads the token of its own address and
puts it into the address of the status and of its three WebSockets.

Whatever the token, these requests are let in where the page was
(`page_requests`).  The files that the page consists of are asked for without it: where a
token is set, they are refused to a page that has it in its address.
-/
namespace Whutfa.PageRequests

open JsString Yaml UrlEncoded HttpServer

/-- One `/`, and no `?` or `#`. -/
def isPath (path : JsString) : Bool :=
  path.head? == some (unit '/') && path.tail.head? != some (unit '/') &&
    path.tail.head? != some (unit '\\') &&
    path.all fun c => decide (0x20 < c) && c != unit '?' && c != unit '#'

/-- The address of the page. -/
structure Page where
  path : JsString
  /-- `location.search`, without its `?`; a page may have none. -/
  query : Option JsString
  isPath_path : isPath path = true
  isQuery_query : ∀ q, query = some q → isQuery q = true

/-- The request-target of a page. -/
def Page.target (page : Page) : JsString :=
  match page.query with
  | none => page.path
  | some query => page.path ++ unit '?' :: query

/-- `new URLSearchParams(location.search).get("token")`. -/
def Page.token (page : Page) : Option JsString :=
  searchParamsGet (page.query.getD []) (js "token")

/-- ``token ? `?token=${encodeURIComponent(token)}` : ""``, unless that throws. -/
def Page.wsQuery (page : Page) : Option JsString :=
  match page.token with
  | some (c :: token) => (encodeURIComponent (c :: token)).map (js "?token=" ++ ·)
  | _ => some []

/-- The request-target of a URL on the page's own host. -/
def requestTarget (url : JsString) : JsString :=
  match url.dropWhile (· ≠ unit '?') with
  | [] => url
  | mark :: query => url.takeWhile (· ≠ unit '?') ++ mark :: urlQuery query

/-- What `wsUrl(path)` asks for, and `pollStatus` with the path of the status. -/
def Page.request (page : Page) (path : JsString) : Option JsString :=
  page.wsQuery.map fun query => requestTarget (path ++ query)

/-- `connectVideo`, `connectAudio` and `connectInput`. -/
def webSockets : List JsString := [js "/ws/video", js "/ws/audio", js "/ws/input"]

/-- What `index.html` and `app.js` load. -/
def resources : List JsString :=
  [js "/style.css", js "/app.js", js "/h264.js", js "/av-sync.js", js "/audio-worklet.js"]

/-- The server reads queries as the page does. -/
structure ReadsQueries (p : Platform) : Prop where
  withQuery : ∀ path query, isPath path = true → isQuery query = true →
    p.searchToken (path ++ unit '?' :: query) = .ok (searchParamsGet query (js "token"))
  withoutQuery : ∀ path, isPath path = true → p.searchToken path = .ok none

/-- Another request of the same client: its header is the same. -/
def again (r : Request) (url : JsString) : Request := { r with url }

/-! ## The token of the page -/

theorem ne_mark_of_isPath {path : JsString} (h : isPath path = true) :
    ∀ c ∈ path, decide (c ≠ unit '?') = true := by
  intro c hc
  unfold isPath at h
  have hall := (Bool.and_eq_true_iff.mp h).2
  have hplain := (Bool.and_eq_true_iff.mp (List.all_eq_true.mp hall c hc)).1
  exact decide_eq_true (bne_iff_ne.mp (Bool.and_eq_true_iff.mp hplain).2)

theorem takeWhile_path {path : JsString} (h : isPath path = true) (query : JsString) :
    (path ++ unit '?' :: query).takeWhile (· ≠ unit '?') = path := by
  rw [List.takeWhile_append_of_pos (ne_mark_of_isPath h), List.takeWhile_cons_of_neg (by simp),
    List.append_nil]

theorem dropWhile_path {path : JsString} (h : isPath path = true) (query : JsString) :
    (path ++ unit '?' :: query).dropWhile (· ≠ unit '?') = unit '?' :: query := by
  rw [List.dropWhile_append_of_pos (ne_mark_of_isPath h), List.dropWhile_cons_of_neg (by simp)]

theorem requestTarget_path {path : JsString} (h : isPath path = true) :
    requestTarget path = path := by
  have hdrop : path.dropWhile (· ≠ unit '?') = [] :=
    List.dropWhile_eq_nil_iff.mpr (ne_mark_of_isPath h)
  rw [requestTarget, hdrop]

theorem requestTarget_query {path : JsString} (h : isPath path = true) (query : JsString) :
    requestTarget (path ++ unit '?' :: query) = path ++ unit '?' :: urlQuery query := by
  rw [requestTarget, dropWhile_path h, takeWhile_path h]

section

variable {p : Platform} (hp : ReadsQueries p)
include hp

theorem tokenFromUrl_path {path : JsString} (h : isPath path = true) :
    tokenFromUrl p path = none := by
  rw [tokenFromUrl, hp.withoutQuery path h]

theorem tokenFromUrl_query {path query : JsString} (h : isPath path = true)
    (hquery : isQuery query = true) :
    tokenFromUrl p (path ++ unit '?' :: query) = searchParamsGet query (js "token") := by
  rw [tokenFromUrl, hp.withQuery path query h hquery]

/-- The server finds the token that the page finds. -/
theorem tokenFromUrl_target (page : Page) : tokenFromUrl p page.target = page.token := by
  unfold Page.target Page.token
  cases hquery : page.query with
  | none => exact tokenFromUrl_path hp page.isPath_path
  | some query => exact tokenFromUrl_query hp page.isPath_path (page.isQuery_query query hquery)

/-- **The token of the page is the token of its requests**, but for the empty one, which is
left out. -/
theorem tokenFromUrl_request (page : Page) {path : JsString} (h : isPath path = true) :
    ∃ target, page.request path = some target ∧ (target = path ∨
      ∃ query, target = path ++ unit '?' :: query) ∧
      (page.token ≠ some [] → tokenFromUrl p target = page.token) := by
  unfold Page.request Page.wsQuery
  cases htoken : page.token with
  | none =>
    refine ⟨path, ?_, Or.inl rfl, fun _ => tokenFromUrl_path hp h⟩
    rw [Option.map_some, List.append_nil, requestTarget_path h]
  | some token =>
    cases token with
    | nil =>
      refine ⟨path, ?_, Or.inl rfl, fun hne => absurd rfl hne⟩
      rw [Option.map_some, List.append_nil, requestTarget_path h]
    | cons c token =>
      -- what was read is well-formed, so that nothing is thrown
      have hencoded : encodeURIComponent (c :: token) =
          some (units ((utf8 (c :: token)).flatMap (encodeByte isUnreserved))) :=
        if_pos (toWellFormed_searchParamsGet htoken)
      have hname : encodeURIComponent (js "token") = some (js "token") := by decide
      let value := units ((utf8 (c :: token)).flatMap (encodeByte isUnreserved))
      refine ⟨path ++ unit '?' :: urlQuery (js "token" ++ unit '=' :: value), ?_,
        Or.inr ⟨_, rfl⟩, fun _ => ?_⟩
      · have hmark : path ++ (js "?token=" ++ value) =
            path ++ unit '?' :: (js "token" ++ unit '=' :: value) := rfl
        show ((encodeURIComponent (c :: token)).map (js "?token=" ++ ·)).map _ = _
        rw [hencoded, Option.map_some, Option.map_some, hmark, requestTarget_query h]
      · rw [tokenFromUrl_query hp h (isQuery_urlQuery _), searchParamsGet_urlQuery hname hencoded]

end

/-! ## Who is let in -/

theorem validateToken_of_unset (p : Platform) {required : Option Yaml}
    (h : truthy required = false) (provided : Option JsString) :
    validateToken p required provided = .ok true := by
  cases required with
  | none => rfl
  | some required =>
    unfold validateToken
    exact if_neg (by rw [h]; exact Bool.false_ne_true)

/-- Two requests with one token, unless it is the empty one, which a server that has a token
refuses. -/
theorem checkAuth_congr {p : Platform} {config : Members} {r r' : Request}
    (hsame : providedToken p r ≠ some [] → providedToken p r' = providedToken p r)
    (h : checkAuth p config r = .ok true) : checkAuth p config r' = .ok true := by
  obtain ⟨requireToken, hrequire, h⟩ := bind_eq_ok.mp h
  refine bind_eq_ok.mpr ⟨requireToken, hrequire, ?_⟩
  split at h
  · rename_i hrequired
    rw [if_pos hrequired]
    obtain ⟨accessToken, htoken, h⟩ := bind_eq_ok.mp h
    refine bind_eq_ok.mpr ⟨accessToken, htoken, ?_⟩
    cases accessToken with
    | none => rfl
    | some required =>
      cases hset : truthy (some required) with
      | false => exact validateToken_of_unset p hset _
      | true =>
        obtain ⟨token, hprovided, -⟩ := validateToken_eq_true hset h
        have hne : providedToken p r ≠ some [] := by
          intro hempty
          rw [hempty] at h
          simp only [validateToken, hset, if_true] at h
          cases h
        rw [hsame hne]
        exact h
  · rename_i hrequired
    rw [if_neg hrequired]
    exact h

/-- Where no token is set, every request is let in that finds the configuration whole. -/
theorem checkAuth_of_unset {p : Platform} {config : Members} {r r' : Request}
    (hunset : Unset config) (h : checkAuth p config r = .ok true) :
    checkAuth p config r' = .ok true := by
  obtain ⟨requireToken, hrequire, -⟩ := bind_eq_ok.mp h
  obtain ⟨accessToken, htoken, hfalse⟩ := hunset
  refine bind_eq_ok.mpr ⟨requireToken, hrequire, ?_⟩
  split
  · exact bind_eq_ok.mpr ⟨accessToken, htoken, validateToken_of_unset p hfalse _⟩
  · rfl

/-- Where one is set, a request without one is not. -/
theorem checkAuth_of_set {p : Platform} {toNumber : JsString → Number} {files : Config.Files}
    {env : Config.Env} {config : Members} {r : Request}
    (hload : Config.loadConfig toNumber files env = .ok config) (hset : ¬ Unset config)
    (hnone : providedToken p r = none) : checkAuth p config r = .ok false := by
  obtain ⟨accessToken, htoken, hrequire⟩ := Config.requireToken_of_accessToken hload
  cases htruthy : truthy accessToken with
  | false => exact absurd ⟨accessToken, htoken, htruthy⟩ hset
  | true =>
    refine bind_eq_ok.mpr ⟨some (.bool true), hrequire htruthy, ?_⟩
    rw [if_pos (by rfl)]
    refine bind_eq_ok.mpr ⟨accessToken, htoken, ?_⟩
    cases accessToken with
    | none => cases htruthy
    | some required =>
      simp only [validateToken, htruthy, if_true, hnone]

theorem providedToken_again {p : Platform} {r : Request} {target : JsString}
    (h : tokenFromUrl p target = tokenFromUrl p r.url) :
    providedToken p (again r target) = providedToken p r := by
  simp only [providedToken, again, h]

/-- What the page asks for is let in where the page was. -/
theorem checkAuth_request {p : Platform} (hp : ReadsQueries p) {config : Members} {page : Page}
    {r : Request} (hr : r.url = page.target) (h : checkAuth p config r = .ok true)
    {target : JsString} (htarget : page.token ≠ some [] → tokenFromUrl p target = page.token) :
    checkAuth p config (again r target) = .ok true := by
  have hpage : tokenFromUrl p r.url = page.token := by rw [hr, tokenFromUrl_target hp]
  refine checkAuth_congr (fun hne => providedToken_again ?_) h
  rw [hpage]
  refine htarget fun hempty => hne ?_
  rw [providedToken, hpage, hempty]

/-! ## What is answered -/

/-- A path of the frontend, and one that begins with `/healthz` or `/api/status`. -/
theorem resources_plain : ∀ path ∈ resources, isPath path = true ∧
    (js "/healthz").isPrefixOf path = false ∧ (js "/api/status").isPrefixOf path = false := by
  decide

theorem webSockets_plain : ∀ path ∈ webSockets, isPath path = true := by
  decide

/-- The page's path, with or without a query, is the pathname of the target. -/
theorem pathname_target {path target : JsString} (h : isPath path = true)
    (htarget : target = path ∨ ∃ query, target = path ++ unit '?' :: query) :
    StaticFiles.pathname target = path := by
  rcases htarget with rfl | ⟨query, rfl⟩
  · exact List.takeWhile_eq_self_iff.mpr (ne_mark_of_isPath h)
  · exact takeWhile_path h query

theorem onRequest_status {p : Platform} {s : Server} {r : Request}
    (hurl : r.url = js "/api/status" ∨ ∃ query, r.url = js "/api/status" ++ unit '?' :: query)
    (h : checkAuth p s.config r = .ok true) :
    onRequest p s r = .ok (.status s.handlerStatus s.videoConfig s.useStub) := by
  have hprefixes : (js "/healthz").isPrefixOf r.url = false ∧
      (js "/api/status").isPrefixOf r.url = true := by
    rcases hurl with hurl | ⟨query, hurl⟩
    · rw [hurl]
      decide
    · rw [hurl]
      exact ⟨rfl, rfl⟩
  rw [onRequest, if_neg (by rw [hprefixes.1]; exact Bool.false_ne_true), if_pos hprefixes.2]
  exact bind_eq_ok.mpr ⟨true, h, rfl⟩

theorem onUpgrade_path {p : Platform} {s : Server} {r : Request} {path : JsString}
    (hpath : StaticFiles.pathname r.url = path) (h : checkAuth p s.config r = .ok true) :
    onUpgrade p s r = .ok (.accepted path) := by
  rw [← hpath]
  exact bind_eq_ok.mpr ⟨true, h, rfl⟩

/-- What a page without a token is told. -/
def unauthorizedBody : JsString := js "<h1>Unauthorized</h1><p>Set ?token= or X-Access-Token</p>"

/-- A resource, asked for without a query. -/
theorem onRequest_resource {p : Platform} {s : Server} {r : Request} {path : JsString}
    (hpath : path ∈ resources) {authorized : Bool}
    (h : checkAuth p s.config (again r path) = .ok authorized) :
    onRequest p s (again r path) =
      .ok (if authorized then .static (StaticFiles.serveStatic s.frontendDir s.fs path)
        else .unauthorized unauthorizedBody) := by
  obtain ⟨hplain, hhealthz, hstatus⟩ := resources_plain path hpath
  have hname : StaticFiles.pathname path = path := pathname_target hplain (Or.inl rfl)
  unfold onRequest
  show (if (js "/healthz").isPrefixOf path then _ else if (js "/api/status").isPrefixOf path then _
    else _) = _
  rw [if_neg (by rw [hhealthz]; exact Bool.false_ne_true),
    if_neg (by rw [hstatus]; exact Bool.false_ne_true)]
  refine bind_eq_ok.mpr ⟨authorized, h, ?_⟩
  cases authorized with
  | true =>
    show Except.ok (Response.static (StaticFiles.serveStatic _ _ (StaticFiles.pathname path))) = _
    rw [hname]
    rfl
  | false => rfl

/-- **Whoever has the page has its status and its sockets**, whatever the token of its
address and the header; without a header, its files are answered only where no token is
set. -/
theorem page_requests {p : Platform} (hp : ReadsQueries p) {toNumber : JsString → Number}
    {files : Config.Files} {env : Config.Env} {s : Server}
    (hload : Config.loadConfig toNumber files env = .ok s.config) {page : Page} {r : Request}
    (hr : r.url = page.target) {response : StaticFiles.Response}
    (hpage : onRequest p s r = .ok (.static response)) :
    (∃ target, page.request (js "/api/status") = some target ∧ onRequest p s (again r target) =
        .ok (.status s.handlerStatus s.videoConfig s.useStub)) ∧
      (∀ path ∈ webSockets, ∃ target, page.request path = some target ∧
        onUpgrade p s (again r target) = .ok (.accepted path)) ∧
      (r.accessToken = none → ∀ path ∈ resources,
        (Unset s.config → onRequest p s (again r path) =
          .ok (.static (StaticFiles.serveStatic s.frontendDir s.fs path))) ∧
        (¬ Unset s.config →
          onRequest p s (again r path) = .ok (.unauthorized unauthorizedBody))) := by
  have hauth : checkAuth p s.config r = .ok true := checkAuth_of_onRequest hpage nofun nofun
  refine ⟨?_, ?_, ?_⟩
  · have hstatus : isPath (js "/api/status") = true := by decide
    obtain ⟨target, hrequest, hform, htoken⟩ := tokenFromUrl_request hp page hstatus
    exact ⟨target, hrequest, onRequest_status hform (checkAuth_request hp hr hauth htoken)⟩
  · intro path hpath
    have hplain := webSockets_plain path hpath
    obtain ⟨target, hrequest, hform, htoken⟩ := tokenFromUrl_request hp page hplain
    refine ⟨target, hrequest, onUpgrade_path ?_ (checkAuth_request hp hr hauth htoken)⟩
    exact pathname_target hplain hform
  · intro hheader path hpath
    refine ⟨fun hunset => onRequest_resource hpath (checkAuth_of_unset hunset hauth), ?_⟩
    refine fun hset => onRequest_resource hpath (checkAuth_of_set hload hset ?_)
    show providedToken p (again r path) = none
    rw [providedToken]
    simp only [again, tokenFromUrl_path hp (resources_plain path hpath).1, hheader]

/-- The server's reading of targets that are paths with or without a query. -/
def readingPlatform : Platform where
  searchToken url :=
    .ok (searchParamsGet ((url.dropWhile (· ≠ unit '?')).drop 1) (js "token"))
  wellFormed _ _ h := toWellFormed_searchParamsGet (Except.ok.inj h)
  bufferFromObject _ := .error .typeError

theorem readingPlatform_readsQueries : ReadsQueries readingPlatform where
  withQuery path query hpath _ := by
    show Except.ok (searchParamsGet (((path ++ unit '?' :: query).dropWhile _).drop 1) _) = _
    rw [dropWhile_path hpath]
    rfl
  withoutQuery path hpath := by
    show Except.ok (searchParamsGet ((path.dropWhile _).drop 1) _) = _
    rw [List.dropWhile_eq_nil_iff.mpr (ne_mark_of_isPath hpath)]
    decide

/-- `/?token=a%26b`. -/
def secretPage : Page where
  path := js "/"
  query := some (js "token=a%26b")
  isPath_path := by decide
  isQuery_query q h := by
    rw [← Option.some.inj h]
    decide

/-- The token is `a&b`: the page is sent its status, but not its script. -/
theorem page_requests_secret :
    let env : Config.Env := ⟨none, none, none, some (js "a&b")⟩
    let r : Request := ⟨secretPage.target, none, nofun⟩
    ∃ config, Config.loadConfig (fun _ => .nan) (fun _ => none) env = .ok config ∧
      onRequest readingPlatform (serverWith config) (again r (js "/api/status?token=a%26b")) =
        .ok (.status defaultStatus defaultVideoConfig false) ∧
      onRequest readingPlatform (serverWith config) (again r (js "/app.js")) =
        .ok (.unauthorized unauthorizedBody) := by
  intro env r
  obtain ⟨config, hload, htoken, hpage⟩ : ∃ config,
      Config.loadConfig (fun _ => .nan) (fun _ => none) env = .ok config ∧
      Config.get config "server" "access_token" = .ok (some (.str (js "a&b"))) ∧
      onRequest readingPlatform (serverWith config) r = .ok (.static .notFound) :=
    ⟨_, rfl, rfl, rfl⟩
  have hset : ¬ Unset config := by
    rintro ⟨accessToken, hget, hfalse⟩
    obtain rfl := Except.ok.inj (htoken.symm.trans hget)
    exact absurd hfalse (by decide)
  have hrequest : secretPage.request (js "/api/status") = some (js "/api/status?token=a%26b") := by
    decide
  obtain ⟨⟨target, hstatus, hanswer⟩, -, hresources⟩ :=
    @page_requests _ readingPlatform_readsQueries _ _ _ (serverWith config) hload secretPage r rfl _
      hpage
  obtain rfl := Option.some.inj (hrequest.symm.trans hstatus)
  exact ⟨config, hload, hanswer, (hresources rfl (js "/app.js") (by decide)).2 hset⟩

end Whutfa.PageRequests
