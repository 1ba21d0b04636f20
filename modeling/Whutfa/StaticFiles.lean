import Whutfa.PosixPath

/-! # The server's static files

`serveStatic` (`server/src/index.ts`), with the pathname that its route takes from the
request-target, on POSIX.  What the file system says about a path is a parameter; there
are no symbolic links.

The pathname is normalised, the `..` that are left at its beginning are stripped, and what
remains is joined to `frontendDir`.  A backslash ends a `..` for the regular expression,
though not for the file system; but whatever has been stripped, no `..` remains, so that
the file lies in `frontendDir` (`served_within`).
-/
namespace Whutfa.StaticFiles

open JsString PosixPath

/-- An absolute path that is normalised. -/
structure Directory where
  path : JsString
  absolute : isAbsolute path = true
  normalized : normalize path = path

/-- What the file system answers. -/
structure FileSystem where
  existsSync : JsString → Bool
  isDirectory : JsString → Bool

/-- What is answered: nothing found, or a file under its content type. -/
inductive Response
  | notFound
  | file (path contentType : JsString)
  deriving DecidableEq

/-- `url.split("?")[0]`. -/
def pathname (url : JsString) : JsString := url.takeWhile (· ≠ unit '?')

/-- `replace(/^(\.\.(\/|\\|$))+/, "")`. -/
def stripParents : JsString → JsString
  | a :: b :: c :: path =>
      if a = unit '.' ∧ b = unit '.' ∧ (c = slash ∨ c = unit '\\') then stripParents path
      else a :: b :: c :: path
  | path => if path = parent then [] else path

/-- The path of the file. -/
def filePath (frontendDir : Directory) (pathname : JsString) : JsString :=
  let file := if pathname = js "/" then js "/index.html" else pathname
  join frontendDir.path (stripParents (normalize file))

/-- `types`. -/
def types : List (JsString × JsString) :=
  [(js ".html", js "text/html"), (js ".js", js "application/javascript"),
   (js ".css", js "text/css")]

/-- The static part of the request handler. -/
def serveStatic (frontendDir : Directory) (fs : FileSystem) (pathname : JsString) : Response :=
  let fp := filePath frontendDir pathname
  if !frontendDir.path.isPrefixOf fp || !fs.existsSync fp || fs.isDirectory fp then .notFound
  else .file fp ((types.lookup (extname fp)).getD (js "application/octet-stream"))

/-! ## What is stripped -/

theorem parent_not_mem_of_first {path : JsString} (h : ParentsFirst (segments path))
    (hpath : path ≠ parent) (hslash : ∀ tail, path ≠ parent ++ slash :: tail) :
    parent ∉ segments path := by
  obtain ⟨first, rest, hsegs⟩ := exists_segments path
  have hfirst : first ≠ parent := by
    rintro rfl
    rcases eq_of_segments hsegs with heq | ⟨tail, heq⟩
    · exact hpath heq
    · exact hslash tail heq
  rw [hsegs] at h ⊢
  intro hmem
  rcases List.mem_cons.mp hmem with heq | hmem
  · exact hfirst heq.symm
  · exact h.not_mem hfirst hmem

/-- No `..` remains. -/
theorem parent_not_mem_stripParents {path : JsString} (h : ParentsFirst (segments path)) :
    parent ∉ segments (stripParents path) := by
  fun_induction stripParents path with
  | case1 a b c path hrun ih =>
    obtain ⟨rfl, rfl, hc⟩ := hrun
    apply ih
    rcases hc with rfl | rfl
    · have hsegs : segments (unit '.' :: unit '.' :: slash :: path) = parent :: segments path :=
        segments_append_slash parent path
      rw [hsegs] at h
      exact h.tail
    · -- the backslash is part of the first segment
      obtain ⟨first, rest, hsegs⟩ := exists_segments path
      have hdots : unit '.' ≠ slash := by decide
      rw [segments_cons hdots (segments_cons hdots (segments_cons (by decide) hsegs))] at h
      rw [hsegs]
      refine ParentsFirst.of_not_mem first (h.not_mem fun heq => ?_)
      exact absurd (congrArg List.length heq) (by simp [parent, js])
  | case2 a b c path hrun =>
    refine parent_not_mem_of_first h ?_ fun tail heq => hrun ?_
    · exact fun heq => absurd (congrArg List.length heq) (by simp [parent, js])
    · obtain ⟨ha, hb, hc, -⟩ : a = unit '.' ∧ b = unit '.' ∧ c = slash ∧ path = tail := by
        simpa [parent, js] using heq
      exact ⟨ha, hb, Or.inl hc⟩
  | case3 hshort => decide
  | case4 path hshort hparent =>
    exact parent_not_mem_of_first h hparent fun tail => hshort _ _ _ tail

theorem serveStatic_eq_file {frontendDir : Directory} {fs : FileSystem}
    {pathname fp contentType : JsString}
    (h : serveStatic frontendDir fs pathname = .file fp contentType) :
    fp = filePath frontendDir pathname ∧ fs.existsSync fp = true ∧ fs.isDirectory fp = false := by
  simp only [serveStatic] at h
  split at h
  · cases h
  · rename_i hfound
    obtain ⟨rfl, -⟩ := Response.file.inj h
    simp only [Bool.or_eq_true, Bool.not_eq_true', not_or] at hfound
    exact ⟨rfl, eq_true_of_ne_false hfound.1.2, Bool.eq_false_iff.mpr hfound.2⟩

/-- Whatever the pathname, the file that is looked for lies in `frontendDir`. -/
theorem filePath_within (frontendDir : Directory) (pathname : JsString) :
    isAbsolute (filePath frontendDir pathname) = true ∧
      locate frontendDir.path <+: locate (filePath frontendDir pathname) := by
  have habs := frontendDir.absolute
  refine ⟨isAbsolute_join habs _, locate_join habs ?_⟩
  exact parent_not_mem_stripParents (parentsFirst_normalize _)

/-- **What is served lies in `frontendDir`**, component by component, for every
request-target. -/
theorem served_within (frontendDir : Directory) (fs : FileSystem) (url : JsString)
    {fp contentType : JsString}
    (h : serveStatic frontendDir fs (pathname url) = .file fp contentType) :
    isAbsolute fp = true ∧ locate frontendDir.path <+: locate fp := by
  obtain ⟨rfl, -, -⟩ := serveStatic_eq_file h
  exact filePath_within frontendDir (pathname url)

/-- A target that tries both kinds of slash. -/
theorem climbing_served :
    let frontendDir : Directory := ⟨js "/srv/frontend", rfl, by decide⟩
    let fs : FileSystem := { existsSync := fun _ => true, isDirectory := fun _ => false }
    serveStatic frontendDir fs (pathname (js "..\\../../app.js?v=1")) =
        .file (js "/srv/frontend/app.js") (js "application/javascript") ∧
      locate (js "/srv/frontend") <+: locate (js "/srv/frontend/app.js") := by
  intro frontendDir fs
  have hserved : serveStatic frontendDir fs (pathname (js "..\\../../app.js?v=1")) =
      .file (js "/srv/frontend/app.js") (js "application/javascript") := by decide
  exact ⟨hserved, (served_within frontendDir fs (js "..\\../../app.js?v=1") hserved).2⟩

end Whutfa.StaticFiles
