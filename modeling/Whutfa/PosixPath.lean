import Mathlib.Data.List.Basic
import Whutfa.JsString

/-! # Paths

Node's `path.posix`, as far as programs that build a path from a request need it:
`normalize`, `join` and `extname`.  A path is split at its slashes; empty segments and `.`
mean nothing, and `..` takes back the segment before it.

`locate` is what a path means to the kernel where there are no symbolic links: the names
that lead to the file from the root, of which `..` is the parent.  Normalising an absolute
path does not change it (`locate_normalize`), and a path without `..` that is joined to
another stays below it (`locate_join`).
-/
namespace PosixPath

open JsString

/-- The separator. -/
def slash : UInt16 := unit '/'

/-- The segment `.`. -/
def here : JsString := js "."

/-- The segment `..`. -/
def parent : JsString := js ".."

/-- What stands between the separators. -/
def segments (path : JsString) : List JsString := path.splitOn slash

/-- The path begins at the root. -/
def isAbsolute (path : JsString) : Bool := path.head? == some slash

/-- The path names a directory. -/
def endsWithSlash (path : JsString) : Bool := path.getLast? == some slash

/-- One more segment, on those that are left of the ones before, the last of them first. -/
def push (allowAboveRoot : Bool) (stack : List JsString) (segment : JsString) :
    List JsString :=
  if segment = [] ∨ segment = here then stack
  else if segment = parent then
    match stack with
    | [] => if allowAboveRoot then [parent] else []
    | top :: below =>
        if top = parent then if allowAboveRoot then parent :: stack else stack else below
  else segment :: stack

/-- `normalizeString`: the segments that are left when dots and double dots are taken out. -/
def resolve (allowAboveRoot : Bool) (path : JsString) : List JsString :=
  ((segments path).foldl (push allowAboveRoot) []).reverse

/-- `path.normalize`. -/
def normalize (path : JsString) : JsString :=
  if path = [] then here
  else
    let resolved := [slash].intercalate (resolve (!isAbsolute path) path)
    if resolved = [] then
      if isAbsolute path then [slash]
      else if endsWithSlash path then here ++ [slash] else here
    else
      let resolved := if endsWithSlash path then resolved ++ [slash] else resolved
      if isAbsolute path then slash :: resolved else resolved

/-- `path.join` of two paths. -/
def join (base path : JsString) : JsString :=
  match base, path with
  | [], [] => here
  | base, [] => normalize base
  | [], path => normalize path
  | base, path => normalize (base ++ slash :: path)

/-- `path.extname`: from the last dot of the last segment, if that does not begin with
it. -/
def extname (path : JsString) : JsString :=
  let base := ((segments path).filter (· ≠ [])).getLast?.getD []
  let stem := (base.reverse.dropWhile (· ≠ unit '.')).reverse.dropLast
  if stem = [] ∨ base = parent then [] else base.drop stem.length

/-- The names that lead to the file that an absolute path means. -/
def locate (path : JsString) : List JsString := resolve false path

/-! ## Segments -/

/-- A segment that is a name of a file. -/
structure IsName (segment : JsString) : Prop where
  ne_nil : segment ≠ []
  ne_here : segment ≠ here
  ne_parent : segment ≠ parent
  noSlash : slash ∉ segment

theorem slash_not_mem_segments {path segment : JsString} (h : segment ∈ segments path) :
    slash ∉ segment := by
  unfold segments at h
  induction path generalizing segment with
  | nil =>
    rw [List.splitOn_nil, List.mem_singleton] at h
    rw [h]
    exact List.not_mem_nil
  | cons c path ih =>
    rw [List.splitOn_cons_eq_if_modifyHead] at h
    split at h
    · rcases List.mem_cons.mp h with rfl | h
      · exact List.not_mem_nil
      · exact ih h
    · rename_i hc
      obtain ⟨first, rest, hsplit⟩ := List.exists_cons_of_ne_nil (List.splitOn_ne_nil slash path)
      rw [hsplit, List.modifyHead_cons] at h
      rw [hsplit] at ih
      rcases List.mem_cons.mp h with rfl | h
      · rintro (_ | ⟨_, hmem⟩)
        · exact hc (beq_self_eq_true _)
        · exact ih List.mem_cons_self hmem
      · exact ih (List.mem_cons_of_mem _ h)

theorem segments_append_slash (base path : JsString) :
    segments (base ++ slash :: path) = segments base ++ segments path :=
  List.splitOn_append_cons_self base path

theorem segments_cons {c : UInt16} (hc : c ≠ slash) {path first : JsString}
    {rest : List JsString} (h : segments path = first :: rest) :
    segments (c :: path) = (c :: first) :: rest := by
  have hcons := List.splitOn_cons_eq_if_modifyHead (a := slash) c path
  rw [if_neg (by simpa using hc)] at hcons
  exact hcons.trans (congrArg (List.modifyHead (List.cons c)) h)

theorem exists_segments (path : JsString) : ∃ first rest, segments path = first :: rest :=
  List.exists_cons_of_ne_nil (List.splitOn_ne_nil slash path)

theorem segments_slash_cons (path : JsString) : segments (slash :: path) = [] :: segments path :=
  segments_append_slash [] path

theorem segments_concat_slash (path : JsString) :
    segments (path ++ [slash]) = segments path ++ [[]] :=
  segments_append_slash path []

/-- A path is its first segment, or goes on after a slash. -/
theorem eq_of_segments {path first : JsString} {rest : List JsString}
    (h : segments path = first :: rest) :
    path = first ∨ ∃ tail, path = first ++ slash :: tail := by
  have hpath : [slash].intercalate (path.splitOn slash) = path := List.intercalate_splitOn slash
  rw [show path.splitOn slash = first :: rest from h] at hpath
  cases rest with
  | nil => exact Or.inl (hpath.symm.trans List.intercalate_singleton)
  | cons second rest =>
    refine Or.inr ⟨[slash].intercalate (second :: rest), ?_⟩
    rw [← hpath, List.intercalate_cons_cons, List.append_assoc, List.singleton_append]

theorem segments_intercalate {names : List JsString} (hslash : ∀ name ∈ names, slash ∉ name)
    (hne : names ≠ []) : segments ([slash].intercalate names) = names :=
  List.splitOn_intercalate slash hslash hne

/-! ## Resolving -/

theorem push_nothing {segment : JsString} (h : segment = [] ∨ segment = here)
    (allowAboveRoot : Bool) (stack : List JsString) :
    push allowAboveRoot stack segment = stack := if_pos h

theorem push_name {segment : JsString} (h : ¬ (segment = [] ∨ segment = here))
    (hparent : segment ≠ parent) (allowAboveRoot : Bool) (stack : List JsString) :
    push allowAboveRoot stack segment = segment :: stack :=
  (if_neg h).trans (if_neg hparent)

/-- Segments without `..` are added, those that mean nothing apart. -/
theorem foldl_push {segs : List JsString} (h : parent ∉ segs) (allowAboveRoot : Bool)
    (stack : List JsString) :
    segs.foldl (push allowAboveRoot) stack =
      (segs.filter fun seg => seg ≠ [] ∧ seg ≠ here).reverse ++ stack := by
  induction segs generalizing stack with
  | nil => rfl
  | cons seg segs ih =>
    rw [List.foldl_cons, ih (fun hmem => h (List.mem_cons_of_mem _ hmem))]
    by_cases hseg : seg = [] ∨ seg = here
    · rw [push_nothing hseg, List.filter_cons_of_neg (by simpa using hseg.resolve_left)]
    · have hparent : seg ≠ parent := fun heq => h (heq ▸ List.mem_cons_self)
      rw [push_name hseg hparent, List.filter_cons_of_pos (by simpa using not_or.mp hseg),
        List.reverse_cons, List.append_assoc, List.singleton_append]

theorem filter_names {names : List JsString} (h : ∀ name ∈ names, IsName name) :
    (names.filter fun seg => seg ≠ [] ∧ seg ≠ here) = names :=
  List.filter_eq_self.mpr fun name hname => by
    simpa using And.intro (h name hname).ne_nil (h name hname).ne_here

/-- What is left of a path's segments, the last first: names after leading `..`, and these
only if allowed. -/
def Resolved (allowAboveRoot : Bool) (stack : List JsString) : Prop :=
  ∃ names above, stack = names ++ List.replicate above parent ∧ (∀ name ∈ names, IsName name) ∧
    (allowAboveRoot = false → above = 0)

theorem Resolved.push {allowAboveRoot : Bool} {stack : List JsString} {segment : JsString}
    (h : Resolved allowAboveRoot stack) (hslash : slash ∉ segment) :
    Resolved allowAboveRoot (push allowAboveRoot stack segment) := by
  obtain ⟨names, above, rfl, hnames, habove⟩ := h
  by_cases hnothing : segment = [] ∨ segment = here
  · rw [push_nothing hnothing]
    exact ⟨names, above, rfl, hnames, habove⟩
  · by_cases hparent : segment = parent
    · unfold PosixPath.push
      rw [if_neg hnothing, if_pos hparent]
      cases names with
      | nil =>
        -- only `..` is left
        cases allowAboveRoot with
        | false =>
          obtain rfl := habove rfl
          exact ⟨[], 0, rfl, nofun, fun _ => rfl⟩
        | true =>
          refine ⟨[], above + 1, ?_, nofun, nofun⟩
          cases above with
          | zero => rfl
          | succ above => rfl
      | cons name names =>
        refine ⟨names, above, ?_, fun n hn => hnames n (List.mem_cons_of_mem _ hn), habove⟩
        exact if_neg (hnames name List.mem_cons_self).ne_parent
    · rw [push_name hnothing hparent]
      refine ⟨segment :: names, above, rfl, fun n hn => ?_, habove⟩
      rcases List.mem_cons.mp hn with rfl | hn
      · exact ⟨(not_or.mp hnothing).1, (not_or.mp hnothing).2, hparent, hslash⟩
      · exact hnames n hn

theorem resolved_foldl {allowAboveRoot : Bool} {segs stack : List JsString}
    (h : Resolved allowAboveRoot stack) (hslash : ∀ seg ∈ segs, slash ∉ seg) :
    Resolved allowAboveRoot (segs.foldl (PosixPath.push allowAboveRoot) stack) := by
  induction segs generalizing stack with
  | nil => exact h
  | cons seg segs ih =>
    exact ih (h.push (hslash seg List.mem_cons_self))
      fun s hs => hslash s (List.mem_cons_of_mem _ hs)

/-- A resolved path is leading `..` and then names; an absolute one is names. -/
theorem resolve_eq (allowAboveRoot : Bool) (path : JsString) :
    ∃ names above, resolve allowAboveRoot path = List.replicate above parent ++ names ∧
      (∀ name ∈ names, IsName name) ∧ (allowAboveRoot = false → above = 0) := by
  have hempty : Resolved allowAboveRoot [] := ⟨[], 0, rfl, nofun, fun _ => rfl⟩
  have hslash : ∀ seg ∈ segments path, slash ∉ seg := fun _ => slash_not_mem_segments
  obtain ⟨names, above, heq, hnames, habove⟩ := resolved_foldl hempty hslash
  refine ⟨names.reverse, above, ?_, fun name hname => hnames name (List.mem_reverse.mp hname),
    habove⟩
  rw [resolve, heq, List.reverse_append, List.reverse_replicate]

theorem locate_isName {path name : JsString} (h : name ∈ locate path) : IsName name := by
  obtain ⟨names, above, heq, hnames, habove⟩ := resolve_eq false path
  rw [locate, heq, habove rfl] at h
  exact hnames name h

/-! ## Normalising -/

theorem intercalate_ne_nil {names : List JsString} (hne_nil : ∀ name ∈ names, name ≠ [])
    (hslash : ∀ name ∈ names, slash ∉ name) (hne : names ≠ []) :
    [slash].intercalate names ≠ [] := by
  intro heq
  have hsegments := segments_intercalate hslash hne
  rw [heq] at hsegments
  exact hne_nil [] (hsegments ▸ List.mem_singleton_self _) rfl

theorem mem_resolve {allowAboveRoot : Bool} {path segment : JsString}
    (h : segment ∈ resolve allowAboveRoot path) : segment ≠ [] ∧ slash ∉ segment := by
  obtain ⟨names, above, heq, hnames, -⟩ := resolve_eq allowAboveRoot path
  rw [heq] at h
  rcases List.mem_append.mp h with h | h
  · rw [List.eq_of_mem_replicate h]
    exact ⟨by decide, by decide⟩
  · exact ⟨(hnames segment h).ne_nil, (hnames segment h).noSlash⟩

/-- A normalised path is what has been resolved, between segments that mean nothing. -/
theorem segments_normalize (path : JsString) :
    ∃ lead tail, segments (normalize path) = lead ++ resolve (!isAbsolute path) path ++ tail ∧
      (∀ seg ∈ lead ++ tail, seg = [] ∨ seg = here) ∧ (isAbsolute path = false → lead = []) := by
  have hhere : ∀ seg ∈ [] ++ [here], seg = [] ∨ seg = here := fun seg hseg =>
    Or.inr (List.mem_singleton.mp hseg)
  unfold normalize
  by_cases hnil : path = []
  · subst hnil
    exact ⟨[], [here], rfl, hhere, fun _ => rfl⟩
  · rw [if_neg hnil]
    have hmem : ∀ seg ∈ resolve (!isAbsolute path) path, seg ≠ [] ∧ slash ∉ seg := fun _ =>
      mem_resolve
    generalize resolve (!isAbsolute path) path = resolved at hmem
    by_cases hresolved : resolved = []
    · subst hresolved
      rw [List.intercalate_nil, if_pos rfl]
      by_cases habs : isAbsolute path = true
      · rw [if_pos habs]
        exact ⟨[[]], [[]], rfl, by simp, fun h => absurd (habs.symm.trans h) nofun⟩
      · rw [if_neg habs]
        by_cases hends : endsWithSlash path = true
        · rw [if_pos hends]
          exact ⟨[], [here, []], rfl, by simp, fun _ => rfl⟩
        · rw [if_neg hends]
          exact ⟨[], [here], rfl, hhere, fun _ => rfl⟩
    · rw [if_neg (intercalate_ne_nil (fun seg h => (hmem seg h).1) (fun seg h => (hmem seg h).2)
        hresolved)]
      obtain ⟨tail, htail, hsegs⟩ : ∃ tail : List JsString, (∀ seg ∈ tail, seg = []) ∧
          segments (if endsWithSlash path then [slash].intercalate resolved ++ [slash]
            else [slash].intercalate resolved) = resolved ++ tail := by
        have hinter := segments_intercalate (fun seg h => (hmem seg h).2) hresolved
        by_cases hends : endsWithSlash path = true
        · refine ⟨[[]], fun _ => List.mem_singleton.mp, ?_⟩
          rw [if_pos hends, segments_concat_slash, hinter]
        · exact ⟨[], nofun, by rw [if_neg hends, hinter, List.append_nil]⟩
      by_cases habs : isAbsolute path = true
      · refine ⟨[[]], tail, ?_, fun seg hseg => ?_, fun h => absurd (habs.symm.trans h) nofun⟩
        · rw [if_pos habs, segments_slash_cons, hsegs]
          rfl
        · rcases List.mem_cons.mp hseg with rfl | hseg
          · exact Or.inl rfl
          · exact Or.inl (htail seg hseg)
      · refine ⟨[], tail, ?_, fun seg hseg => Or.inl (htail seg hseg), fun _ => rfl⟩
        rw [if_neg habs, hsegs]
        rfl

/-- Nothing but the beginning of a normalised path goes up. -/
def ParentsFirst (segs : List JsString) : Prop :=
  ∃ above rest, segs = List.replicate above parent ++ rest ∧ parent ∉ rest

theorem parent_not_mem {segs : List JsString} (h : ∀ seg ∈ segs, seg = [] ∨ seg = here) :
    parent ∉ segs := by
  intro hmem
  rcases h parent hmem with heq | heq
  · exact absurd heq (by decide)
  · exact absurd heq (by decide)

/-- Behind another segment there is none that goes up. -/
theorem ParentsFirst.not_mem {first : JsString} {rest : List JsString}
    (h : ParentsFirst (first :: rest)) (hfirst : first ≠ parent) : parent ∉ rest := by
  obtain ⟨above, names, heq, hparent⟩ := h
  cases above with
  | zero =>
    obtain rfl : first :: rest = names := heq
    exact fun hmem => hparent (List.mem_cons_of_mem _ hmem)
  | succ above => exact absurd (List.cons.inj heq).1 hfirst

theorem ParentsFirst.tail {rest : List JsString} (h : ParentsFirst (parent :: rest)) :
    ParentsFirst rest := by
  obtain ⟨above, names, heq, hparent⟩ := h
  cases above with
  | zero =>
    obtain rfl : parent :: rest = names := heq
    exact absurd List.mem_cons_self hparent
  | succ above => exact ⟨above, names, (List.cons.inj heq).2, hparent⟩

theorem ParentsFirst.of_not_mem (first : JsString) {rest : List JsString} (h : parent ∉ rest) :
    ParentsFirst (first :: rest) := by
  by_cases hfirst : first = parent
  · exact ⟨1, rest, by rw [hfirst]; rfl, h⟩
  · refine ⟨0, first :: rest, rfl, fun hmem => ?_⟩
    rcases List.mem_cons.mp hmem with heq | hmem
    · exact hfirst heq.symm
    · exact h hmem

theorem parentsFirst_normalize (path : JsString) : ParentsFirst (segments (normalize path)) := by
  obtain ⟨lead, tail, hsegs, hnothing, hlead⟩ := segments_normalize path
  obtain ⟨names, above, heq, hnames, habove⟩ := resolve_eq (!isAbsolute path) path
  have hparent : parent ∉ names := fun hmem => (hnames parent hmem).ne_parent rfl
  have hmean := parent_not_mem hnothing
  rw [List.mem_append, not_or] at hmean
  rw [hsegs, heq]
  by_cases habs : isAbsolute path = true
  · rw [habove (by rw [habs]; rfl)]
    refine ⟨0, lead ++ names ++ tail, rfl, ?_⟩
    simp only [List.mem_append, not_or]
    exact ⟨⟨hmean.1, hparent⟩, hmean.2⟩
  · rw [hlead (Bool.eq_false_iff.mpr habs)]
    refine ⟨above, names ++ tail, by simp, ?_⟩
    simp only [List.mem_append, not_or]
    exact ⟨hparent, hmean.2⟩

theorem isAbsolute_normalize {path : JsString} (h : isAbsolute path = true) :
    isAbsolute (normalize path) = true := by
  have hnil : path ≠ [] := by
    rintro rfl
    exact absurd h nofun
  simp only [normalize, if_neg hnil, h, if_true]
  by_cases hresolved : [slash].intercalate (resolve (!true) path) = []
  · rw [if_pos hresolved]
    rfl
  · rw [if_neg hresolved]
    rfl

/-- **Normalising keeps what an absolute path means.** -/
theorem locate_normalize {path : JsString} (habs : isAbsolute path = true) :
    locate (normalize path) = locate path := by
  obtain ⟨lead, tail, hsegs, hnothing, -⟩ := segments_normalize path
  have hnames : ∀ name ∈ locate path, IsName name := fun _ => locate_isName
  have hparent : parent ∉ lead ++ locate path ++ tail := by
    have hmean := parent_not_mem hnothing
    simp only [List.mem_append, not_or] at hmean ⊢
    exact ⟨⟨hmean.1, fun hmem => (hnames parent hmem).ne_parent rfl⟩, hmean.2⟩
  have hfilter : ∀ {segs : List JsString}, (∀ seg ∈ segs, seg ∈ lead ++ tail) →
      (segs.filter fun seg => seg ≠ [] ∧ seg ≠ here) = [] := fun hsub =>
    List.filter_eq_nil_iff.mpr fun seg hseg => by
      simpa using (hnothing seg (hsub seg hseg)).resolve_left
  rw [habs] at hsegs
  have hlocate : segments (normalize path) = lead ++ locate path ++ tail := hsegs
  rw [locate, resolve, hlocate, foldl_push hparent, List.append_nil, List.reverse_reverse,
    List.filter_append, List.filter_append, filter_names hnames,
    hfilter fun seg hseg => List.mem_append_left _ hseg,
    hfilter fun seg hseg => List.mem_append_right _ hseg, List.nil_append, List.append_nil]

/-! ## Joining -/

theorem isAbsolute_join {base : JsString} (h : isAbsolute base = true) (path : JsString) :
    isAbsolute (join base path) = true := by
  cases base with
  | nil => exact absurd h nofun
  | cons c base =>
    cases path with
    | nil => exact isAbsolute_normalize h
    | cons d path =>
      have hjoined : isAbsolute (c :: base ++ slash :: d :: path) = true := h
      exact isAbsolute_normalize hjoined

/-- **What is joined without `..` stays below.** -/
theorem locate_join {base path : JsString} (habs : isAbsolute base = true)
    (hparent : parent ∉ segments path) : locate base <+: locate (join base path) := by
  obtain ⟨c, base, rfl⟩ : ∃ c rest, base = c :: rest := by
    cases base with
    | nil => exact absurd habs nofun
    | cons c base => exact ⟨c, base, rfl⟩
  cases path with
  | nil =>
    show locate (c :: base) <+: locate (normalize (c :: base))
    exact ⟨[], by rw [List.append_nil, locate_normalize habs]⟩
  | cons d path =>
    have hjoined : isAbsolute ((c :: base) ++ slash :: (d :: path)) = true := habs
    show locate (c :: base) <+: locate (normalize ((c :: base) ++ slash :: (d :: path)))
    rw [locate_normalize hjoined]
    refine ⟨(segments (d :: path)).filter fun seg => seg ≠ [] ∧ seg ≠ here, ?_⟩
    rw [locate, locate, resolve, resolve, segments_append_slash, List.foldl_append,
      foldl_push hparent, List.reverse_append, List.reverse_reverse]

end PosixPath
