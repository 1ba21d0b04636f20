import Mathlib.Data.List.TakeWhile
import Whutfa.Deframer

/-! # Lines

The framing of text into lines: a `Deframer` whose frames end at a terminator
that is not part of them.  It never refuses a buffer, so a reader of lines can be
cut anywhere (`Lines.feed_lines`).
-/
namespace Lines
variable {α : Type*} [DecidableEq α] (nl : α)

/-- The first line of a buffer. -/
def next (buffer : List α) : Cut α (List α) :=
  match buffer.dropWhile (· ≠ nl) with
  | [] => .more
  | _ :: rest => .frame (buffer.takeWhile (· ≠ nl)) rest

variable {nl}

theorem next_more {buffer : List α} (h : nl ∉ buffer) : next nl buffer = .more := by
  have hnil : buffer.dropWhile (· ≠ nl) = [] := by
    rw [List.dropWhile_eq_nil_iff]
    intro c hc
    simp only [decide_eq_true_eq]
    rintro rfl
    exact h hc
  rw [next, hnil]

theorem next_line {line : List α} (h : nl ∉ line) (rest : List α) :
    next nl (line ++ nl :: rest) = .frame line rest := by
  have hall : ∀ c ∈ line, (decide (c ≠ nl)) = true := by
    intro c hc
    simp only [decide_eq_true_eq]
    rintro rfl
    exact h hc
  have hdrop : (line ++ nl :: rest).dropWhile (· ≠ nl) = nl :: rest := by
    rw [List.dropWhile_append_of_pos hall, List.dropWhile_cons_of_neg (by simp)]
  have htake : (line ++ nl :: rest).takeWhile (· ≠ nl) = line := by
    rw [List.takeWhile_append_of_pos hall, List.takeWhile_cons_of_neg (by simp), List.append_nil]
  rw [next, hdrop, htake]

/-- What a frame says about the buffer. -/
theorem next_frame {b f r : List α} (h : next nl b = .frame f r) :
    b = f ++ nl :: r ∧ nl ∉ f := by
  by_cases hmem : nl ∈ b
  · obtain ⟨line, rest, rfl, hline⟩ := List.eq_append_cons_of_mem hmem
    rw [next_line hline] at h
    obtain ⟨rfl, rfl⟩ := Cut.frame.inj h
    exact ⟨rfl, hline⟩
  · rw [next_more hmem] at h
    cases h

theorem not_mem_of_next_more {b : List α} (h : next nl b = .more) : nl ∉ b := by
  intro hmem
  obtain ⟨line, rest, rfl, hline⟩ := List.eq_append_cons_of_mem hmem
  rw [next_line hline] at h
  cases h

theorem next_ne_reject (b : List α) : next nl b ≠ .reject := by
  intro h
  unfold next at h
  split at h
  · cases h
  · cases h

end Lines

/-- A reader of the lines that end at `nl`. -/
def lineDeframer {α : Type*} [DecidableEq α] (nl : α) : Deframer α (List α) where
  next := Lines.next nl
  next_shorter h := by
    obtain ⟨rfl, -⟩ := Lines.next_frame h
    simp
    omega
  next_append c h := by
    obtain ⟨rfl, hline⟩ := Lines.next_frame h
    rw [List.append_assoc, List.cons_append, Lines.next_line hline]
  reject_append c h := absurd h (Lines.next_ne_reject _)

namespace Lines
variable {α : Type*} [DecidableEq α] {nl : α}

/-- What a buffer and the chunks after it hold together: the lines are read, and what
follows the last of them is kept. -/
theorem feed_eq {buffer part : List α} {lines chunks : List (List α)} (hbuffer : nl ∉ buffer)
    (hlines : ∀ line ∈ lines, nl ∉ line) (hpart : nl ∉ part)
    (hchunks : buffer ++ chunks.flatten = lines.flatMap (· ++ [nl]) ++ part) :
    (lineDeframer nl).feed buffer chunks = (lines, part) := by
  have hdrains : (lineDeframer nl).Drains (lines.flatMap (· ++ [nl]) ++ part) (lines.map id)
      part := by
    apply Deframer.Drains.encoded
    · intro line hline rest
      rw [List.append_assoc, List.singleton_append]
      exact next_line (hlines line hline) rest
    · exact next_more hpart
  rw [List.map_id, ← hchunks] at hdrains
  exact hdrains.feed (next_more hbuffer)

/-- **Lines that were written are read**, one by one and in order, wherever the
stream is cut. -/
theorem feed_lines {lines chunks : List (List α)} (hlines : ∀ line ∈ lines, nl ∉ line)
    (hchunks : chunks.flatten = lines.flatMap (· ++ [nl])) :
    (lineDeframer nl).feed [] chunks = (lines, []) :=
  feed_eq List.not_mem_nil hlines List.not_mem_nil (by rw [List.append_nil]; exact hchunks)

/-! ### Lines behind a beginning -/

omit [DecidableEq α] in
/-- Every text is some lines, and the beginning of one more. -/
theorem exists_lines (nl : α) (t : List α) : ∃ (lines : List (List α)) (part : List α),
    (∀ line ∈ lines, nl ∉ line) ∧ nl ∉ part ∧ t = lines.flatMap (· ++ [nl]) ++ part := by
  induction t with
  | nil => exact ⟨[], [], List.forall_mem_nil _, List.not_mem_nil, rfl⟩
  | cons c t ih =>
    obtain ⟨lines, part, hlines, hpart, rfl⟩ := ih
    by_cases hc : nl = c
    · subst hc
      exact ⟨[] :: lines, part, List.forall_mem_cons.mpr ⟨List.not_mem_nil, hlines⟩, hpart, rfl⟩
    · cases lines with
      | nil => exact ⟨[], c :: part, hlines, by simp [hc, hpart], rfl⟩
      | cons line lines =>
        rw [List.forall_mem_cons] at hlines
        exact ⟨(c :: line) :: lines, part,
          List.forall_mem_cons.mpr ⟨by simp [hc, hlines.1], hlines.2⟩, hpart, rfl⟩

/-- Lines behind a buffer: it is the beginning of the first one. -/
def joined (buffer : List α) : List (List α) → List (List α)
  | [] => []
  | line :: lines => (buffer ++ line) :: lines

/-- What is kept of them and of the part that follows. -/
def leftOver (buffer : List α) (lines : List (List α)) (part : List α) : List α :=
  if lines.isEmpty then buffer ++ part else part

omit [DecidableEq α] in
theorem joined_nil (lines : List (List α)) : joined [] lines = lines := by
  cases lines <;> rfl

omit [DecidableEq α] in
theorem not_mem_leftOver {buffer part : List α} (hbuffer : nl ∉ buffer) (hpart : nl ∉ part)
    (lines : List (List α)) : nl ∉ leftOver buffer lines part := by
  unfold leftOver
  split
  · exact fun hmem => (List.mem_append.mp hmem).elim hbuffer hpart
  · exact hpart

theorem feed_joined {buffer part : List α} {lines chunks : List (List α)} (hbuffer : nl ∉ buffer)
    (hlines : ∀ line ∈ lines, nl ∉ line) (hpart : nl ∉ part)
    (hchunks : chunks.flatten = lines.flatMap (· ++ [nl]) ++ part) :
    (lineDeframer nl).feed buffer chunks = (joined buffer lines, leftOver buffer lines part) := by
  have hleft := not_mem_leftOver hbuffer hpart lines
  cases lines with
  | nil =>
    refine feed_eq hbuffer (List.forall_mem_nil _) hleft ?_
    rw [hchunks]
    rfl
  | cons line lines =>
    rw [List.forall_mem_cons] at hlines
    refine feed_eq hbuffer (List.forall_mem_cons.mpr ⟨?_, hlines.2⟩) hleft ?_
    · exact fun hmem => (List.mem_append.mp hmem).elim hbuffer hlines.1
    · rw [hchunks]
      simp [leftOver, joined]

/-! ### A stream of lines, cut anywhere -/

section

variable {γ : Type*} {f : γ → List α}

/-- Each line ends with one terminator. -/
theorem count_lines (hf : ∀ x, nl ∉ f x) (xs : List γ) :
    (xs.flatMap fun x => f x ++ [nl]).count nl = xs.length := by
  induction xs with
  | nil => rfl
  | cons x xs ih =>
    rw [List.flatMap_cons, List.count_append, List.count_append, ih,
      List.count_eq_zero_of_not_mem (hf x), List.count_singleton_self, List.length_cons]
    omega

/-- **The beginning of a stream of lines** is the lines that end in it, as many as
there are terminators, and the beginning of one more. -/
theorem prefix_lines (hf : ∀ x, nl ∉ f x) {xs : List γ} {t : List α}
    (ht : t <+: xs.flatMap fun x => f x ++ [nl]) :
    ∃ part, nl ∉ part ∧ t = ((xs.take (t.count nl)).flatMap fun x => f x ++ [nl]) ++ part := by
  induction xs generalizing t with
  | nil =>
    rw [List.flatMap_nil, List.prefix_nil] at ht
    subst ht
    exact ⟨[], List.not_mem_nil, rfl⟩
  | cons x xs ih =>
    rw [List.flatMap_cons] at ht
    by_cases hlen : t.length ≤ (f x).length
    · -- the first line has not ended
      have hpre : t <+: f x := by
        have hfx : f x <+: (f x ++ [nl]) ++ xs.flatMap fun x => f x ++ [nl] := by
          rw [List.append_assoc]
          exact List.prefix_append _ _
        exact List.prefix_of_prefix_length_le ht hfx hlen
      have hnl : nl ∉ t := fun hmem => hf x (hpre.subset hmem)
      refine ⟨t, hnl, ?_⟩
      rw [List.count_eq_zero_of_not_mem hnl]
      rfl
    · have hline : f x ++ [nl] <+: t := by
        refine List.prefix_of_prefix_length_le (List.prefix_append _ _) ht ?_
        rw [List.length_append, List.length_singleton]
        omega
      obtain ⟨t', rfl⟩ := hline
      obtain ⟨part, hpart, ht'⟩ := ih ((List.prefix_append_right_inj _).mp ht)
      refine ⟨part, hpart, ?_⟩
      have hcount : (f x ++ [nl] ++ t').count nl = t'.count nl + 1 := by
        rw [List.count_append, List.count_append, List.count_eq_zero_of_not_mem (hf x),
          List.count_singleton_self]
        omega
      rw [hcount, List.take_succ_cons, List.flatMap_cons, List.append_assoc (f x ++ [nl]), ← ht']

end

end Lines
