import Mathlib.Data.List.Basic

/-! # Incremental framing

A byte stream carries frames, and a reader sees the stream in chunks whose ends
have nothing to do with the frames' ends.  A `Deframer` is the rule such a reader
applies to the symbols it has buffered: the buffer may hold no complete frame yet,
or begin with one, or be refused.  Its two laws say that the rule never changes
its mind when more symbols arrive.

A reader `push`es each chunk: it appends the chunk to its buffer and takes frames
off the front until the rule asks for more.  `Drains b fs b'` is the run of that
loop that meets no refusal; `Drains.feed` says that, on such a stream, what is
delivered does not depend on where the stream was cut.
-/

/-- What a framing rule says of the symbols buffered so far. -/
inductive Cut (α β : Type*)
  /-- No complete frame yet. -/
  | more
  /-- The buffer begins with the frame `f`, and `rest` follows it. -/
  | frame (f : β) (rest : List α)
  /-- The buffer is refused. -/
  | reject

/-- A framing rule over symbols `α`, delivering frames `β`. -/
structure Deframer (α β : Type*) where
  /-- The rule. -/
  next : List α → Cut α β
  /-- A frame takes at least one symbol off the buffer. -/
  next_shorter : ∀ {b f r}, next b = .frame f r → r.length < b.length
  /-- A frame is recognised whatever follows it. -/
  next_append : ∀ {b f r} c, next b = .frame f r → next (b ++ c) = .frame f (r ++ c)
  /-- A refusal stands whatever follows. -/
  reject_append : ∀ {b} c, next b = .reject → next (b ++ c) = .reject

namespace Deframer
variable {α β : Type*} (D : Deframer α β)

/-- Take at most `fuel` frames off `b`; a refusal empties the buffer. -/
def drainAux : Nat → List α → List β × List α
  | 0, b => ([], b)
  | fuel + 1, b =>
      match D.next b with
      | .more => ([], b)
      | .reject => ([], [])
      | .frame f r => (f :: (drainAux fuel r).1, (drainAux fuel r).2)

/-- Take every complete frame off `b`: the frames, and the buffer left over.  A
frame takes at least one symbol, so the length of `b` bounds the loop. -/
def drain (b : List α) : List β × List α := D.drainAux b.length b

/-- Receive one chunk. -/
def push (b chunk : List α) : List β × List α := D.drain (b ++ chunk)

/-- Receive a list of chunks, one after the other. -/
def feed : List α → List (List α) → List β × List α
  | b, [] => ([], b)
  | b, c :: cs => ((D.push b c).1 ++ (feed (D.push b c).2 cs).1, (feed (D.push b c).2 cs).2)

/-- `Drains b fs b'`: taking frames off `b` gives `fs`, meets no refusal, and
stops at `b'`. -/
inductive Drains : List α → List β → List α → Prop
  | stop {b} (h : D.next b = .more) : Drains b [] b
  | take {b f r fs b'} (h : D.next b = .frame f r) (hr : Drains r fs b') :
      Drains b (f :: fs) b'

variable {D}

theorem drainAux_nil (fuel : Nat) : D.drainAux fuel [] = ([], []) := by
  cases fuel with
  | zero => rfl
  | succ fuel =>
    cases hn : D.next [] with
    | more => simp [drainAux, hn]
    | reject => simp [drainAux, hn]
    | frame f r => exact absurd (D.next_shorter hn) (Nat.not_lt_zero _)

/-- Any fuel that covers the buffer's length gives the same result. -/
theorem drainAux_congr {m n : Nat} {b : List α} (hm : b.length ≤ m) (hn : b.length ≤ n) :
    D.drainAux m b = D.drainAux n b := by
  induction m generalizing n b with
  | zero =>
    rw [List.length_eq_zero_iff.mp (Nat.le_zero.mp hm), drainAux_nil, drainAux_nil]
  | succ m ih =>
    cases n with
    | zero =>
      rw [List.length_eq_zero_iff.mp (Nat.le_zero.mp hn), drainAux_nil, drainAux_nil]
    | succ n =>
      cases hb : D.next b with
      | more => simp [drainAux, hb]
      | reject => simp [drainAux, hb]
      | frame f r =>
        have hr := D.next_shorter hb
        have heq : D.drainAux m r = D.drainAux n r := ih (by omega) (by omega)
        simp [drainAux, hb, heq]

theorem drain_more {b : List α} (h : D.next b = .more) : D.drain b = ([], b) := by
  cases b with
  | nil => exact drainAux_nil _
  | cons a b => simp [drain, drainAux, h]

theorem drain_reject {b : List α} (h : D.next b = .reject) : D.drain b = ([], []) := by
  cases b with
  | nil => exact drainAux_nil _
  | cons a b => simp [drain, drainAux, h]

theorem drain_frame {b r : List α} {f : β} (h : D.next b = .frame f r) :
    D.drain b = (f :: (D.drain r).1, (D.drain r).2) := by
  have hr := D.next_shorter h
  cases b with
  | nil => exact absurd hr (Nat.not_lt_zero _)
  | cons a b =>
    have heq : D.drainAux b.length r = D.drain r :=
      drainAux_congr (Nat.le_of_lt_succ hr) (Nat.le_refl _)
    simp only [drain, List.length_cons, drainAux, h]
    rw [heq, drain]

/-- The loop stops only where the rule asks for more, or at the empty buffer. -/
theorem drain_idle (D : Deframer α β) (b : List α) :
    D.next (D.drain b).2 = .more ∨ (D.drain b).2 = [] := by
  induction hn : b.length using Nat.strongRecOn generalizing b with
  | ind n ih =>
    cases hb : D.next b with
    | more => rw [drain_more hb]; exact Or.inl hb
    | reject => rw [drain_reject hb]; exact Or.inr rfl
    | frame f r =>
      rw [drain_frame hb]
      exact ih r.length (hn ▸ D.next_shorter hb) r rfl

/-- Between chunks a reader's buffer never begins with a complete frame. -/
theorem feed_idle (hnil : D.next [] = .more) {b : List α} (hb : D.next b = .more)
    (cs : List (List α)) : D.next (D.feed b cs).2 = .more := by
  induction cs generalizing b with
  | nil => exact hb
  | cons c cs ih =>
    refine ih ?_
    rcases D.drain_idle (b ++ c) with h | h
    · exact h
    · rw [push, h]; exact hnil

/-! ### Streams without a refusal -/

namespace Drains

theorem drain_eq {b b' : List α} {fs : List β} (h : D.Drains b fs b') :
    D.drain b = (fs, b') := by
  induction h with
  | stop h => exact drain_more h
  | take h _ ih => rw [drain_frame h, ih]

theorem idle {b b' : List α} {fs : List β} (h : D.Drains b fs b') : D.next b' = .more := by
  induction h with
  | stop h => exact h
  | take _ _ ih => exact ih

/-- **Cutting a stream.**  Draining `b` first and then what is left together with
`c` delivers the frames of `b ++ c`. -/
theorem split {b c b'' : List α} {fs : List β} (h : D.Drains (b ++ c) fs b'') :
    ∃ fs₁ b' fs₂, D.Drains b fs₁ b' ∧ D.Drains (b' ++ c) fs₂ b'' ∧ fs = fs₁ ++ fs₂ := by
  induction hn : b.length using Nat.strongRecOn generalizing b fs with
  | ind n ih =>
    cases hb : D.next b with
    | more => exact ⟨[], b, fs, .stop hb, h, rfl⟩
    | reject =>
      have hbc := D.reject_append c hb
      cases h with
      | stop h => rw [hbc] at h; cases h
      | take h _ => rw [hbc] at h; cases h
    | frame f r =>
      have hbc := D.next_append c hb
      cases h with
      | stop h => rw [hbc] at h; cases h
      | take h hr =>
        rw [hbc] at h
        obtain ⟨rfl, rfl⟩ := Cut.frame.inj h
        obtain ⟨fs₁, b', fs₂, h₁, h₂, rfl⟩ := ih r.length (hn ▸ D.next_shorter hb) hr rfl
        exact ⟨f :: fs₁, b', fs₂, .take hb h₁, h₂, rfl⟩

/-- **The chunks do not matter.**  On a stream without a refusal a reader delivers
the frames of the whole stream, wherever it was cut. -/
theorem feed {b b' : List α} {fs : List β} {cs : List (List α)} (hb : D.next b = .more)
    (h : D.Drains (b ++ cs.flatten) fs b') : D.feed b cs = (fs, b') := by
  induction cs generalizing b fs with
  | nil =>
    rw [List.flatten_nil, List.append_nil] at h
    have heq := h.drain_eq
    rw [drain_more hb] at heq
    exact heq
  | cons c cs ih =>
    rw [List.flatten_cons, ← List.append_assoc] at h
    obtain ⟨fs₁, b₁, fs₂, h₁, h₂, rfl⟩ := h.split
    have hpush : D.push b c = (fs₁, b₁) := h₁.drain_eq
    simp only [Deframer.feed, hpush, ih h₁.idle h₂]

/-- **Reading back an encoded list.**  If the rule recognises the encoding of each
frame of a list, whatever follows it, then it takes the list off the concatenated
encodings. -/
theorem encoded {γ : Type*} {enc : γ → List α} {dec : γ → β} {xs : List γ} {tail : List α}
    (henc : ∀ x ∈ xs, ∀ r, D.next (enc x ++ r) = .frame (dec x) r)
    (htail : D.next tail = .more) : D.Drains (xs.flatMap enc ++ tail) (xs.map dec) tail := by
  induction xs with
  | nil => exact .stop htail
  | cons x xs ih =>
    rw [List.flatMap_cons, List.append_assoc]
    exact .take (henc x (List.mem_cons_self ..) _)
      (ih fun y hy => henc y (List.mem_cons_of_mem x hy))

/-- **Reading the beginning of an encoded list.**  What is read of the concatenated
encodings drains to the first of the frames, and what is left over together with what is
unread is the encodings of the others. -/
theorem encoded_prefix {γ : Type*} {enc : γ → List α} {dec : γ → β} {xs : List γ}
    {b unread : List α} (henc : ∀ x ∈ xs, ∀ r, D.next (enc x ++ r) = .frame (dec x) r)
    (hnil : D.next [] = .more) (h : b ++ unread = xs.flatMap enc) :
    ∃ k rest, D.Drains b ((xs.take k).map dec) rest ∧
      rest ++ unread = (xs.drop k).flatMap enc := by
  induction xs generalizing b with
  | nil =>
    obtain ⟨rfl, rfl⟩ := List.append_eq_nil_iff.mp h
    exact ⟨0, [], .stop hnil, rfl⟩
  | cons x xs ih =>
    have hwhole := henc x (List.mem_cons_self ..) (xs.flatMap enc)
    rw [List.flatMap_cons] at h
    rw [← h] at hwhole
    cases hb : D.next b with
    | more => exact ⟨0, b, .stop hb, h⟩
    | reject => cases (D.reject_append unread hb).symm.trans hwhole
    | frame f r =>
      obtain ⟨rfl, hr⟩ := Cut.frame.inj ((D.next_append unread hb).symm.trans hwhole)
      obtain ⟨k, rest, hdrains, hrest⟩ := ih (fun y hy => henc y (List.mem_cons_of_mem x hy)) hr
      exact ⟨k + 1, rest, .take hb hdrains, hrest⟩

end Drains

/-! ### The turns of the loop -/

/-- The loop as it runs, with no bound of its own: what it has delivered and left over
if it ends within `fuel` turns. -/
def loop (D : Deframer α β) : Nat → List α → Option (List β × List α)
  | 0, _ => none
  | fuel + 1, b =>
      match D.next b with
      | .more => some ([], b)
      | .reject => some ([], [])
      | .frame f r => (loop D fuel r).map fun p => (f :: p.1, p.2)

/-- **The loop ends**, after a turn for each symbol at most and one more. -/
theorem loop_eq_drain {fuel : Nat} {b : List α} (h : b.length < fuel) :
    D.loop fuel b = some (D.drain b) := by
  induction fuel generalizing b with
  | zero => exact absurd h (Nat.not_lt_zero _)
  | succ fuel ih =>
    cases hb : D.next b with
    | more => simp [loop, hb, drain_more hb]
    | reject => simp [loop, hb, drain_reject hb]
    | frame f r =>
      have hr := D.next_shorter hb
      simp [loop, hb, drain_frame hb, ih (show r.length < fuel by omega)]

/-! ### Streams with a refusal

A refusal empties the buffer, and the reader goes on with the next chunk as if a frame
began there. -/

/-- `Reads b fs m`: the frames `fs` are taken off `b`, one after the other, and leave `m`. -/
inductive Reads (D : Deframer α β) : List α → List β → List α → Prop
  | refl (b) : Reads D b [] b
  | take {b f r fs m} (h : D.next b = .frame f r) (hr : Reads D r fs m) : Reads D b (f :: fs) m

/-- No part of the stream that runs to its end begins with a complete frame. -/
def Barren (D : Deframer α β) (b : List α) : Prop :=
  ∀ front rest, b = front ++ rest → ∀ f r, D.next rest ≠ .frame f r

/-- Behind the first refusal, there is no frame to be found in the stream. -/
def BarrenAfterRefusal (D : Deframer α β) (b : List α) : Prop :=
  ∀ fs front rest, D.Reads b fs (front ++ rest) → D.next front = .reject → D.Barren rest

namespace Reads

theorem trans {b m n : List α} {fs gs : List β} (h : D.Reads b fs m) (h' : D.Reads m gs n) :
    D.Reads b (fs ++ gs) n := by
  induction h with
  | refl => exact h'
  | take h _ ih => exact .take h (ih h')

theorem append {b m : List α} {fs : List β} (h : D.Reads b fs m) (c : List α) :
    D.Reads (b ++ c) fs (m ++ c) := by
  induction h with
  | refl => exact .refl _
  | take h _ ih => exact .take (D.next_append c h) ih

theorem drain_eq {b m : List α} {fs : List β} (h : D.Reads b fs m) :
    D.drain b = (fs ++ (D.drain m).1, (D.drain m).2) := by
  induction h with
  | refl => rfl
  | take h _ ih => rw [drain_frame h, ih]; rfl

/-- The reading stops where the rule asks for more or refuses. -/
theorem exists_stop (D : Deframer α β) (b : List α) :
    ∃ fs m, D.Reads b fs m ∧ (D.next m = .more ∨ D.next m = .reject) := by
  induction hn : b.length using Nat.strongRecOn generalizing b with
  | ind n ih =>
    cases hb : D.next b with
    | more => exact ⟨[], b, .refl b, Or.inl hb⟩
    | reject => exact ⟨[], b, .refl b, Or.inr hb⟩
    | frame f r =>
      obtain ⟨fs, m, hreads, hstop⟩ := ih r.length (hn ▸ D.next_shorter hb) r rfl
      exact ⟨f :: fs, m, .take hb hreads, hstop⟩

end Reads

theorem Barren.suffix {front rest : List α} (h : D.Barren (front ++ rest)) : D.Barren rest :=
  fun front' rest' heq => h (front ++ front') rest' (by rw [heq, List.append_assoc])

theorem BarrenAfterRefusal.reads {b m : List α} {fs : List β} (h : D.BarrenAfterRefusal b)
    (hreads : D.Reads b fs m) : D.BarrenAfterRefusal m :=
  fun gs front rest hm => h (fs ++ gs) front rest (hreads.trans hm)

/-- A reader delivers nothing from a barren stream. -/
theorem feed_barren {b : List α} {cs : List (List α)} (h : D.Barren (b ++ cs.flatten)) :
    (D.feed b cs).1 = [] := by
  induction cs generalizing b with
  | nil => rfl
  | cons c cs ih =>
    rw [List.flatten_cons, ← List.append_assoc] at h
    have hpush : (D.push b c).1 = [] ∧ D.Barren ((D.push b c).2 ++ cs.flatten) := by
      cases hb : D.next (b ++ c) with
      | more =>
        rw [push, drain_more hb]
        exact ⟨rfl, h⟩
      | reject =>
        rw [push, drain_reject hb]
        exact ⟨rfl, h.suffix⟩
      | frame f r => exact absurd (D.next_append cs.flatten hb) (h [] _ rfl _ _)
    rw [feed, hpush.1, ih hpush.2]
    rfl

/-- On a stream with nothing behind its first refusal a reader delivers the frames before
it, wherever the stream was cut. -/
theorem feed_eq_drain {b : List α} {cs : List (List α)} (hb : D.next b = .more)
    (h : D.BarrenAfterRefusal (b ++ cs.flatten)) :
    (D.feed b cs).1 = (D.drain (b ++ cs.flatten)).1 := by
  induction cs generalizing b with
  | nil => rw [List.flatten_nil, List.append_nil, drain_more hb]; rfl
  | cons c cs ih =>
    rw [List.flatten_cons, ← List.append_assoc] at h ⊢
    obtain ⟨fs, m, hreads, hmore | hreject⟩ := Reads.exists_stop D (b ++ c)
    · have hwhole := hreads.append cs.flatten
      rw [feed, push, hreads.drain_eq, drain_more hmore, hwhole.drain_eq, List.append_nil,
        ih hmore (h.reads hwhole)]
    · have hwhole := hreads.append cs.flatten
      have hrest : D.Barren ([] ++ cs.flatten) := h fs m cs.flatten hwhole hreject
      rw [feed, push, hreads.drain_eq, drain_reject hreject, hwhole.drain_eq,
        drain_reject (D.reject_append _ hreject)]
      show fs ++ [] ++ (D.feed [] cs).1 = fs ++ []
      rw [feed_barren hrest, List.append_nil]

/-- A frame is at the front of the buffer, and recognised by that front. -/
def FrontDetermined (D : Deframer α β) : Prop :=
  ∀ {b f r}, D.next b = .frame f r →
    ∃ front, b = front ++ r ∧ ∀ rest, D.next (front ++ rest) = .frame f rest

theorem Reads.front (hfront : D.FrontDetermined) {b m : List α} {fs : List β}
    (h : D.Reads b fs m) : ∃ front, b = front ++ m ∧ ∀ rest, D.Reads (front ++ rest) fs rest := by
  induction h with
  | refl b => exact ⟨[], rfl, fun rest => .refl rest⟩
  | take h _ ih =>
    obtain ⟨front, rfl, hframe⟩ := hfront h
    obtain ⟨more, rfl, hmore⟩ := ih
    refine ⟨front ++ more, (List.append_assoc ..).symm, fun rest => ?_⟩
    rw [List.append_assoc]
    exact .take (hframe _) (hmore rest)

/-- **When the chunks do not matter.**  A stream is delivered the same way wherever it is
cut exactly when behind its first refusal there is no frame to be found. -/
theorem feed_independent_iff (hfront : D.FrontDetermined) (hnil : D.next [] = .more)
    (b : List α) :
    (∀ cs cs' : List (List α), cs.flatten = b → cs'.flatten = b →
      (D.feed [] cs).1 = (D.feed [] cs').1) ↔ D.BarrenAfterRefusal b := by
  constructor
  · intro hsame fs front rest hreads hreject skipped tail hrest f r htail
    subst hrest
    obtain ⟨before, rfl, hbefore⟩ := hreads.front hfront
    -- in one chunk the frame is thrown away; cut in front of it, it is delivered
    have hone : (D.feed [] [before ++ (front ++ (skipped ++ tail))]).1 = fs := by
      rw [feed, push, List.nil_append, (hbefore _).drain_eq,
        drain_reject (D.reject_append _ hreject), feed, List.append_nil, List.append_nil]
    have hcut : (D.feed [] [before ++ (front ++ skipped), tail]).1 =
        fs ++ f :: (D.drain r).1 := by
      rw [feed, push, List.nil_append, (hbefore _).drain_eq,
        drain_reject (D.reject_append _ hreject), List.append_nil, feed, push, List.nil_append,
        drain_frame htail, feed, List.append_nil]
    have heq := hsame [before ++ (front ++ skipped), tail]
      [before ++ (front ++ (skipped ++ tail))] (by simp) (by simp)
    rw [hone, hcut] at heq
    exact absurd (congrArg List.length heq) (by simp)
  · intro h cs cs' hcs hcs'
    rw [feed_eq_drain hnil (by rwa [hcs]), feed_eq_drain hnil (by rwa [hcs']), hcs, hcs']

end Deframer
