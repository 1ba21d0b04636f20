import Mathlib.Data.List.Sort
import Mathlib.Data.Rat.Floor
import Mathlib.Tactic.Linarith
import Whutfa.AudioMessages
import Whutfa.AudioWorklet

/-! # When audio is played

`AvSync` (`frontend/av-sync.js`) and the message handler of `connectAudio`
(`frontend/app.js`), which sets a timer for each message.  Instants and delays are in
milliseconds and exact; `setTimeout` truncates its delay, and timers fire in the order of
their instants, at one instant in the order in which they were set.

Each message has a target instant, its timestamp's distance from the origin.  One that
comes early waits until its target, less the fraction of its delay; so of two messages
with almost the same target the second can overtake the first (`posted_in_order_iff`).
-/
namespace Whutfa.AudioTiming

open JsString (js)

/-- `originVideoTs` and `originPerf`, which are set together. -/
structure Origin where
  videoTs : Nat
  perf : ℚ

/-- The class `AvSync`; `origin` is set by the first timestamp. -/
structure AvSync where
  origin : Option Origin

/-- `AvSync.onFirstVideoTs`, when `performance.now()` is `now`. -/
def onFirstVideoTs (sync : AvSync) (now : ℚ) (timestampUs : Nat) : AvSync :=
  match sync.origin with
  | some _ => sync
  | none => { origin := some { videoTs := timestampUs, perf := now } }

/-- `AvSync.scheduleAudio`: the delay for a packet, in milliseconds. -/
def scheduleAudio (sync : AvSync) (now : ℚ) (timestampUs : Nat) : ℚ :=
  match sync.origin with
  | none => 0
  | some origin =>
      let targetMs := ((timestampUs : ℚ) - origin.videoTs) / 1000
      let elapsed := now - origin.perf
      max 0 (targetMs - elapsed)

/-- A message, and `performance.now()` when its handler runs. -/
structure Arrival where
  message : AudioMessage
  instant : ℚ

/-- A timer of the handler, and what it will post to the worklet. -/
structure Timer where
  arrival : Arrival
  fires : ℚ
  chunk : AudioWorklet.Message

/-- `setTimeout` at an instant. -/
def setTimeout (instant delay : ℚ) : ℚ := instant + ⌊delay⌋

/-- The handler of one message after another. -/
def onmessages : AvSync → List Arrival → List Timer
  | _, [] => []
  | sync, a :: rest =>
      let sync := onFirstVideoTs sync a.instant a.message.ts
      { arrival := a
        fires := setTimeout a.instant (scheduleAudio sync a.instant a.message.ts)
        chunk := { type := js "pcm", pcm := a.message.pcm
                   sampleRate := a.message.sampleRate, channels := a.message.channels } } ::
        onmessages sync rest

/-- The timers in the order in which they post. -/
def posted (sync : AvSync) (arrivals : List Arrival) : List Timer :=
  (onmessages sync arrivals).insertionSort fun s t => s.fires ≤ t.fires

/-! ## The instants -/

/-- How long before its target instant a message arrives. -/
def Origin.earliness (origin : Origin) (a : Arrival) : ℚ :=
  origin.perf + ((a.message.ts : ℚ) - origin.videoTs) / 1000 - a.instant

/-- The timer of a message. -/
def Origin.timer (origin : Origin) (a : Arrival) : Timer :=
  { arrival := a
    fires := a.instant + ⌊max 0 (origin.earliness a)⌋
    chunk := { type := js "pcm", pcm := a.message.pcm
               sampleRate := a.message.sampleRate, channels := a.message.channels } }

/-- The origin by which messages are scheduled: the one that is set, or the first of
them. -/
def originOf (sync : AvSync) (arrivals : List Arrival) : Origin :=
  sync.origin.getD
    { videoTs := (arrivals.head?.map (·.message.ts)).getD 0
      perf := (arrivals.head?.map (·.instant)).getD 0 }

theorem onmessages_of_origin (origin : Origin) (arrivals : List Arrival) :
    onmessages { origin := some origin } arrivals = arrivals.map origin.timer := by
  induction arrivals with
  | nil => rfl
  | cons a rest ih =>
    have hdelay : scheduleAudio { origin := some origin } a.instant a.message.ts =
        max 0 (origin.earliness a) := by
      have htarget : ((a.message.ts : ℚ) - origin.videoTs) / 1000 - (a.instant - origin.perf) =
          origin.earliness a := by
        rw [Origin.earliness]
        ring
      exact congrArg (max 0) htarget
    rw [List.map_cons, ← ih, onmessages, onFirstVideoTs, Origin.timer, ← hdelay, setTimeout]

theorem onmessages_eq (sync : AvSync) (arrivals : List Arrival) :
    onmessages sync arrivals = arrivals.map (originOf sync arrivals).timer := by
  obtain ⟨origin⟩ := sync
  cases origin with
  | some origin => exact onmessages_of_origin origin arrivals
  | none =>
    cases arrivals with
    | nil => rfl
    | cons a rest =>
      exact onmessages_of_origin { videoTs := a.message.ts, perf := a.instant } (a :: rest)

/-- **Two messages keep their order**, unless both are early and the fractions of their
delays differ by more than their targets. -/
def Origin.KeepsOrder (origin : Origin) (a b : Arrival) : Prop :=
  0 < origin.earliness a → 0 < origin.earliness b →
    Int.fract (origin.earliness b) - Int.fract (origin.earliness a) ≤
      ((b.message.ts : ℚ) - a.message.ts) / 1000

theorem fires_of_late {origin : Origin} {a : Arrival} (h : origin.earliness a ≤ 0) :
    (origin.timer a).fires = a.instant := by
  rw [Origin.timer, max_eq_left h, Int.floor_zero, Int.cast_zero, add_zero]

theorem fires_of_early {origin : Origin} {a : Arrival} (h : 0 < origin.earliness a) :
    (origin.timer a).fires = a.instant + origin.earliness a - Int.fract (origin.earliness a) := by
  rw [Origin.timer, max_eq_right h.le, add_sub_assoc, Int.self_sub_fract]

/-- A timer fires no sooner than its message arrives. -/
theorem instant_le_fires (origin : Origin) (a : Arrival) : a.instant ≤ (origin.timer a).fires := by
  have hfloor : (0 : ℚ) ≤ ⌊max 0 (origin.earliness a)⌋ :=
    Int.cast_nonneg (Int.floor_nonneg.mpr (le_max_left 0 _))
  rw [Origin.timer]
  linarith

theorem fires_le_iff {origin : Origin} {a b : Arrival} (hts : a.message.ts ≤ b.message.ts)
    (hinstant : a.instant ≤ b.instant) :
    (origin.timer a).fires ≤ (origin.timer b).fires ↔ origin.KeepsOrder a b := by
  have hcast : (a.message.ts : ℚ) ≤ b.message.ts := Nat.cast_le.mpr hts
  have htarget : b.instant + origin.earliness b =
      a.instant + origin.earliness a + ((b.message.ts : ℚ) - a.message.ts) / 1000 := by
    rw [Origin.earliness, Origin.earliness]
    ring
  by_cases ha : 0 < origin.earliness a
  · by_cases hb : 0 < origin.earliness b
    · -- each fires at its target, less the fraction of its delay
      rw [fires_of_early ha, fires_of_early hb, htarget]
      constructor
      · intro h _ _
        linarith
      · intro h
        have := h ha hb
        linarith
    · -- the second message is late, and the first fires by its own target
      refine iff_of_true ?_ fun _ hpos => absurd hpos hb
      have hlate := not_lt.mp hb
      have hfract := Int.fract_nonneg (origin.earliness a)
      rw [fires_of_early ha, fires_of_late hlate]
      linarith
  · refine iff_of_true ?_ fun hpos => absurd hpos ha
    rw [fires_of_late (not_lt.mp ha)]
    exact hinstant.trans (instant_le_fires origin b)

/-! ## The order of posting -/

theorem posted_arrivals (sync : AvSync) (arrivals : List Arrival) :
    (posted sync arrivals).map Timer.arrival =
      arrivals.insertionSort fun a b =>
        ((originOf sync arrivals).timer a).fires ≤ ((originOf sync arrivals).timer b).fires := by
  have hmap := List.map_insertionSort (fun a b => ((originOf sync arrivals).timer a).fires ≤
    ((originOf sync arrivals).timer b).fires) (fun s t : Timer => s.fires ≤ t.fires)
    (originOf sync arrivals).timer arrivals fun _ _ _ _ => Iff.rfl
  have hid : Timer.arrival ∘ (originOf sync arrivals).timer = id := rfl
  rw [posted, onmessages_eq, ← hmap, List.map_map, hid, List.map_id]

/-- Sorting by a rational leaves exactly the sorted lists as they are. -/
theorem insertionSort_eq_iff {α : Type*} (f : α → ℚ) (l : List α) :
    (l.insertionSort fun a b => f a ≤ f b) = l ↔ l.Pairwise fun a b => f a ≤ f b := by
  have : Std.Total fun a b => f a ≤ f b := ⟨fun a b => le_total (f a) (f b)⟩
  have : IsTrans α fun a b => f a ≤ f b := ⟨fun _ _ _ => le_trans⟩
  constructor
  · intro h
    exact h ▸ List.pairwise_insertionSort (fun a b => f a ≤ f b) l
  · exact fun h => h.insertionSort_eq

/-- **When chunks are posted in the order of their arrival.**  With timestamps and
instants of arrival that do not go down: exactly if no two messages both arrive early with
delays whose fractions differ by more than their timestamps. -/
theorem posted_in_order_iff (sync : AvSync) (arrivals : List Arrival)
    (hts : arrivals.Pairwise fun a b => a.message.ts ≤ b.message.ts)
    (hinstant : arrivals.Pairwise fun a b => a.instant ≤ b.instant) :
    (posted sync arrivals).map Timer.arrival = arrivals ↔
      arrivals.Pairwise (originOf sync arrivals).KeepsOrder := by
  have hboth := hts.and hinstant
  rw [posted_arrivals, insertionSort_eq_iff]
  constructor
  · intro h
    exact (hboth.and h).imp fun h => (fires_le_iff h.1.1 h.1.2).mp h.2
  · intro h
    exact (hboth.and h).imp fun h => (fires_le_iff h.1.1 h.1.2).mpr h.2

/-- An arrival of silence. -/
def arrivalAt (ts : Nat) (instant : ℚ) : Arrival :=
  { message := { sampleRate := 48000, channels := 2, ts, pcm := [] }, instant }

/-- Packets 20 ms apart that are received at once: their delays are whole milliseconds. -/
theorem burst_posted_in_order :
    (posted { origin := none } [arrivalAt 0 0, arrivalAt 20000 0, arrivalAt 40000 0]).map
      Timer.arrival = [arrivalAt 0 0, arrivalAt 20000 0, arrivalAt 40000 0] := by
  refine (posted_in_order_iff _ _ (by decide) (by decide)).mpr ?_
  have hwhole : ∀ n : ℕ, Int.fract (Origin.earliness { videoTs := 0, perf := 0 }
      (arrivalAt (n * 1000) 0)) = 0 := by
    intro n
    have heq : Origin.earliness { videoTs := 0, perf := 0 } (arrivalAt (n * 1000) 0) = n := by
      simp [Origin.earliness, arrivalAt]
    rw [heq, Int.fract_natCast]
  have hkeeps : ∀ m n : ℕ, m ≤ n → Origin.KeepsOrder { videoTs := 0, perf := 0 }
      (arrivalAt (m * 1000) 0) (arrivalAt (n * 1000) 0) := by
    intro m n hle _ _
    have hcast : (m : ℚ) ≤ n := Nat.cast_le.mpr hle
    rw [hwhole, hwhole]
    simp only [arrivalAt, Nat.cast_mul]
    linarith
  have horigin : originOf { origin := none }
      [arrivalAt 0 0, arrivalAt 20000 0, arrivalAt 40000 0] = { videoTs := 0, perf := 0 } := rfl
  rw [horigin]
  exact .cons (by simpa using ⟨hkeeps 0 20 (by decide), hkeeps 0 40 (by decide)⟩)
    (.cons (by simpa using hkeeps 20 40 (by decide)) (.cons nofun .nil))

/-- Two packets of one timestamp, the second 0.95 ms behind the first: their timers are set
for 10 ms and for 9.95 ms. -/
theorem second_overtakes :
    let arrivals := [arrivalAt 0 0, arrivalAt 10900 0, arrivalAt 10900 (19 / 20)]
    (arrivals.Pairwise fun a b => a.message.ts ≤ b.message.ts) ∧
      (arrivals.Pairwise fun a b => a.instant ≤ b.instant) ∧
      (posted { origin := none } arrivals).map Timer.arrival ≠ arrivals := by
  refine ⟨by decide, by decide +kernel, fun h => ?_⟩
  have hinstants : [0, 19 / 20, 0] = [0, 0, (19 / 20 : ℚ)] := by
    have hposted := congrArg (List.map Arrival.instant) h
    -- the third timer is the second to fire
    have hfired : ((posted { origin := none }
        [arrivalAt 0 0, arrivalAt 10900 0, arrivalAt 10900 (19 / 20)]).map Timer.arrival).map
          Arrival.instant = [0, 19 / 20, 0] := by decide +kernel
    exact hfired.symm.trans hposted
  revert hinstants
  decide +kernel

end Whutfa.AudioTiming
