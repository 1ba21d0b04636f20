import Mathlib.Logic.Function.Basic

/-! # Condition variables

The threads `τ` that wait at one condition variable, as a set that a test and a
notification change.  A thread is in it from the moment it blocks until it is notified,
or wakes up of itself; then it will take the mutex and test its condition again, and is
no longer waiting but on its way.

The conditions of the threads may differ.  What must never happen is that a thread waits
while its condition holds (`NoneStranded`): `notify_all` makes sure of it, a critical
section without notification keeps it if it makes no waiting thread's condition true, and
`notify_one` is enough if the thread whose condition has become true is the only one that
waits (`noneStranded_notifyOne`), since it may pick any.
-/
namespace CondVar
variable {τ : Type*}

/-- The threads that wait and have not been notified. -/
abbrev Waiters (τ : Type*) := τ → Bool

/-- No thread waits while its condition holds. -/
def NoneStranded (wants : τ → Prop) (w : Waiters τ) : Prop :=
  ∀ t, w t = true → ¬ wants t

/-- `notify_all`. -/
def notifyAll (_ : Waiters τ) : Waiters τ := fun _ => false

variable [DecidableEq τ]

/-- The thread blocks. -/
def block (w : Waiters τ) (t : τ) : Waiters τ := Function.update w t true

/-- The thread leaves the wait. -/
def wake (w : Waiters τ) (t : τ) : Waiters τ := Function.update w t false

/-- The outcomes of `notify_one`: a thread that waits is woken, any one of them; if
none waits, nothing happens. -/
def NotifyOne (w : Waiters τ) (w' : Waiters τ) : Prop :=
  (∃ t, w t = true ∧ w' = wake w t) ∨ (∀ t, w t = false) ∧ w' = w

omit [DecidableEq τ] in
theorem noneStranded_of_none {wants : τ → Prop} {w : Waiters τ} (h : ∀ t, w t = false) :
    NoneStranded wants w := fun t ht => absurd ((h t).symm.trans ht) nofun

omit [DecidableEq τ] in
theorem noneStranded_notifyAll (wants : τ → Prop) (w : Waiters τ) :
    NoneStranded wants (notifyAll w) :=
  noneStranded_of_none fun _ => rfl

omit [DecidableEq τ] in
/-- A critical section that makes no waiting thread's condition true needs no
notification. -/
theorem NoneStranded.mono {wants wants' : τ → Prop} {w : Waiters τ} (h : NoneStranded wants w)
    (hmono : ∀ t, w t = true → wants' t → wants t) : NoneStranded wants' w :=
  fun t ht hwants => h t ht (hmono t ht hwants)

/-- A thread blocks only when its condition does not hold. -/
theorem NoneStranded.block {wants : τ → Prop} {w : Waiters τ} (h : NoneStranded wants w) {t : τ}
    (ht : ¬ wants t) : NoneStranded wants (block w t) := by
  intro u hu
  by_cases hut : u = t
  · exact hut ▸ ht
  · rw [CondVar.block, Function.update_of_ne hut] at hu
    exact h u hu

theorem of_wake {w : Waiters τ} {t u : τ} (h : wake w t u = true) : w u = true ∧ u ≠ t := by
  by_cases hut : u = t
  · rw [hut, wake, Function.update_self] at h
    cases h
  · rw [wake, Function.update_of_ne hut] at h
    exact ⟨h, hut⟩

/-- A wake-up strands nobody, whether it is notified or not. -/
theorem NoneStranded.wake {wants : τ → Prop} {w : Waiters τ} (h : NoneStranded wants w) (t : τ) :
    NoneStranded wants (wake w t) :=
  fun u hu => h u (of_wake hu).1

theorem NotifyOne.subset {w w' : Waiters τ} (h : NotifyOne w w') {t : τ} (ht : w' t = true) :
    w t = true := by
  rcases h with ⟨u, -, rfl⟩ | ⟨-, rfl⟩
  · exact (of_wake ht).1
  · exact ht

/-- **When `notify_one` is enough**: a thread whose condition has become true is the only
thread that waits. -/
theorem noneStranded_notifyOne {wants : τ → Prop} {w w' : Waiters τ} (h : NotifyOne w w')
    (honly : ∀ t, w t = true → wants t → ∀ u, w u = true → u = t) : NoneStranded wants w' := by
  intro t ht hwants
  have hwaits := h.subset ht
  rcases h with ⟨u, hu, rfl⟩ | ⟨hnone, rfl⟩
  · exact (of_wake ht).2 (honly t hwaits hwants u hu).symm
  · exact absurd ((hnone t).symm.trans hwaits) nofun

end CondVar
