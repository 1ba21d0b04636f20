import Mathlib.Data.List.Basic

/-! # A descriptor table

A process's table of open files: an open file `α` at each number, or nothing.
Opening a file takes the lowest free number, so a number that was closed is the
first to be given out again.
-/

/-- The open files, by descriptor number. -/
abbrev FdTable (α : Type*) := List (Option α)

namespace FdTable
variable {α : Type*}

/-- What is open at a number. -/
def lookup (t : FdTable α) (n : Nat) : Option α := t[n]?.join

/-- The number the next file gets. -/
def lowestFree (t : FdTable α) : Nat := t.findIdx Option.isNone

/-- Open `a` at the lowest free number. -/
def openFile (t : FdTable α) (a : α) : FdTable α :=
  if lowestFree t < t.length then t.set (lowestFree t) (some a) else t ++ [some a]

/-- `close(n)`. -/
def closeFile (t : FdTable α) (n : Nat) : FdTable α := t.set n none

/-- In a table without a hole the next number is a new one. -/
theorem lowestFree_eq_length {t : FdTable α} (h : ¬ lowestFree t < t.length) :
    lowestFree t = t.length :=
  Nat.le_antisymm List.findIdx_le_length (Nat.not_lt.mp h)

theorem lookup_lowestFree (t : FdTable α) : lookup t (lowestFree t) = none := by
  unfold lookup
  by_cases h : lowestFree t < t.length
  · have hnone := List.findIdx_getElem (w := h)
    rw [List.getElem?_eq_getElem h]
    exact Option.isNone_iff_eq_none.mp hnone
  · rw [List.getElem?_eq_none (by omega)]
    rfl

theorem lookup_openFile_self (t : FdTable α) (a : α) :
    lookup (openFile t a) (lowestFree t) = some a := by
  unfold openFile lookup
  by_cases h : lowestFree t < t.length
  · rw [if_pos h]
    simp [h]
  · rw [if_neg h, lowestFree_eq_length h]
    simp

theorem lookup_openFile_ne (t : FdTable α) (a : α) {n : Nat} (h : n ≠ lowestFree t) :
    lookup (openFile t a) n = lookup t n := by
  unfold openFile lookup
  by_cases hlt : lowestFree t < t.length
  · rw [if_pos hlt, List.getElem?_set_ne (Ne.symm h)]
  · have hlen := lowestFree_eq_length hlt
    rw [if_neg hlt]
    by_cases hn : n < t.length
    · rw [List.getElem?_append_left hn]
    · rw [List.getElem?_eq_none (by rw [List.length_append, List.length_singleton]; omega),
        List.getElem?_eq_none (by omega)]

theorem lookup_closeFile_self (t : FdTable α) (n : Nat) : lookup (closeFile t n) n = none := by
  unfold closeFile lookup
  by_cases h : n < t.length
  · simp [h]
  · rw [List.getElem?_eq_none (by rw [List.length_set]; omega)]
    rfl

theorem lookup_closeFile_ne (t : FdTable α) {m n : Nat} (h : m ≠ n) :
    lookup (closeFile t n) m = lookup t m := by
  unfold closeFile lookup
  rw [List.getElem?_set_ne (Ne.symm h)]

/-- Closing opens nothing. -/
theorem lookup_of_closeFile {t : FdTable α} {m n : Nat} {a : α}
    (h : lookup (closeFile t n) m = some a) : lookup t m = some a := by
  by_cases hm : m = n
  · rw [hm, lookup_closeFile_self] at h
    cases h
  · rw [lookup_closeFile_ne t hm] at h
    exact h

end FdTable
