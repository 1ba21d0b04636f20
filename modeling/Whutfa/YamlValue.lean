import Mathlib.Data.List.Basic
import Mathlib.Data.Rat.Defs
import Whutfa.JsString

/-! # Values of a YAML document

What `yaml.parse` makes of a document, as JavaScript code sees it: truth values, property
reads and assignments, and the members that `Object.keys` lists.  Reading a property of
`null` or `undefined` throws, and so does assigning one of a primitive value; an array takes
properties beside its items.

A member that has been put is found again, and the others are left as they were
(`lookup_put_self`, `lookup_put_ne`).  A value is a tree of mappings, known by what stands at
each path of keys (`valueAt`): a mapping (`MappingAt`), or a leaf (`leafAt`).
-/

/-- A number of JavaScript. -/
inductive Number
  | nan
  | infinite (negative : Bool)
  | finite (value : ℚ)
  deriving DecidableEq

/-- A value; `named` are the properties of an array beside its items. -/
inductive Yaml
  | null
  | bool (b : Bool)
  | num (n : Number)
  | str (s : JsString)
  | arr (items : List Yaml) (named : List (JsString × Yaml))
  | obj (members : List (JsString × Yaml))

/-- What is thrown. -/
inductive Thrown
  | typeError
  | parseError
  deriving DecidableEq

namespace Yaml

open JsString

/-- The members of a mapping, in order. -/
abbrev Members := List (JsString × Yaml)

/-- Whether a condition takes the value for true; `none` is `undefined`. -/
def truthy : Option Yaml → Bool
  | none | some .null => false
  | some (.bool b) => b
  | some (.num .nan) => false
  | some (.num (.infinite _)) => true
  | some (.num (.finite value)) => value ≠ 0
  | some (.str s) => s ≠ []
  | some (.arr _ _) | some (.obj _) => true

/-- The members with one set: in its place, or as the last. -/
def put (members : Members) (key : JsString) (v : Yaml) : Members :=
  match members with
  | [] => [(key, v)]
  | (k, w) :: members =>
      if k = key then (key, v) :: members else (k, w) :: put members key v

/-- `v.key`. -/
def read (v : Option Yaml) (key : JsString) : Except Thrown (Option Yaml) :=
  match v with
  | none | some .null => .error .typeError
  | some (.obj members) => .ok (members.lookup key)
  | some (.arr _ named) => .ok (named.lookup key)
  | some _ => .ok none

/-- `v.key = w`, and the value of `v` after it. -/
def write (v : Option Yaml) (key : JsString) (w : Yaml) : Except Thrown Yaml :=
  match v with
  | some (.obj members) => .ok (.obj (put members key w))
  | some (.arr items named) => .ok (.arr items (put named key w))
  | _ => .error .typeError

/-- Items under their indices. -/
def indexed (items : List Yaml) : Members :=
  items.zipIdx.map fun (v, i) => (js (toString i), v)

/-- The keys that `Object.keys` lists, with their values. -/
def entries : Yaml → Except Thrown Members
  | .null => .error .typeError
  | .bool _ | .num _ => .ok []
  | .str s => .ok (indexed (s.map fun c => .str [c]))
  | .arr items named => .ok (indexed items ++ named)
  | .obj members => .ok members

/-! ## Putting and finding -/

/-- What a computation that has not thrown has gone through. -/
theorem bind_eq_ok {ε α β : Type} {x : Except ε α} {f : α → Except ε β} {b : β} :
    x >>= f = .ok b ↔ ∃ a, x = .ok a ∧ f a = .ok b := by
  cases x with
  | error e => exact ⟨nofun, fun ⟨_, h, _⟩ => nomatch h⟩
  | ok a => exact ⟨fun h => ⟨a, rfl, h⟩, fun ⟨_, ha, h⟩ => Except.ok.inj ha ▸ h⟩

/-- What the first computation throws, or the one behind it. -/
theorem bind_eq_error {ε α β : Type} {x : Except ε α} {f : α → Except ε β} :
    (∃ e, x >>= f = .error e) ↔ (∃ e, x = .error e) ∨ ∃ a, x = .ok a ∧ ∃ e, f a = .error e := by
  cases x with
  | error e => exact ⟨fun _ => Or.inl ⟨e, rfl⟩, fun _ => ⟨e, rfl⟩⟩
  | ok a =>
    refine ⟨fun h => Or.inr ⟨a, rfl, h⟩, ?_⟩
    rintro (⟨e, h⟩ | ⟨b, h, hthrown⟩)
    · cases h
    · rw [Except.ok.inj h]
      exact hthrown

theorem mem_of_lookup {members : Members} {key : JsString} {v : Yaml}
    (h : members.lookup key = some v) : (key, v) ∈ members := by
  obtain ⟨front, back, rfl, -⟩ := List.lookup_eq_some_iff.mp h
  exact List.mem_append_right _ List.mem_cons_self

theorem lookup_of_not_mem {members : Members} {key : JsString}
    (h : key ∉ members.map Prod.fst) : members.lookup key = none := by
  rw [Option.eq_none_iff_forall_ne_some]
  intro v hv
  exact h (List.mem_map_of_mem (mem_of_lookup hv))

theorem lookup_put_self (members : Members) (key : JsString) (v : Yaml) :
    (put members key v).lookup key = some v := by
  induction members with
  | nil => exact List.lookup_cons_self
  | cons m members ih =>
    unfold put
    split
    · exact List.lookup_cons_self
    · rename_i hkey
      rw [List.lookup_cons, beq_eq_false_iff_ne.mpr (Ne.symm hkey)]
      exact ih

theorem lookup_put_ne {key other : JsString} (h : other ≠ key) (members : Members) (v : Yaml) :
    (put members key v).lookup other = members.lookup other := by
  induction members with
  | nil => rw [put, List.lookup_cons, beq_eq_false_iff_ne.mpr h]
  | cons m members ih =>
    unfold put
    split
    · rename_i hkey
      rw [List.lookup_cons, List.lookup_cons, hkey, beq_eq_false_iff_ne.mpr h]
    · rw [List.lookup_cons, List.lookup_cons, ih]

theorem read_write_self {v : Option Yaml} {key : JsString} {w u : Yaml}
    (h : write v key w = .ok u) : read (some u) key = .ok (some w) := by
  unfold write at h
  split at h
  · obtain rfl := Except.ok.inj h
    exact congrArg _ (lookup_put_self _ key w)
  · obtain rfl := Except.ok.inj h
    exact congrArg _ (lookup_put_self _ key w)
  · cases h

theorem read_write_ne {v : Option Yaml} {key other : JsString} {w u : Yaml}
    (h : write v key w = .ok u) (hne : other ≠ key) : read (some u) other = read v other := by
  unfold write at h
  split at h
  · obtain rfl := Except.ok.inj h
    exact congrArg _ (lookup_put_ne hne _ w)
  · obtain rfl := Except.ok.inj h
    exact congrArg _ (lookup_put_ne hne _ w)
  · cases h

/-! ## Paths -/

/-- Keys, the outermost first. -/
abbrev Path := List JsString

/-- The value is a mapping. -/
def isMapping : Yaml → Bool
  | .obj _ => true
  | _ => false

/-- What stands at a path; only mappings are gone through. -/
def valueAt (v : Option Yaml) : Path → Option Yaml
  | [] => v
  | key :: path =>
      match v with
      | some (.obj members) => valueAt (members.lookup key) path
      | _ => none

/-- There is a mapping at the path. -/
def MappingAt (v : Option Yaml) (path : Path) : Prop :=
  ∃ members, valueAt v path = some (.obj members)

/-- What stands at a path and is no mapping. -/
def leafAt (v : Option Yaml) (path : Path) : Option Yaml :=
  (valueAt v path).filter fun w => !w.isMapping

theorem isMapping_iff {v : Yaml} : v.isMapping = true ↔ ∃ members, v = .obj members := by
  cases v <;> simp [isMapping]

@[simp] theorem valueAt_none (path : Path) : valueAt none path = none := by
  cases path <;> rfl

theorem valueAt_cons (v : Option Yaml) (key : JsString) (path : Path) :
    valueAt v (key :: path) = valueAt (valueAt v [key]) path := by
  cases v with
  | none => exact (valueAt_none path).symm
  | some v =>
    cases v with
    | obj members => rfl
    | _ => exact (valueAt_none path).symm

/-- Nothing stands below a leaf. -/
theorem valueAt_leaf {v : Yaml} (hv : v.isMapping = false) (key : JsString) (path : Path) :
    valueAt (some v) (key :: path) = none := by
  unfold valueAt
  split
  · rename_i heq
    obtain rfl := Option.some.inj heq
    cases hv
  · rfl

theorem mappingAt_root {v : Option Yaml} {key : JsString} {path : Path} {w : Yaml}
    (h : valueAt v (key :: path) = some w) : MappingAt v [] := by
  unfold valueAt at h
  split at h
  · exact ⟨_, rfl⟩
  · cases h

theorem not_mappingAt {v : Option Yaml} (h : ¬ MappingAt v []) (path : Path) :
    ¬ MappingAt v path := by
  rcases path with _ | ⟨key, path⟩
  · exact h
  · exact fun ⟨_, hmembers⟩ => h (mappingAt_root hmembers)

theorem not_mappingAt_leaf {v : Yaml} (hv : v.isMapping = false) (path : Path) :
    ¬ MappingAt (some v) path := by
  refine not_mappingAt ?_ path
  rintro ⟨members, hmembers⟩
  obtain rfl := Option.some.inj hmembers
  cases hv

theorem leafAt_eq_some {v : Option Yaml} {path : Path} {w : Yaml} :
    leafAt v path = some w ↔ valueAt v path = some w ∧ w.isMapping = false := by
  simp [leafAt, Option.filter_eq_some_iff]

theorem leafAt_of_mappingAt {v : Option Yaml} {path : Path} (h : MappingAt v path) :
    leafAt v path = none := by
  obtain ⟨members, hmembers⟩ := h
  rw [leafAt, hmembers]
  rfl

theorem leafAt_of_not_mappingAt {v : Option Yaml} {path : Path} (h : ¬ MappingAt v path) :
    leafAt v path = valueAt v path := by
  unfold leafAt
  cases hpath : valueAt v path with
  | none => rfl
  | some w =>
    refine Option.filter_some_pos ?_
    rw [Bool.not_eq_true', Bool.eq_false_iff]
    intro hw
    obtain ⟨members, rfl⟩ := isMapping_iff.mp hw
    exact h ⟨members, hpath⟩

theorem leafAt_below {v : Option Yaml} (h : ¬ MappingAt v []) (key : JsString) (path : Path) :
    leafAt v (key :: path) = none := by
  rw [Option.eq_none_iff_forall_ne_some]
  intro w hw
  exact h (mappingAt_root (leafAt_eq_some.mp hw).1)

theorem valueAt_put_self (members : Members) (key : JsString) (v : Yaml) (path : Path) :
    valueAt (some (.obj (put members key v))) (key :: path) = valueAt (some v) path := by
  rw [valueAt, lookup_put_self]

theorem valueAt_put_ne {key other : JsString} (h : other ≠ key) (members : Members) (v : Yaml)
    (path : Path) :
    valueAt (some (.obj (put members key v))) (other :: path) =
      valueAt (some (.obj members)) (other :: path) := by
  rw [valueAt, lookup_put_ne h, valueAt]

/-- A member put in the place of one with the same mappings. -/
theorem mappingAt_put {members : Members} {key : JsString} {v : Yaml}
    (h : ∀ path, MappingAt (some v) path ↔ MappingAt (members.lookup key) path) (path : Path) :
    MappingAt (some (.obj (put members key v))) path ↔ MappingAt (some (.obj members)) path := by
  rcases path with _ | ⟨k, path⟩
  · exact ⟨fun _ => ⟨_, rfl⟩, fun _ => ⟨_, rfl⟩⟩
  by_cases hk : k = key
  · subst hk
    rw [MappingAt, valueAt_put_self]
    exact h path
  · rw [MappingAt, valueAt_put_ne hk]
    rfl

end Yaml
