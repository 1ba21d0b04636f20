import Whutfa.Decimal

/-! # JSON texts

Values, `JSON.stringify` and `JSON.parse`.  A number is the decimal literal that
is written for it; the rounding of a literal to the nearest binary fraction is
left out.  An object lists its members in the order they are written, and `get`
finds the last one of a key, as a property read does after a parse.

The parser recurses on a number of steps; `parse` allows two for each unit of the
text.  `parse_stringify` is the round trip, for every value.
-/

/-- A JSON value, its numbers as they are written. -/
inductive Json
  | null
  | bool (b : Bool)
  | num (d : Decimal)
  | str (s : JsString)
  | arr (items : List Json)
  | obj (members : List (JsString × Json))

open JsString

namespace Json

/-- The value of the last member of the key. -/
def get (members : List (JsString × Json)) (key : JsString) : Option Json :=
  (members.reverse.find? (·.1 = key)).map (·.2)

/-! ## Strings

A string is a list of code units, and some of them may be halves of surrogate pairs without
the other half.  `JSON.stringify` escapes those, and `JSON.parse` takes them escaped or not. -/

/-- The escapes of one letter: the unit, and the letter after the backslash. -/
def shortEscapes : List (UInt16 × UInt16) :=
  [(unit '"', unit '"'), (unit '\\', unit '\\'), (0x08, unit 'b'), (0x09, unit 't'),
    (0x0A, unit 'n'), (0x0C, unit 'f'), (0x0D, unit 'r')]

/-- A digit of an escape. -/
def hexDigit (n : Nat) : UInt16 := UInt16.ofNat (if n < 10 then 0x30 + n else 0x57 + n)

/-- The value of a digit of an escape. -/
def hexValue (c : UInt16) : Option Nat :=
  if 0x30 ≤ c ∧ c ≤ 0x39 then some (c.toNat - 0x30)
  else if 0x61 ≤ c ∧ c ≤ 0x66 then some (c.toNat - 0x57)
  else if 0x41 ≤ c ∧ c ≤ 0x46 then some (c.toNat - 0x37)
  else none

/-- What stands for a unit inside a string literal, unless it is half of a pair. -/
def escape (c : UInt16) : JsString :=
  match shortEscapes.find? (·.1 = c) with
  | some (_, e) => [unit '\\', e]
  | none =>
      if c < 0x20 || isHigh c || isLow c then
        [unit '\\', unit 'u', hexDigit (c.toNat / 0x1000), hexDigit (c.toNat / 0x100 % 0x10),
          hexDigit (c.toNat / 0x10 % 0x10), hexDigit (c.toNat % 0x10)]
      else [c]

/-- The inside of the literal of a string. -/
def escapeAll : JsString → JsString
  | [] => []
  | [c] => escape c
  | c :: d :: s =>
      if isHigh c && isLow d then c :: d :: escapeAll s else escape c ++ escapeAll (d :: s)

/-- A string with its quotes. -/
def quote (s : JsString) : JsString := unit '"' :: (escapeAll s ++ [unit '"'])

/-- The unit that an escape of one letter stands for. -/
def unescape (e : UInt16) : Option UInt16 :=
  if e = unit '/' then some e else (shortEscapes.find? (·.2 = e)).map (·.1)

/-- The unit that four digits stand for. -/
def hex4 (a b c d : UInt16) : Option UInt16 := do
  let a ← hexValue a
  let b ← hexValue b
  let c ← hexValue c
  let d ← hexValue d
  some (UInt16.ofNat (a * 0x1000 + b * 0x100 + c * 0x10 + d))

/-- A string literal up to its closing quote, after the opening one. -/
def readString : JsString → Option (JsString × JsString)
  | [] => none
  | c :: t =>
      if c = unit '"' then some ([], t)
      else if c = unit '\\' then
        match t with
        | [] => none
        | e :: t =>
            if e = unit 'u' then
              match t with
              | a :: b :: c :: d :: t =>
                  (hex4 a b c d).bind fun x => (readString t).map fun (s, rest) => (x :: s, rest)
              | _ => none
            else (unescape e).bind fun x => (readString t).map fun (s, rest) => (x :: s, rest)
      else if c < 0x20 then none
      else (readString t).map fun (s, rest) => (c :: s, rest)

theorem hexValue_hexDigit : ∀ n < 16, hexValue (hexDigit n) = some n := by decide

theorem unescape_of_mem : ∀ p ∈ shortEscapes, unescape p.2 = some p.1 ∧ p.2 ≠ unit 'u' := by
  have hall : shortEscapes.all (fun p => unescape p.2 = some p.1 ∧ p.2 ≠ unit 'u') = true := rfl
  intro p hp
  exact of_decide_eq_true (List.all_eq_true.mp hall p hp)

theorem hex4_hexDigit (c : UInt16) :
    hex4 (hexDigit (c.toNat / 0x1000)) (hexDigit (c.toNat / 0x100 % 0x10))
      (hexDigit (c.toNat / 0x10 % 0x10)) (hexDigit (c.toNat % 0x10)) = some c := by
  have hc := c.toNat_lt
  unfold hex4
  rw [hexValue_hexDigit _ (by omega), hexValue_hexDigit _ (by omega),
    hexValue_hexDigit _ (by omega), hexValue_hexDigit _ (by omega)]
  have hsum : c.toNat / 0x1000 * 0x1000 + c.toNat / 0x100 % 0x10 * 0x100 +
      c.toNat / 0x10 % 0x10 * 0x10 + c.toNat % 0x10 = c.toNat := by omega
  show some (UInt16.ofNat _) = _
  rw [hsum, UInt16.ofNat_toNat]

theorem back_ne_quote : unit '\\' ≠ unit '"' := by decide

theorem readString_close (t : JsString) : readString (unit '"' :: t) = some ([], t) := by
  rw [readString.eq_def]
  exact if_pos rfl

/-- A unit that stands for itself. -/
theorem readString_cons {c : UInt16} (hquote : c ≠ unit '"') (hback : c ≠ unit '\\')
    (hctl : ¬ c < 0x20) (t : JsString) :
    readString (c :: t) = (readString t).map fun (s, rest) => (c :: s, rest) := by
  rw [readString.eq_def]
  show (if c = unit '"' then _ else _) = _
  rw [if_neg hquote, if_neg hback, if_neg hctl]

theorem readString_short {c e : UInt16} (he : e ≠ unit 'u') (hun : unescape e = some c)
    (t : JsString) :
    readString (unit '\\' :: e :: t) = (readString t).map fun (s, rest) => (c :: s, rest) := by
  rw [readString.eq_def]
  show (if unit '\\' = unit '"' then _ else _) = _
  rw [if_neg back_ne_quote, if_pos rfl]
  show (if e = unit 'u' then _ else _) = _
  rw [if_neg he, hun]
  rfl

theorem readString_hex {x a b c d : UInt16} (hx : hex4 a b c d = some x) (t : JsString) :
    readString (unit '\\' :: unit 'u' :: a :: b :: c :: d :: t) =
      (readString t).map fun (s, rest) => (x :: s, rest) := by
  rw [readString.eq_def]
  show (if unit '\\' = unit '"' then _ else _) = _
  rw [if_neg back_ne_quote, if_pos rfl]
  show (if unit 'u' = unit 'u' then _ else _) = _
  rw [if_pos rfl]
  show (hex4 a b c d).bind _ = _
  rw [hx]
  rfl

theorem readString_escape (c : UInt16) (t : JsString) :
    readString (escape c ++ t) = (readString t).map fun (s, rest) => (c :: s, rest) := by
  unfold escape
  cases hfind : shortEscapes.find? (·.1 = c) with
  | some p =>
    obtain ⟨hun, hu⟩ := unescape_of_mem p (List.mem_of_find?_eq_some hfind)
    have hc : p.1 = c := by simpa using List.find?_some hfind
    rw [hc] at hun
    exact readString_short hu hun t
  | none =>
    have hnot := List.find?_eq_none.mp hfind
    show readString ((if _ then _ else _) ++ t) = _
    split_ifs with hctl
    · exact readString_hex (hex4_hexDigit c) t
    · apply readString_cons
      · rintro rfl
        exact hnot (unit '"', unit '"') (by decide) (by decide)
      · rintro rfl
        exact hnot (unit '\\', unit '\\') (by decide) (by decide)
      · intro hlt
        exact hctl (by simp [hlt])

/-- Halves of a pair stand for themselves. -/
theorem plain_of_surrogate {c : UInt16} (hc : isHigh c || isLow c) :
    c ≠ unit '"' ∧ c ≠ unit '\\' ∧ ¬ c < 0x20 := by
  refine ⟨?_, ?_, fun hlt => ?_⟩
  · rintro rfl
    exact absurd hc (by decide)
  · rintro rfl
    exact absurd hc (by decide)
  · have hascii : isAscii c := by
      have h80 : (0x80 : UInt16).toNat = 128 := rfl
      have h20 : (0x20 : UInt16).toNat = 32 := rfl
      simp only [isAscii, decide_eq_true_eq, UInt16.lt_iff_toNat_lt] at hlt ⊢
      omega
    rw [not_isHigh_of_ascii hascii, not_isLow_of_ascii hascii] at hc
    exact absurd hc (by decide)

/-- **A string literal is read back**, with whatever surrogates the string has. -/
theorem readString_escapeAll (s t : JsString) :
    readString (escapeAll s ++ unit '"' :: t) = some (s, t) := by
  induction s using escapeAll.induct with
  | case1 => exact readString_close t
  | case2 c =>
    rw [escapeAll, readString_escape, readString_close]
    rfl
  | case3 c d s hpair ih =>
    have hboth := hpair
    rw [Bool.and_eq_true] at hboth
    obtain ⟨hc1, hc2, hc3⟩ := plain_of_surrogate (c := c) (by simp [hboth.1])
    obtain ⟨hd1, hd2, hd3⟩ := plain_of_surrogate (c := d) (by simp [hboth.2])
    rw [escapeAll, if_pos hpair, List.cons_append, List.cons_append,
      readString_cons hc1 hc2 hc3, readString_cons hd1 hd2 hd3, ih]
    rfl
  | case4 c d s hpair ih =>
    rw [escapeAll, if_neg hpair, List.append_assoc, readString_escape, ih]
    rfl

/-! ## Texts

Writer and reader go through items and members in the same way.  The reader is given a number
of steps; `JsonFront` shows that it does not matter how many, once they are enough. -/

mutual

/-- `JSON.stringify(v)`. -/
def stringify : Json → JsString
  | .null => js "null"
  | .bool true => js "true"
  | .bool false => js "false"
  | .num d => d.print
  | .str s => quote s
  | .arr [] => [unit '[', unit ']']
  | .arr (v :: l) => unit '[' :: (stringify v ++ stringifyItems l)
  | .obj [] => [unit '\x7b', unit '\x7d']
  | .obj ((k, v) :: l) =>
      unit '\x7b' :: (quote k ++ unit ':' :: (stringify v ++ stringifyMembers l))

/-- The items after the first, and the closing bracket. -/
def stringifyItems : List Json → JsString
  | [] => [unit ']']
  | v :: l => unit ',' :: (stringify v ++ stringifyItems l)

/-- The members after the first, and the closing brace. -/
def stringifyMembers : List (JsString × Json) → JsString
  | [] => [unit '\x7d']
  | (k, v) :: l => unit ',' :: (quote k ++ unit ':' :: (stringify v ++ stringifyMembers l))

end

/-- A unit of a text on one line. -/
def isPrintable (c : UInt16) : Bool := !(c < 0x20)

theorem isPrintable_hexDigit : ∀ n < 16, isPrintable (hexDigit n) := by decide

theorem isPrintable_escape (c : UInt16) : ∀ x ∈ escape c, isPrintable x := by
  unfold escape
  cases hfind : shortEscapes.find? (·.1 = c) with
  | some p =>
    have hall : (shortEscapes.all fun p => [unit '\\', p.2].all isPrintable) = true := rfl
    exact List.all_eq_true.mp (List.all_eq_true.mp hall p (List.mem_of_find?_eq_some hfind))
  | none =>
    have hlt := c.toNat_lt
    simp only
    split
    · intro x hx
      simp only [List.mem_cons, List.not_mem_nil, or_false] at hx
      rcases hx with rfl | rfl | rfl | rfl | rfl | rfl
      · decide
      · decide
      all_goals exact isPrintable_hexDigit _ (by omega)
    · rename_i hctl
      intro x hx
      rw [List.mem_singleton.mp hx]
      simp only [Bool.or_eq_true, decide_eq_true_eq, not_or] at hctl
      simp [isPrintable, hctl.1.1]

theorem isPrintable_escapeAll (s : JsString) : ∀ x ∈ escapeAll s, isPrintable x := by
  induction s using escapeAll.induct with
  | case1 => exact nofun
  | case2 c => exact isPrintable_escape c
  | case3 c d s hpair ih =>
    rw [escapeAll, if_pos hpair]
    rw [Bool.and_eq_true] at hpair
    obtain ⟨-, -, hc⟩ := plain_of_surrogate (c := c) (by simp [hpair.1])
    obtain ⟨-, -, hd⟩ := plain_of_surrogate (c := d) (by simp [hpair.2])
    intro x hx
    rcases List.mem_cons.mp hx with rfl | hx
    · simp [isPrintable, hc]
    · rcases List.mem_cons.mp hx with rfl | hx
      · simp [isPrintable, hd]
      · exact ih x hx
  | case4 c d s hpair ih =>
    rw [escapeAll, if_neg hpair]
    intro x hx
    rcases List.mem_append.mp hx with hx | hx
    · exact isPrintable_escape c x hx
    · exact ih x hx

theorem isPrintable_quote (s : JsString) : ∀ x ∈ quote s, isPrintable x := by
  intro x hx
  rcases List.mem_cons.mp hx with rfl | hx
  · decide
  · rcases List.mem_append.mp hx with hx | hx
    · exact isPrintable_escapeAll s x hx
    · rw [List.mem_singleton.mp hx]
      decide

theorem isPrintable_print (d : Decimal) : ∀ x ∈ d.print, isPrintable x := by
  intro x hx
  rcases Decimal.mem_print hx with hdigit | hmark
  · have h30 : (0x30 : UInt16).toNat = 48 := rfl
    have h20 : (0x20 : UInt16).toNat = 32 := rfl
    simp only [Decimal.isDigit, Bool.and_eq_true, decide_eq_true_eq,
      UInt16.le_iff_toNat_le] at hdigit
    simp only [isPrintable, Bool.not_eq_true', decide_eq_false_iff_not, UInt16.lt_iff_toNat_lt]
    omega
  · have hall : ∀ x ∈ js "-.e+", isPrintable x := List.all_eq_true.mp rfl
    exact hall x hmark

/-- A key, its value, and what follows. -/
theorem isPrintable_member {k : JsString} {v rest : JsString} (hv : ∀ x ∈ v, isPrintable x)
    (hrest : ∀ x ∈ rest, isPrintable x) :
    ∀ x ∈ quote k ++ unit ':' :: (v ++ rest), isPrintable x := by
  intro x hx
  rcases List.mem_append.mp hx with hx | hx
  · exact isPrintable_quote k x hx
  · rcases List.mem_cons.mp hx with rfl | hx
    · decide
    · rcases List.mem_append.mp hx with hx | hx
      · exact hv x hx
      · exact hrest x hx

mutual

/-- **A text is on one line**: control characters are escaped, in whatever strings. -/
theorem isPrintable_stringify : ∀ (v : Json), ∀ x ∈ stringify v, isPrintable x
  | .null => List.all_eq_true.mp rfl
  | .bool true => List.all_eq_true.mp rfl
  | .bool false => List.all_eq_true.mp rfl
  | .num d => isPrintable_print d
  | .str s => isPrintable_quote s
  | .arr [] => List.all_eq_true.mp rfl
  | .arr (v :: l) => by
      intro x hx
      rcases List.mem_cons.mp hx with rfl | hx
      · decide
      · rcases List.mem_append.mp hx with hx | hx
        · exact isPrintable_stringify v x hx
        · exact isPrintable_stringifyItems l x hx
  | .obj [] => List.all_eq_true.mp rfl
  | .obj ((k, v) :: l) => by
      intro x hx
      rcases List.mem_cons.mp hx with rfl | hx
      · decide
      · exact isPrintable_member (isPrintable_stringify v) (isPrintable_stringifyMembers l) x hx

theorem isPrintable_stringifyItems : ∀ (l : List Json), ∀ x ∈ stringifyItems l, isPrintable x
  | [] => List.all_eq_true.mp rfl
  | v :: l => by
      intro x hx
      rcases List.mem_cons.mp hx with rfl | hx
      · decide
      · rcases List.mem_append.mp hx with hx | hx
        · exact isPrintable_stringify v x hx
        · exact isPrintable_stringifyItems l x hx

theorem isPrintable_stringifyMembers : ∀ (l : List (JsString × Json)),
    ∀ x ∈ stringifyMembers l, isPrintable x
  | [] => List.all_eq_true.mp rfl
  | (k, v) :: l => by
      intro x hx
      rcases List.mem_cons.mp hx with rfl | hx
      · decide
      · exact isPrintable_member (isPrintable_stringify v) (isPrintable_stringifyMembers l) x hx

end

/-- White space of a JSON text. -/
def isBlank (c : UInt16) : Bool := c = 0x20 || c = 0x09 || c = 0x0A || c = 0x0D

/-- The text behind white space. -/
def skipBlanks (t : JsString) : JsString := t.dropWhile isBlank

/-- A key and the colon after it. -/
def readKey (t : JsString) : Option (JsString × JsString) :=
  match skipBlanks t with
  | [] => none
  | c :: t =>
      if c = unit '"' then
        (readString t).bind fun (k, t) =>
          match skipBlanks t with
          | [] => none
          | c :: t => if c = unit ':' then some (k, t) else none
      else none

mutual

/-- A value at the front of a text, and the rest; the number bounds the recursion. -/
def readValue : Nat → JsString → Option (Json × JsString)
  | 0, _ => none
  | n + 1, t =>
      let t := skipBlanks t
      if (js "null").isPrefixOf t then some (.null, t.drop 4)
      else if (js "true").isPrefixOf t then some (.bool true, t.drop 4)
      else if (js "false").isPrefixOf t then some (.bool false, t.drop 5)
      else
        match t with
        | [] => none
        | c :: t' =>
            if c = unit '"' then (readString t').map fun (s, rest) => (.str s, rest)
            else if c = unit '[' then
              if (js "]").isPrefixOf (skipBlanks t') then some (.arr [], (skipBlanks t').drop 1)
              else (readItems n t').map fun (l, rest) => (.arr l, rest)
            else if c = unit '\x7b' then
              if [unit '\x7d'].isPrefixOf (skipBlanks t') then
                some (.obj [], (skipBlanks t').drop 1)
              else (readMembers n t').map fun (l, rest) => (.obj l, rest)
            else (Decimal.read t).map fun (d, rest) => (.num d, rest)

/-- Items up to the closing bracket. -/
def readItems : Nat → JsString → Option (List Json × JsString)
  | 0, _ => none
  | n + 1, t =>
      (readValue n t).bind fun (v, t) =>
        match skipBlanks t with
        | [] => none
        | c :: t =>
            if c = unit ']' then some ([v], t)
            else if c = unit ',' then (readItems n t).map fun (l, rest) => (v :: l, rest)
            else none

/-- Members up to the closing brace. -/
def readMembers : Nat → JsString → Option (List (JsString × Json) × JsString)
  | 0, _ => none
  | n + 1, t =>
      (readKey t).bind fun (k, t) =>
        (readValue n t).bind fun (v, t) =>
          match skipBlanks t with
          | [] => none
          | c :: t =>
              if c = unit '\x7d' then some ([(k, v)], t)
              else if c = unit ',' then (readMembers n t).map fun (l, rest) => ((k, v) :: l, rest)
              else none

end

/-- `JSON.parse(t)`; `none` is a `SyntaxError`. -/
def parse (t : JsString) : Option Json :=
  (readValue (2 * t.length + 1) t).bind fun (v, rest) =>
    if skipBlanks rest = [] then some v else none

/-! ## Reading a text back

By induction on the value, with whatever stands behind its text; only a number needs that
not to go on with it. -/

theorem skipBlanks_cons {c : UInt16} (hc : isBlank c = false) (t : JsString) :
    skipBlanks (c :: t) = c :: t := List.dropWhile_cons_of_neg (by simp [hc])

theorem not_number_head :
    ∀ x ∈ js "\"[]\x7b\x7dntf \n\r\t", ¬ (Decimal.isDigit x = true ∨ x = unit '-') := by
  have hall : (js "\"[]\x7b\x7dntf \n\r\t").all
      (fun x => ¬ (Decimal.isDigit x = true ∨ x = unit '-')) = true := rfl
  intro x hx
  exact of_decide_eq_true (List.all_eq_true.mp hall x hx)

/-- What a number literal begins with is neither blank nor the beginning of
another kind of value. -/
theorem print_head (d : Decimal) :
    ∃ c s, d.print = c :: s ∧ ∀ x ∈ js "\"[]\x7b\x7dntf \n\r\t", c ≠ x := by
  obtain ⟨c, s, hs, hc⟩ : ∃ c s, d.print = c :: s ∧ (Decimal.isDigit c = true ∨ c = unit '-') := by
    cases hneg : d.neg with
    | true => exact ⟨unit '-', _, by simp only [Decimal.print, hneg, if_true]; rfl, Or.inr rfl⟩
    | false =>
      obtain ⟨c, s, hs, hc⟩ := Decimal.digits_head d.int
      exact ⟨c, _, by simp only [Decimal.print, hneg, hs]; rfl, Or.inl hc⟩
  refine ⟨c, s, hs, ?_⟩
  rintro x hx rfl
  exact not_number_head c hx hc

theorem isBlank_print {c : UInt16} (hc : ∀ x ∈ js "\"[]\x7b\x7dntf \n\r\t", c ≠ x) :
    isBlank c = false := by
  simp only [isBlank, Bool.or_eq_false_iff, decide_eq_false_iff_not]
  exact ⟨⟨⟨hc 0x20 (by decide), hc 0x09 (by decide)⟩, hc 0x0A (by decide)⟩, hc 0x0D (by decide)⟩

/-- The unit a value's text begins with. -/
theorem stringify_head (v : Json) :
    ∃ c s, stringify v = c :: s ∧ isBlank c = false ∧ c ≠ unit ']' := by
  cases v with
  | null => exact ⟨_, _, rfl, by decide, by decide⟩
  | bool b => cases b <;> exact ⟨_, _, rfl, by decide, by decide⟩
  | num d =>
    obtain ⟨c, s, hs, hc⟩ := print_head d
    exact ⟨c, s, by rw [stringify, hs], isBlank_print hc, hc _ (by decide)⟩
  | str s => exact ⟨_, _, rfl, by decide, by decide⟩
  | arr items => cases items <;> exact ⟨_, _, rfl, by decide, by decide⟩
  | obj members =>
    cases members with
    | nil => exact ⟨_, _, rfl, by decide, by decide⟩
    | cons m members => exact ⟨_, _, rfl, by decide, by decide⟩

theorem isPrefixOf_cons_of_ne {c d : UInt16} (h : c ≠ d) (w t : JsString) :
    (d :: w).isPrefixOf (c :: t) = false := by
  show (d == c && w.isPrefixOf t) = false
  rw [beq_false_of_ne (Ne.symm h), Bool.false_and]

theorem readValue_number (n : Nat) (d : Decimal) {t : JsString} (ht : Decimal.Ends t) :
    readValue (n + 1) (d.print ++ t) = some (.num d, t) := by
  have hread := Decimal.read_print d ht
  obtain ⟨c, s, hs, hc⟩ := print_head d
  rw [hs, List.cons_append] at hread ⊢
  have hnull : (js "null").isPrefixOf (c :: (s ++ t)) = false :=
    isPrefixOf_cons_of_ne (hc _ (by decide)) _ _
  have htrue : (js "true").isPrefixOf (c :: (s ++ t)) = false :=
    isPrefixOf_cons_of_ne (hc _ (by decide)) _ _
  have hfalse : (js "false").isPrefixOf (c :: (s ++ t)) = false :=
    isPrefixOf_cons_of_ne (hc _ (by decide)) _ _
  rw [readValue.eq_def]
  simp only [skipBlanks_cons (isBlank_print hc), hnull, htrue, hfalse, hread,
    if_neg (hc (unit '"') (by decide)), if_neg (hc (unit '[') (by decide)),
    if_neg (hc (unit '\x7b') (by decide))]
  rfl

theorem readValue_quote (n : Nat) (s t : JsString) :
    readValue (n + 1) (quote s ++ t) = some (.str s, t) := by
  have hopen : readValue (n + 1) (quote s ++ t) =
      (readString (escapeAll s ++ [unit '"'] ++ t)).map fun (s, rest) => (.str s, rest) := rfl
  rw [hopen, List.append_assoc, List.singleton_append, readString_escapeAll]
  rfl

theorem readValue_bracket (n : Nat) {c : UInt16} (hblank : isBlank c = false)
    (hne : c ≠ unit ']') (t : JsString) :
    readValue (n + 1) (unit '[' :: c :: t) =
      (readItems n (c :: t)).map fun (l, rest) => (.arr l, rest) := by
  have hopen : readValue (n + 1) (unit '[' :: c :: t) =
      if (js "]").isPrefixOf (skipBlanks (c :: t)) then
        some (.arr [], (skipBlanks (c :: t)).drop 1)
      else (readItems n (c :: t)).map fun (l, rest) => (.arr l, rest) := rfl
  have hclose : (js "]").isPrefixOf (c :: t) = false := isPrefixOf_cons_of_ne hne _ _
  rw [hopen, skipBlanks_cons hblank, hclose]
  rfl

theorem readKey_quote (k t : JsString) :
    readKey (quote k ++ unit ':' :: t) = some (k, t) := by
  have hopen : readKey (quote k ++ unit ':' :: t) =
      (readString (escapeAll k ++ [unit '"'] ++ unit ':' :: t)).bind fun (k, t) =>
          match skipBlanks t with
          | [] => none
          | c :: t => if c = unit ':' then some (k, t) else none := rfl
  rw [hopen, List.append_assoc, List.singleton_append, readString_escapeAll]
  rfl

theorem ends_items (l : List Json) (t : JsString) : Decimal.Ends (stringifyItems l ++ t) := by
  cases l with
  | nil => exact Decimal.Ends.cons (by decide) _
  | cons v l => exact Decimal.Ends.cons (by decide) _

theorem ends_members (l : List (JsString × Json)) (t : JsString) :
    Decimal.Ends (stringifyMembers l ++ t) := by
  cases l with
  | nil => exact Decimal.Ends.cons (by decide) _
  | cons m l => exact Decimal.Ends.cons (by decide) _

mutual

theorem readValue_stringify : ∀ (v : Json) {n : Nat} {t : JsString}, Decimal.Ends t →
    2 * (stringify v).length ≤ n → readValue n (stringify v ++ t) = some (v, t)
  | .null, n + 1, _, _, _ => rfl
  | .bool true, n + 1, _, _, _ => rfl
  | .bool false, n + 1, _, _, _ => rfl
  | .num d, n + 1, _, ht, _ => readValue_number n d ht
  | .str s, n + 1, t, _, _ => readValue_quote n s t
  | .arr [], n + 1, t, _, _ => rfl
  | .arr (v :: l), n + 1, t, _, hn => by
      have hitems : readItems n (stringify v ++ (stringifyItems l ++ t)) = some (v :: l, t) :=
        readItems_stringify l (fun hm => readValue_stringify v (ends_items l t) hm) (by
          simp only [stringify, List.length_cons, List.length_append] at hn ⊢
          omega)
      obtain ⟨c, s, hs, hblank, hne⟩ := stringify_head v
      simp only [hs, List.cons_append] at hitems
      simp only [stringify, List.cons_append, List.append_assoc, hs]
      rw [readValue_bracket n hblank hne, hitems]
      rfl
  | .obj [], n + 1, _, _, _ => rfl
  | .obj ((k, v) :: l), n + 1, t, _, hn => by
      have hmembers : readMembers n
          (quote k ++ unit ':' :: (stringify v ++ (stringifyMembers l ++ t))) =
            some ((k, v) :: l, t) :=
        readMembers_stringify l (fun hm => readValue_stringify v (ends_members l t) hm) (by
          simp only [stringify, List.length_cons, List.length_append] at hn ⊢
          omega)
      have hopen : readValue (n + 1) (stringify (.obj ((k, v) :: l)) ++ t) =
          (readMembers n (quote k ++ unit ':' :: (stringify v ++ stringifyMembers l) ++ t)).map
            fun (l, rest) => (.obj l, rest) := rfl
      rw [hopen]
      simp only [List.append_assoc, List.cons_append, hmembers]
      rfl
  | v, 0, t, _, hn => by
      obtain ⟨c, s, hs, -⟩ := stringify_head v
      rw [hs] at hn
      exact absurd hn (by simp)

theorem readItems_stringify : ∀ (l : List Json) {v : Json} {n : Nat} {t : JsString},
    (∀ {m : Nat}, 2 * (stringify v).length ≤ m →
      readValue m (stringify v ++ (stringifyItems l ++ t)) = some (v, stringifyItems l ++ t)) →
    2 * (stringify v ++ stringifyItems l).length < n →
    readItems n (stringify v ++ (stringifyItems l ++ t)) = some (v :: l, t)
  | [], v, n + 1, t, hv, hn => by
      rw [readItems, hv (by rw [List.length_append] at hn; omega)]
      rfl
  | w :: l, v, n + 1, t, hv, hn => by
      have hrest : readItems n (stringify w ++ (stringifyItems l ++ t)) = some (w :: l, t) :=
        readItems_stringify l (fun hm => readValue_stringify w (ends_items l t) hm) (by
          simp only [stringifyItems, List.length_cons, List.length_append] at hn ⊢
          omega)
      have hcomma : stringifyItems (w :: l) ++ t =
          unit ',' :: (stringify w ++ (stringifyItems l ++ t)) := by
        simp only [stringifyItems, List.cons_append, List.append_assoc]
      rw [readItems, hv (by rw [List.length_append] at hn; omega), hcomma]
      show (readItems n (stringify w ++ (stringifyItems l ++ t))).map _ = _
      rw [hrest]
      rfl

theorem readMembers_stringify : ∀ (l : List (JsString × Json)) {k : JsString} {v : Json} {n : Nat}
    {t : JsString},
    (∀ {m : Nat}, 2 * (stringify v).length ≤ m →
      readValue m (stringify v ++ (stringifyMembers l ++ t)) = some (v, stringifyMembers l ++ t)) →
    2 * (quote k ++ unit ':' :: (stringify v ++ stringifyMembers l)).length < n →
    readMembers n (quote k ++ unit ':' :: (stringify v ++ (stringifyMembers l ++ t))) =
      some ((k, v) :: l, t)
  | [], k, v, n + 1, t, hv, hn => by
      rw [readMembers, readKey_quote]
      show (readValue n _).bind _ = _
      rw [hv (by simp only [List.length_cons, List.length_append] at hn; omega)]
      rfl
  | (k', w) :: l, k, v, n + 1, t, hv, hn => by
      have hrest : readMembers n
          (quote k' ++ unit ':' :: (stringify w ++ (stringifyMembers l ++ t))) =
            some ((k', w) :: l, t) :=
        readMembers_stringify l (fun hm => readValue_stringify w (ends_members l t) hm) (by
          simp only [stringifyMembers, List.length_cons, List.length_append] at hn ⊢
          omega)
      have hcomma : stringifyMembers ((k', w) :: l) ++ t =
          unit ',' :: (quote k' ++ unit ':' :: (stringify w ++ (stringifyMembers l ++ t))) := by
        simp only [stringifyMembers, List.cons_append, List.append_assoc]
      rw [readMembers, readKey_quote]
      show (readValue n _).bind _ = _
      rw [hv (by simp only [List.length_cons, List.length_append] at hn; omega), hcomma]
      show (readMembers n _).map _ = _
      rw [hrest]
      rfl

end

/-- **`JSON.parse` inverts `JSON.stringify`.** -/
theorem parse_stringify (v : Json) : parse (stringify v) = some v := by
  have hread : readValue (2 * (stringify v).length + 1) (stringify v ++ []) = some (v, []) :=
    readValue_stringify v (fun c hc => by cases hc) (by omega)
  rw [List.append_nil] at hread
  unfold parse
  rw [hread]
  rfl

end Json
