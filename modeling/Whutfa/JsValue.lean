import Whutfa.Json

/-! # Reading parsed values

What JavaScript code does with a value that `JSON.parse` gave it: property reads,
comparisons with a string, and the conversions `String` and `Number`.  Reading a
property of `null` throws, and so does converting an object with a `toString` of its
own.  The text of a number and the number of a text are parameters.
-/

open JsString

namespace JsValue

/-- A thrown `TypeError`. -/
inductive TypeError
  | typeError
  deriving DecidableEq

/-- `v.key`; `none` is `undefined`.  A parsed value inherits no property of the
names that are read here. -/
def property (v : Json) (key : JsString) : Except TypeError (Option Json) :=
  match v with
  | .null => throw .typeError
  | .obj members => pure (Json.get members key)
  | _ => pure none

/-- `v === text`. -/
def isText (v : Option Json) (text : JsString) : Bool :=
  match v with
  | some (.str s) => s = text
  | _ => false

section

-- how a number becomes a string, and a string a number
variable (numberText : Decimal → JsString) (textNumber : JsString → Option ℚ)

mutual

/-- `String(v)`. -/
def toText : Json → Except TypeError JsString
  | .null => pure (js "null")
  | .bool true => pure (js "true")
  | .bool false => pure (js "false")
  | .num d => pure (numberText d)
  | .str s => pure s
  | .arr items => do
      let texts ← itemTexts items
      pure (List.intercalate [unit ','] texts)
  | .obj members =>
      -- an own `toString` is not callable, and `valueOf` gives no primitive
      if (Json.get members (js "toString")).isSome then throw .typeError
      else pure (js "[object Object]")

/-- The texts that `join` puts together: `null` is empty. -/
def itemTexts : List Json → Except TypeError (List JsString)
  | [] => pure []
  | .null :: l => do
      let texts ← itemTexts l
      pure ([] :: texts)
  | v :: l => do
      let s ← toText v
      let texts ← itemTexts l
      pure (s :: texts)

end

/-- A property in a template string. -/
def templateText : Option Json → Except TypeError JsString
  | none => pure (js "undefined")
  | some v => toText numberText v

/-- `v ?? ""`. -/
def orEmpty : Option Json → Json
  | none => .str []
  | some .null => .str []
  | some v => v

/-- `Number(v)`; `none` is a number that is not finite. -/
def toNumber : Option Json → Except TypeError (Option ℚ)
  | none => pure none
  | some .null => pure (some 0)
  | some (.bool b) => pure (some (if b then 1 else 0))
  | some (.num d) => pure (some d.value)
  | some v => do
      let s ← toText numberText v
      pure (textNumber s)

end

end JsValue
