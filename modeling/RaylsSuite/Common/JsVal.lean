import Mathlib.Data.List.Infix
import RaylsSuite.Common.Poll

/-! # JavaScript values in a diagnostic

The messages of the waits render a value of the caller's type with
`JSON.stringify`, and a thrown value by its `message` or with `String`. Neither
is defined on every value.
-/

namespace RaylsSuite.Common

open Foundation

/-- A number; a finite one other than zero is known by its decimal text. -/
inductive JsNumber where
  | nan
  | infinity (negative : Bool)
  | zero (negative : Bool)
  | finite (text : String)
deriving DecidableEq, Repr

/-- A value of any type. An object is known by how it renders: `json` is how `JSON.stringify`
ends on it, which has no text for a function, and `text` is how the template of its `message`
or else of its `String` ends. -/
inductive JsVal where
  | undefined
  | null
  | boolean (value : Bool)
  | number (value : JsNumber)
  | bigint (value : Int)
  | string (value : String)
  | symbol (description : String)
  | error (name message : String)
  | object (json : Except JsVal (Option String)) (text : Except JsVal String)

namespace JsVal

/-- The value as a condition. -/
def truthy : JsVal → Bool
  | .undefined | .null | .number .nan | .number (.zero _) => false
  | .boolean value => value
  | .bigint value => value ≠ 0
  | .string value => value ≠ ""
  | _ => true

def hexDigit (n : Nat) : Char := "0123456789abcdef".toList.getD n '0'

/-- A character inside a JSON string. -/
def jsonChar (char : Char) : List Char :=
  match char with
  | '"' => ['\\', '"']
  | '\\' => ['\\', '\\']
  | '\x08' => ['\\', 'b']
  | '\x0c' => ['\\', 'f']
  | '\n' => ['\\', 'n']
  | '\r' => ['\\', 'r']
  | '\t' => ['\\', 't']
  | char =>
      if char.toNat < 0x20 then
        ['\\', 'u', '0', '0', hexDigit (char.toNat / 16), hexDigit (char.toNat % 16)]
      else [char]

def jsonString (text : String) : String :=
  String.ofList ('"' :: text.toList.flatMap jsonChar ++ ['"'])

def typeError (message : String) : JsVal := .error "TypeError" message

/-- `${JSON.stringify(value)}`. -/
def stringify : JsVal → Except JsVal String
  | .undefined | .symbol _ => .ok "undefined"
  | .null | .number .nan | .number (.infinity _) => .ok "null"
  | .boolean value => .ok (toString value)
  | .number (.zero _) => .ok "0"
  | .number (.finite text) => .ok text
  | .bigint _ => .error (typeError "Do not know how to serialize a BigInt")
  | .string value => .ok (jsonString value)
  | .error _ _ => .ok "\x7b\x7d"
  | .object json _ => json.map fun text => text.getD "undefined"

/-- `${err?.message ?? String(err)}`. -/
def describe : JsVal → Except JsVal String
  | .undefined => .ok "undefined"
  | .null => .ok "null"
  | .boolean value => .ok (toString value)
  | .number .nan => .ok "NaN"
  | .number (.infinity negative) => .ok (if negative then "-Infinity" else "Infinity")
  | .number (.zero _) => .ok "0"
  | .number (.finite text) => .ok text
  | .bigint value => .ok (toString value)
  | .string value => .ok value
  | .symbol description => .ok s!"Symbol({description})"
  | .error _ message => .ok message
  | .object _ text => text

def isUndefined : JsVal → Bool
  | .undefined => true
  | _ => false

/-- `JSON.stringify` takes the value: it is no bigint and no object that it refuses. -/
def Serialisable : JsVal → Prop
  | .bigint _ => False
  | .object json _ => ∃ text, json = .ok text
  | _ => True

/-- The thrown value has a text: it is no object without one. -/
def Describable : JsVal → Prop
  | .object _ text => ∃ shown, text = .ok shown
  | _ => True

theorem stringify_ok_iff (value : JsVal) :
    (∃ text, value.stringify = .ok text) ↔ value.Serialisable := by
  cases value with
  | bigint value => simp [stringify, Serialisable]
  | object json text => cases json <;> simp [stringify, Serialisable, Except.map]
  | number value => cases value <;> simp [stringify, Serialisable]
  | _ => simp [stringify, Serialisable]

theorem describe_ok_iff (err : JsVal) : (∃ text, err.describe = .ok text) ↔ err.Describable := by
  cases err with
  | object json text => rfl
  | number value => cases value <;> simp [describe, Describable]
  | _ => simp [describe, Describable]

end JsVal

instance : JsValue JsVal JsVal := ⟨JsVal.truthy, JsVal.stringify⟩

instance : Thrown JsVal := ⟨JsVal.error "Error", JsVal.isUndefined, JsVal.describe⟩

end RaylsSuite.Common
