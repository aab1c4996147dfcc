import Mathlib

/-!
# JSON values

As far as a handler looks into them: arrays, objects, strings, and everything else by its text.
Object access follows `serde_json`: indexing a missing key reads as absent, and removing a key from
a value that is no object is a programming error, here `none`.
-/

namespace Lib

inductive Value where
  | other (text : String)
  | string (s : String)
  | array (items : List Value)
  | object (fields : List (String × Value))

namespace Value

def isString : Value → Bool
  | string _ => true
  | _ => false

/-- Equality with `json!(true)`. -/
def isTrue : Value → Bool
  | other text => text = "true"
  | _ => false

def get? (key : String) : Value → Option Value
  | object fields => (fields.find? fun f => f.1 = key).map fun f => f.2
  | _ => none

/-- `as_object_mut().unwrap().remove(key)`. -/
def remove (key : String) : Value → Option Value
  | object fields => some (object (fields.filter fun f => f.1 ≠ key))
  | _ => none

/-- `insert` of an object: the key's value from now on. -/
def insert (key : String) (value : Value) : Value → Value
  | object fields => object (fields.filter (fun f => f.1 ≠ key) ++ [(key, value)])
  | v => v

/-- `v[key] = value` for a key that is present. -/
def set (key : String) (value : Value) : Value → Value
  | object fields => object (fields.map fun f => if f.1 = key then (key, value) else f)
  | v => v

mutual
def render : Value → String
  | other text => text
  | string s => "\"" ++ s ++ "\""
  | array items => "[" ++ renderItems items ++ "]"
  | object fields => "\x7b" ++ renderFields fields ++ "\x7d"

def renderItems : List Value → String
  | [] => ""
  | [v] => v.render
  | v :: vs => v.render ++ "," ++ renderItems vs

def renderFields : List (String × Value) → String
  | [] => ""
  | [(k, v)] => "\"" ++ k ++ "\":" ++ v.render
  | (k, v) :: fs => "\"" ++ k ++ "\":" ++ v.render ++ "," ++ renderFields fs
end

end Value

end Lib
