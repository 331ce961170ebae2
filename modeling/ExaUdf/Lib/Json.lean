import Mathlib.Tactic.Common

/-!
# JSON values and their compact text

`Json.render` writes a value without blanks.  Objects keep their members as given; `Json.object`
puts them in the order of their keys, as a sorted map does.
-/

/-- A JSON value; a number is kept as its text. -/
inductive Json where
  | null
  | bool (b : Bool)
  | number (text : String)
  | string (s : String)
  | array (items : List Json)
  | object (members : List (String × Json))

namespace Json

def hexDigit (n : Nat) : Char :=
  ("0123456789abcdef".toList).getD n '0'

/-- A character inside a JSON string. -/
def escapeChar (c : Char) : List Char :=
  if c = '"' then ['\\', '"']
  else if c = '\\' then ['\\', '\\']
  else if c.toNat = 8 then ['\\', 'b']
  else if c.toNat = 9 then ['\\', 't']
  else if c.toNat = 10 then ['\\', 'n']
  else if c.toNat = 12 then ['\\', 'f']
  else if c.toNat = 13 then ['\\', 'r']
  else if c.toNat < 32 then ['\\', 'u', '0', '0', hexDigit (c.toNat / 16), hexDigit (c.toNat % 16)]
  else [c]

def renderString (s : String) : List Char :=
  ['"'] ++ s.toList.flatMap escapeChar ++ ['"']

mutual

/-- The compact text of a value. -/
def renderChars : Json → List Char
  | null => "null".toList
  | bool b => if b then "true".toList else "false".toList
  | number text => text.toList
  | string s => renderString s
  | array items => ['['] ++ renderItems items ++ [']']
  | object members => [Char.ofNat 123] ++ renderMembers members ++ [Char.ofNat 125]

def renderItems : List Json → List Char
  | [] => []
  | [item] => renderChars item
  | item :: items => renderChars item ++ [','] ++ renderItems items

def renderMembers : List (String × Json) → List Char
  | [] => []
  | [(key, value)] => renderString key ++ [':'] ++ renderChars value
  | (key, value) :: members =>
    renderString key ++ [':'] ++ renderChars value ++ [','] ++ renderMembers members

end

def render (v : Json) : String :=
  String.ofList (renderChars v)

/-- An object whose members are in the order of their keys. -/
def sorted (members : List (String × Json)) : Json :=
  object (members.mergeSort fun a b => a.1 ≤ b.1)

/-- The first member with the given key. -/
def get? (key : String) : Json → Option Json
  | object members => (members.find? fun m => m.1 == key).map Prod.snd
  | _ => none

def string? : Json → Option String
  | string s => some s
  | _ => none

def array? : Json → Option (List Json)
  | array items => some items
  | _ => none

/-- Absent values are `null`. -/
def ofOption {α : Type} (f : α → Json) : Option α → Json
  | none => null
  | some a => f a

end Json
