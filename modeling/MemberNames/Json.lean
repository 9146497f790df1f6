import MemberNames.Text.Basic

/-!
# JSON values

* `Json`: JSON values, objects as lists of pairs in the order in which they are written
* `Json.escape`: one character of a string
* `Json.render`: the compact form of a value
-/

namespace MemberNames

inductive Json where
  | null
  | bool (b : Bool)
  /-- A number by its numeral. -/
  | number (numeral : Text)
  | text (s : Text)
  | list (items : List Json)
  | object (fields : List (Text × Json))
  deriving Inhabited, Repr

namespace Json

/-- A character of a string. Only quotes, backslashes and the controls below the space are
escaped. -/
def escape (c : Char) : Text :=
  if c = '"' then ['\\', '"']
  else if c = '\\' then ['\\', '\\']
  else if c = '\n' then ['\\', 'n']
  else if c = '\r' then ['\\', 'r']
  else if c = '\t' then ['\\', 't']
  else if c = '\x08' then ['\\', 'b']
  else if c = '\x0c' then ['\\', 'f']
  else if c.toNat < 0x20 then
    ['\\', 'u', '0', '0', Nat.digitChar (c.toNat / 16), Nat.digitChar (c.toNat % 16)]
  else [c]

def quote (s : Text) : Text :=
  '"' :: s.flatMap escape ++ ['"']

mutual

/-- The compact form: no white space between tokens. -/
def render : Json → Text
  | .null => "null".toList
  | .bool true => "true".toList
  | .bool false => "false".toList
  | .number numeral => numeral
  | .text s => quote s
  | .list items => '[' :: renderItems items ++ [']']
  | .object fields => '\x7b' :: renderFields fields ++ ['\x7d']

def renderItems : List Json → Text
  | [] => []
  | [item] => render item
  | item :: items => render item ++ ',' :: renderItems items

def renderFields : List (Text × Json) → Text
  | [] => []
  | [(key, value)] => quote key ++ ':' :: render value
  | (key, value) :: fields => quote key ++ ':' :: (render value ++ ',' :: renderFields fields)

end

end Json
end MemberNames
