import Mathlib.Data.List.Basic

/-- The text of a finite double. It is told apart from an integer by its
point or its exponent, and it has no character that ends a value. -/
structure FloatText where
  text : String
  plain : ∀ c ∈ text.toList, c.isDigit ∨ c ∈ ['-', '+', '.', 'e']
  marked : ∃ c ∈ text.toList, c ∈ ['.', 'e']

inductive JsonNumber where
  | int (z : Int)
  | float (text : FloatText)

/-- A parsed document. The fields of an object stand in the order of the
map that holds them. -/
inductive Json where
  | null
  | bool (b : Bool)
  | number (n : JsonNumber)
  | string (s : String)
  | array (items : List Json)
  | object (fields : List (String × Json))

namespace JsonNumber

def text : JsonNumber → String
  | int z => z.repr
  | float t => t.text

end JsonNumber

namespace Json

/-- Insertion into a map sorted by key; an entry under the same key is replaced. -/
def insertField (key : String) (value : Json) : List (String × Json) → List (String × Json)
  | [] => [(key, value)]
  | (k, v) :: rest =>
    if key = k then (key, value) :: rest
    else if key < k then (key, value) :: (k, v) :: rest
    else (k, v) :: insertField key value rest

def ofFields (fields : List (String × Json)) : Json :=
  object (fields.foldl (fun map field => insertField field.1 field.2 map) [])

def get? (key : String) : Json → Option Json
  | object fields => fields.lookup key
  | _ => none

def asStr? : Json → Option String
  | string s => some s
  | _ => none

def asArray? : Json → Option (List Json)
  | array items => some items
  | _ => none

def hexDigit (d : Nat) : Char :=
  if d < 10 then Char.ofNat (48 + d) else Char.ofNat (87 + d)

/-- How a character stands between the quotes of a printed string. -/
def escapeChar (c : Char) : List Char :=
  if c = '"' then ['\\', '"']
  else if c = '\\' then ['\\', '\\']
  else if c = '\x08' then ['\\', 'b']
  else if c = '\x0c' then ['\\', 'f']
  else if c = '\n' then ['\\', 'n']
  else if c = '\r' then ['\\', 'r']
  else if c = '\t' then ['\\', 't']
  else if c.toNat < 32 then
    ['\\', 'u', '0', '0', hexDigit (c.toNat / 16), hexDigit (c.toNat % 16)]
  else [c]

def escape (s : List Char) : List Char :=
  s.flatMap escapeChar

def quote (s : String) : List Char :=
  '"' :: (escape s.toList ++ ['"'])

mutual

/-- The compact text of a document, without any blank. -/
def compact : Json → List Char
  | null => ['n', 'u', 'l', 'l']
  | bool true => ['t', 'r', 'u', 'e']
  | bool false => ['f', 'a', 'l', 's', 'e']
  | number n => n.text.toList
  | string s => quote s
  | array [] => ['[', ']']
  | array (v :: rest) => '[' :: (compact v ++ compactItems rest)
  | object [] => ['\x7b', '\x7d']
  | object ((k, v) :: rest) => '\x7b' :: (quote k ++ ':' :: (compact v ++ compactFields rest))

def compactItems : List Json → List Char
  | [] => [']']
  | v :: rest => ',' :: (compact v ++ compactItems rest)

def compactFields : List (String × Json) → List Char
  | [] => ['\x7d']
  | (k, v) :: rest => ',' :: (quote k ++ ':' :: (compact v ++ compactFields rest))

end

def toCompactString (v : Json) : String :=
  String.ofList (compact v)

end Json
