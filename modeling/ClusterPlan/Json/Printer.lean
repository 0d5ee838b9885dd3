import ClusterPlan.Decimal.Shortest
import ClusterPlan.Json.Basic
import ClusterPlan.Text.Basic

/-!
JSON text without spaces. Only quotes, backslashes and control characters are escaped.
-/

namespace ClusterPlan.Json

def escapedChar (c : Char) : String :=
  if c = '"' then "\\\""
  else if c = '\\' then "\\\\"
  else if c.toNat = 8 then "\\b"
  else if c.toNat = 12 then "\\f"
  else if c = '\n' then "\\n"
  else if c = '\r' then "\\r"
  else if c = '\t' then "\\t"
  else if c.toNat < 0x20 then "\\u" ++ Text.hex 4 c.toNat
  else c.toString

def quote (s : String) : String := "\"" ++ String.join (s.toList.map escapedChar) ++ "\""

mutual

def render : Json → String
  | .null | .unreadable => "null"
  | .bool b => if b then "true" else "false"
  | .int n => toString n
  | .real x => Decimal.write x
  | .text s => quote s
  | .array items => "[" ++ Text.join "," (renderList items) ++ "]"
  | .object fields => "\x7b" ++ Text.join "," (renderFields fields) ++ "\x7d"

def renderList : List Json → List String
  | [] => []
  | j :: rest => render j :: renderList rest

def renderFields : List (String × Json) → List String
  | [] => []
  | (name, j) :: rest => (quote name ++ ":" ++ render j) :: renderFields rest

end

end ClusterPlan.Json
