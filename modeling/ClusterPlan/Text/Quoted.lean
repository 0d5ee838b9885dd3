import ClusterPlan.Text.Basic
import ClusterPlan.Text.Visible

/-!
Text in double quotes, with a backslash before quotes and backslashes, letters for the usual
controls, and the code point in braces for all that is not visible.
-/

namespace ClusterPlan.Text

def quotedChar (c : Char) : String :=
  if c = '"' then "\\\""
  else if c = '\\' then "\\\\"
  else if c = '\n' then "\\n"
  else if c = '\r' then "\\r"
  else if c = '\t' then "\\t"
  else if c.toNat = 0 then "\\0"
  else if isVisible c then c.toString
  else "\\u\x7b" ++ hex 1 c.toNat ++ "\x7d"

def quoted (s : String) : String := "\"" ++ String.join (s.toList.map quotedChar) ++ "\""

def quotedList (texts : List String) : String := "[" ++ join ", " (texts.map quoted) ++ "]"

end ClusterPlan.Text
