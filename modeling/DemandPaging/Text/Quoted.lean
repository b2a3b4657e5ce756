import DemandPaging.Text.Unprintable

/-!
# Quoted text

A text inside a diagnostic stands in double quotes. A quote and a backslash are preceded by a
backslash, the usual controls have letters, and every other character without a shape is spelled
by its number.
-/

namespace DemandPaging.Text

/-- How one character is written inside quotes. -/
def quoteChar (c : Char) : String :=
  if c = '"' then "\\\""
  else if c = '\\' then "\\\\"
  else if c = '\n' then "\\n"
  else if c = '\r' then "\\r"
  else if c = '\t' then "\\t"
  else if c.toNat = 0 then "\\0"
  else if c.toNat < 0x20 || isUnprintable c then
    "\\u\x7b" ++ String.ofList (Nat.toDigits 16 c.toNat) ++ "\x7d"
  else c.toString

/-- The text in quotes. -/
def quote (s : String) : String :=
  "\"" ++ String.join (s.toList.map quoteChar) ++ "\""

end DemandPaging.Text
