/-!
# Decimal numbers

A number is written in ASCII digits, with one plus sign before them if the writer likes. It has to
fit in 64 bits.
-/

namespace DemandPaging.Text

/-- The number that a run of ASCII digits denotes, most significant first. -/
def digitsValue (cs : List Char) : Nat :=
  cs.foldl (fun value c => 10 * value + (c.toNat - '0'.toNat)) 0

/-- The number a text denotes, if 64 bits can hold it. -/
def readNumber (cs : List Char) : Option Nat :=
  let digits := match cs with
    | '+' :: rest => rest
    | _ => cs
  if digits.isEmpty || !digits.all Char.isDigit then none
  else if digitsValue digits < UInt64.size then some (digitsValue digits)
  else none

end DemandPaging.Text
