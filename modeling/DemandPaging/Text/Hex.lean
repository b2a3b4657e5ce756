/-!
# Hexadecimal text
-/

namespace DemandPaging.Text

/-- A number in base sixteen: `0x`, then lower-case digits without leading zeros. -/
def hex (n : Nat) : String := "0x" ++ String.ofList (Nat.toDigits 16 n)

end DemandPaging.Text
