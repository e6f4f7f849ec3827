/-!
Hexadecimal text of numbers, as addresses and sizes appear in messages.
-/

namespace VirtioMmio

/-- `0x` and the lower-case hexadecimal digits of `n`, without leading zeros. -/
def hex (n : Nat) : String :=
  "0x" ++ String.ofList (Nat.toDigits 16 n)

end VirtioMmio
