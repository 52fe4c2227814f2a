/-! Powers of two and of ten, and the integers that fit a number of bits. -/

namespace Haml.Decimal

def powTwo (n : Nat) : Nat := Nat.pow 2 n

def powTen (n : Nat) : Nat := Nat.pow 10 n

def fitsSigned (bits : Nat) (n : Int) : Bool :=
  -Int.ofNat (powTwo (bits - 1)) ≤ n && n < Int.ofNat (powTwo (bits - 1))

def fitsUnsigned (bits : Nat) (n : Int) : Bool := 0 ≤ n && n < Int.ofNat (powTwo bits)

end Haml.Decimal
