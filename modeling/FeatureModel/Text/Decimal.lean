/-!
# Decimal numerals

Guids and counts are written in decimal: a minus sign in front of a negative
number, no leading zeros, no separators.
-/

namespace FeatureModel
namespace Text

def natDecimal (n : Nat) : String :=
  String.ofList (Nat.toDigits 10 n)

def decimal : Int -> String
  | .ofNat n => natDecimal n
  | .negSucc n => "-" ++ natDecimal (n + 1)

theorem isDigit_of_mem_natDecimal {n : Nat} {c : Char} (h : c ∈ (natDecimal n).toList) :
    c.isDigit = true := by
  apply Nat.isDigit_of_mem_toDigits (b := 10) (n := n) (by decide) (by decide)
  simpa [natDecimal] using h

end Text
end FeatureModel
