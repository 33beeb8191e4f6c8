import Shorthand.Text.Basic
/-!
# Decimal numbers

The value of a run of decimal digits, and the digits of a number.
-/
namespace Shorthand.Text

def decimal (digits : Text) : Nat := digits.foldl (fun n d => 10 * n + (d.toNat - '0'.toNat)) 0

def digitsOf (n : Nat) : Text := Nat.toDigits 10 n

theorem decimal_digitsOf (n : Nat) : decimal (digitsOf n) = n := Nat.ofDigitChars_ten_toDigits

theorem isDigit_of_mem_digitsOf {n : Nat} {c : Char} (h : c ∈ digitsOf n) : c.isDigit = true :=
  Nat.isDigit_of_mem_toDigits (by decide) (by decide) h

end Shorthand.Text
