/-! # Digits -/

namespace ConnectionBroker.Text

/-! ## Reading -/

def decimalDigitValue (c : Char) : Nat :=
  c.toNat - '0'.toNat

def decimalValue (digits : List Char) : Nat :=
  digits.foldl (fun n c => n * 10 + decimalDigitValue c) 0

/-- The value of a hexadecimal digit of either case. -/
def hexDigitValue? (c : Char) : Option Nat :=
  if c.isDigit then some (decimalDigitValue c)
  else if 'a'.toNat ≤ c.toNat ∧ c.toNat ≤ 'f'.toNat then some (c.toNat - 'a'.toNat + 10)
  else if 'A'.toNat ≤ c.toNat ∧ c.toNat ≤ 'F'.toNat then some (c.toNat - 'A'.toNat + 10)
  else none

/-! ## Writing -/

/-- The upper-case hexadecimal digit of a value below sixteen. -/
def upperHexDigit (n : Nat) : Char :=
  Char.ofNat (if n < 10 then '0'.toNat + n else 'A'.toNat + (n - 10))

/-- The lower-case hexadecimal digit of a value below sixteen. -/
def lowerHexDigit (n : Nat) : Char :=
  Char.ofNat (if n < 10 then '0'.toNat + n else 'a'.toNat + (n - 10))

def decimalText (n : Nat) : List Char :=
  Nat.toDigits 10 n

def hexText (n : Nat) : List Char :=
  Nat.toDigits 16 n

/-- An integer in decimal, with a sign if it is negative. -/
def integerText : Int → List Char
  | .ofNat n => decimalText n
  | .negSucc n => '-' :: decimalText (n + 1)

/-! ## Reading what was written -/

theorem isDigit_decimalText (n : Nat) : ∀ c ∈ decimalText n, c.isDigit = true :=
  fun _ hc => Nat.isDigit_of_mem_toDigits (by decide) (by decide) hc

theorem decimalValue_decimalText (n : Nat) : decimalValue (decimalText n) = n := by
  have hvalue : decimalValue (decimalText n) = Nat.ofDigitChars 10 (Nat.toDigits 10 n) 0 := by
    simp only [decimalValue, decimalDigitValue, decimalText, Nat.ofDigitChars, Nat.mul_comm]
  rw [hvalue, Nat.ofDigitChars_ten_toDigits]

theorem hexDigitValue?_upperHexDigit :
    ∀ n < 16, hexDigitValue? (upperHexDigit n) = some n := by
  decide

theorem hexDigitValue?_lowerHexDigit :
    ∀ n < 16, hexDigitValue? (lowerHexDigit n) = some n := by
  decide

end ConnectionBroker.Text
