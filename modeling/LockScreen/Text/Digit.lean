/-!
# Decimal digits

The decimal digits of all scripts (character database, version 14): each script has ten digits in a
row, so a table of the zeros gives the value of every digit. The digits from `0` to `9` also write
natural numbers (`decimalText`), and `valueOfDigits_decimalText` says that they read back.
-/

namespace LockScreen.Text

/-- The code point of the digit zero of each script. -/
def zeroDigits : List Nat := [
  0x30, 0x660, 0x6F0, 0x7C0, 0x966, 0x9E6, 0xA66, 0xAE6, 0xB66, 0xBE6,
  0xC66, 0xCE6, 0xD66, 0xDE6, 0xE50, 0xED0, 0xF20, 0x1040, 0x1090, 0x17E0,
  0x1810, 0x1946, 0x19D0, 0x1A80, 0x1A90, 0x1B50, 0x1BB0, 0x1C40, 0x1C50, 0xA620,
  0xA8D0, 0xA900, 0xA9D0, 0xA9F0, 0xAA50, 0xABF0, 0xFF10, 0x104A0, 0x10D30, 0x11066,
  0x110F0, 0x11136, 0x111D0, 0x112F0, 0x11450, 0x114D0, 0x11650, 0x116C0, 0x11730, 0x118E0,
  0x11950, 0x11C50, 0x11D50, 0x11DA0, 0x16A60, 0x16AC0, 0x16B50, 0x1D7CE, 0x1D7D8, 0x1D7E2,
  0x1D7EC, 0x1D7F6, 0x1E140, 0x1E2F0, 0x1E950, 0x1FBF0]

/-- The value of a decimal digit of any script. -/
def digitValue? (c : Char) : Option Nat :=
  (zeroDigits.find? fun first => first ≤ c.toNat && c.toNat ≤ first + 9).map (c.toNat - ·)

/-! ## Plain digits -/

/-- One of the digits from `0` to `9`. -/
def isPlainDigit (c : Char) : Bool :=
  '0' ≤ c && c ≤ '9'

/-- The value of a plain digit. -/
def plainDigitValue (c : Char) : Nat :=
  c.toNat - '0'.toNat

/-- The plain digit of a value below ten. -/
def plainDigit (n : Nat) : Char :=
  Char.ofNat ('0'.toNat + n)

/-- Digits of other scripts replaced by plain ones. -/
def withPlainDigits (cs : List Char) : List Char :=
  cs.map fun c => ((digitValue? c).map plainDigit).getD c

/-- The number that plain digits spell. -/
def valueOfDigits (cs : List Char) : Nat :=
  cs.foldl (fun n c => 10 * n + plainDigitValue c) 0

/-- A natural number in plain digits, without leading zeros. -/
def decimalText (n : Nat) : List Char :=
  if n < 10 then [plainDigit n] else decimalText (n / 10) ++ [plainDigit (n % 10)]

/-- An integer in plain digits, with a minus sign below zero. -/
def integerText (i : Int) : List Char :=
  if i < 0 then '-' :: decimalText i.natAbs else decimalText i.natAbs

theorem plainDigitValue_plainDigit {n : Nat} (h : n < 10) : plainDigitValue (plainDigit n) = n := by
  have hall : ∀ k : Fin 10, plainDigitValue (plainDigit k) = k := by decide
  exact hall ⟨n, h⟩

theorem isPlainDigit_plainDigit {n : Nat} (h : n < 10) : isPlainDigit (plainDigit n) = true := by
  have hall : ∀ k : Fin 10, isPlainDigit (plainDigit k) = true := by decide
  exact hall ⟨n, h⟩

theorem isPlainDigit_of_mem_decimalText (n : Nat) : ∀ c ∈ decimalText n, isPlainDigit c = true := by
  fun_induction decimalText n with
  | case1 n h => simpa using isPlainDigit_plainDigit h
  | case2 n _ ih =>
    intro c hc
    rcases List.mem_append.1 hc with h | h
    · exact ih c h
    · rw [List.mem_singleton.1 h]
      exact isPlainDigit_plainDigit (Nat.mod_lt _ (by decide))

theorem valueOfDigits_append_singleton (cs : List Char) (c : Char) :
    valueOfDigits (cs ++ [c]) = 10 * valueOfDigits cs + plainDigitValue c := by
  simp [valueOfDigits]

/-- The digits of a number spell it. -/
theorem valueOfDigits_decimalText (n : Nat) : valueOfDigits (decimalText n) = n := by
  fun_induction decimalText n with
  | case1 n h => simpa [valueOfDigits] using plainDigitValue_plainDigit h
  | case2 n _ ih =>
    rw [valueOfDigits_append_singleton, ih, plainDigitValue_plainDigit (Nat.mod_lt _ (by decide))]
    omega

end LockScreen.Text
