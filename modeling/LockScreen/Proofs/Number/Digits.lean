import LockScreen.Decimal
import Mathlib.Data.List.Basic
import Mathlib.Data.List.Induction
import Mathlib.Data.List.TakeWhile

/-!
# Digits and their value

Zeros in front of digits do not count, and zeros behind them are powers of ten. So the digits that a number is
written with, which are those of its decimal without the zeros behind, still spell the decimal
(`significand_spells`).
-/

namespace LockScreen.Text

theorem valueOfDigits_append (ds es : List Char) :
    valueOfDigits (ds ++ es) = valueOfDigits ds * Nat.pow 10 es.length + valueOfDigits es := by
  induction es using List.reverseRecOn with
  | nil => simp [valueOfDigits]
  | append_singleton es c ih =>
    have hpow : Nat.pow 10 (es ++ [c]).length = Nat.pow 10 es.length * 10 := by
      rw [List.length_append, List.length_singleton]
      rfl
    rw [← List.append_assoc, valueOfDigits_append_singleton, valueOfDigits_append_singleton, ih, hpow,
      ← Nat.mul_assoc]
    omega

theorem valueOfDigits_zeros (k : Nat) : valueOfDigits (List.replicate k '0') = 0 := by
  induction k with
  | zero => rfl
  | succ k ih =>
    rw [List.replicate_succ', valueOfDigits_append_singleton, ih]
    rfl

/-- Zeros in front do not count. -/
theorem valueOfDigits_zeros_append (k : Nat) (ds : List Char) :
    valueOfDigits (List.replicate k '0' ++ ds) = valueOfDigits ds := by
  rw [valueOfDigits_append, valueOfDigits_zeros, Nat.zero_mul, Nat.zero_add]

/-- Zeros behind are powers of ten. -/
theorem valueOfDigits_append_zeros (ds : List Char) (k : Nat) :
    valueOfDigits (ds ++ List.replicate k '0') = valueOfDigits ds * Nat.pow 10 k := by
  rw [valueOfDigits_append, valueOfDigits_zeros, List.length_replicate, Nat.add_zero]

theorem plainDigit_ne_zero {n : Nat} (h : n < 10) (h0 : n ≠ 0) : plainDigit n ≠ '0' := by
  have hall : ∀ k : Fin 10, k.val ≠ 0 → plainDigit k ≠ '0' := by decide
  exact hall ⟨n, h⟩ h0

theorem decimalText_ne_nil (n : Nat) : decimalText n ≠ [] := by
  rw [decimalText]
  split
  · exact List.cons_ne_nil _ _
  · simp

/-- A number is written with digits only. -/
theorem notMem_decimalText_append {c : Char} (hc : isPlainDigit c = false) (n : Nat) {word : List Char}
    (hword : c ∉ word) : c ∉ decimalText n ++ word := by
  intro hmem
  rcases List.mem_append.mp hmem with hdigit | hletter
  · rw [isPlainDigit_of_mem_decimalText n c hdigit] at hc
    cases hc
  · exact hword hletter

/-- A number is written without zeros in front. -/
theorem head?_decimalText_ne {n : Nat} (h : n ≠ 0) : (decimalText n).head? ≠ some '0' := by
  fun_induction decimalText n with
  | case1 n hlt => simpa using plainDigit_ne_zero hlt h
  | case2 n hge ih =>
    rw [List.head?_append_of_ne_nil _ (decimalText_ne_nil _)]
    exact ih (by omega)

/-- A number below a power of ten has at most as many digits. -/
theorem length_decimalText_le {n k : Nat} (h : n < Nat.pow 10 (k + 1)) :
    (decimalText n).length ≤ k + 1 := by
  induction k generalizing n with
  | zero =>
    have hlt : n < 10 := h
    rw [decimalText, if_pos hlt]
    exact Nat.le_refl 1
  | succ k ih =>
    rw [decimalText]
    split
    · exact Nat.le_add_left 1 _
    · have hdiv : n / 10 < Nat.pow 10 (k + 1) := by
        refine Nat.div_lt_of_lt_mul ?_
        rw [Nat.mul_comm]
        exact h
      rw [List.length_append, List.length_singleton]
      exact Nat.add_le_add_right (ih hdiv) 1

/-- A number that reaches a power of ten has more digits. -/
theorem lt_length_decimalText {n k : Nat} (h : Nat.pow 10 k ≤ n) : k < (decimalText n).length := by
  induction k generalizing n with
  | zero => exact List.length_pos_of_ne_nil (decimalText_ne_nil n)
  | succ k ih =>
    have hten : Nat.pow 10 k * 10 ≤ n := h
    have hpos : 0 < Nat.pow 10 k := Nat.pow_pos (by decide)
    have hdiv : Nat.pow 10 k ≤ n / 10 := (Nat.le_div_iff_mul_le (by decide)).mpr hten
    rw [decimalText, if_neg (by omega), List.length_append, List.length_singleton]
    exact Nat.add_lt_add_right (ih hdiv) 1

/-- At least one digit, and no zero in front of others. -/
structure Leading (ds : List Char) : Prop where
  digits : ∀ c ∈ ds, isPlainDigit c = true
  ne_nil : ds ≠ []
  head : ds = ['0'] ∨ ds.head? ≠ some '0'

theorem isPlainDigit_of_mem_zeros {k : Nat} {c : Char} (h : c ∈ List.replicate k '0') :
    isPlainDigit c = true := by
  rw [List.eq_of_mem_replicate h]
  decide

theorem leading_zero : Leading ['0'] :=
  ⟨fun _ hc => isPlainDigit_of_mem_zeros (k := 1) hc, List.cons_ne_nil _ _, .inl rfl⟩

theorem leading_decimalText (n : Nat) : Leading (decimalText n) := by
  refine ⟨isPlainDigit_of_mem_decimalText n, decimalText_ne_nil n, ?_⟩
  by_cases h : n = 0
  · subst h
    rw [decimalText]
    exact .inl rfl
  · exact .inr (head?_decimalText_ne h)

end LockScreen.Text

namespace LockScreen.Binary64

open Text

/-- The digits of a decimal without the zeros behind, and the place of the point, spell the decimal. -/
theorem significand_spells {d : Decimal} (h : d.digits ≠ 0) :
    ∃ k : Nat, d.digits = valueOfDigits (significand d).1 * Nat.pow 10 k ∧
      (significand d).2 = (significand d).1.length + (d.exponent + k) ∧
      (∀ c ∈ (significand d).1, isPlainDigit c = true) ∧ (significand d).1 ≠ [] ∧
      (significand d).1.head? ≠ some '0' := by
  have hreverse := List.takeWhile_append_dropWhile (p := (· = '0')) (l := (decimalText d.digits).reverse)
  -- the zeros behind
  have hzeros : ∃ k, (decimalText d.digits).reverse.takeWhile (· = '0') = List.replicate k '0' := by
    refine ⟨_, List.eq_replicate_iff.mpr ⟨rfl, ?_⟩⟩
    intro c hc
    simpa using List.mem_takeWhile_imp hc
  obtain ⟨k, hk⟩ := hzeros
  generalize hkept : ((decimalText d.digits).reverse.dropWhile (· = '0')).reverse = kept
  have hsplit : decimalText d.digits = kept ++ List.replicate k '0' := by
    rw [← hkept, ← List.reverse_replicate, ← List.reverse_append, ← hk, hreverse, List.reverse_reverse]
  have hvalue : d.digits = valueOfDigits kept * Nat.pow 10 k := by
    rw [← valueOfDigits_append_zeros, ← hsplit, valueOfDigits_decimalText]
  have hne : kept ≠ [] := by
    rintro rfl
    rw [valueOfDigits] at hvalue
    exact h (by simpa using hvalue)
  have hsignificand : significand d = (kept, ((kept.length : Int) + (d.exponent + k))) := by
    unfold significand
    simp only [hkept, List.isEmpty_iff, hne, if_false, Prod.mk.injEq, true_and]
    rw [hsplit, List.length_append, List.length_replicate]
    omega
  rw [hsignificand]
  refine ⟨k, hvalue, rfl, ?_, hne, ?_⟩
  · intro c hc
    refine isPlainDigit_of_mem_decimalText d.digits c ?_
    rw [hsplit]
    exact List.mem_append_left _ hc
  · have hhead := head?_decimalText_ne h
    rwa [hsplit, List.head?_append_of_ne_nil _ hne] at hhead

end LockScreen.Binary64
