import LockScreen.Duration
import LockScreen.Proofs.Number.Digits
import Mathlib.Data.Int.ConditionallyCompleteOrder
import Mathlib.Data.Rat.Floor
import Mathlib.Tactic.SplitIfs

/-!
# What duration texts say

A duration text is read back without regard to how it came about: one number with its unit, or two with a comma
between them (`readParts?`). What it then says in minutes (`minutesOf?`) is what was meant (`minutesOf?_text`).

The four ways of rounding meet without a gap: in closed form (`inMinutes_ofMinutes`) they are the number itself, the
nearest hour, the hour below and the nearest day, and each begins at a multiple of what the one before rounds to. So
a longer time is never shown as a shorter one, and the error of a text is bounded by half of its smallest unit, or by
this unit within the second day (`IsAccurate`).
-/

namespace LockScreen.Duration

open Text

/-! ## Reading -/

/-- A unit of time. -/
inductive TimeUnit
  | minute
  | hour
  | day
deriving DecidableEq, Repr

namespace TimeUnit

def inMinutes : TimeUnit → Nat
  | minute => 1
  | hour => 60
  | day => 1440

/-- The unit that a word stands for. -/
def ofWord? (word : List Char) : Option TimeUnit :=
  if word = "min".toList then some minute
  else if word = "hr".toList then some hour
  else if word = "day".toList ∨ word = "days".toList then some day
  else none

end TimeUnit

/-- A number of units. -/
structure Part where
  count : Nat
  unit : TimeUnit
deriving DecidableEq, Repr

def Part.inMinutes (part : Part) : Nat :=
  part.count * part.unit.inMinutes

/-- The part that a text spells: a number in plain digits, a space and the word for a unit. -/
def readPart? (cs : List Char) : Option Part :=
  match cs.dropWhile isPlainDigit with
  | ' ' :: word =>
    if cs.takeWhile isPlainDigit = [] then none
    else (TimeUnit.ofWord? word).map (⟨valueOfDigits (cs.takeWhile isPlainDigit), ·⟩)
  | _ => none

/-- The parts that a text spells: one, or two with a comma and a space between them. -/
def readParts? (cs : List Char) : Option (List Part) :=
  match cs.dropWhile (· ≠ ',') with
  | [] => (readPart? cs).map ([·])
  | _ :: ' ' :: minor => do return [← readPart? (cs.takeWhile (· ≠ ',')), ← readPart? minor]
  | _ => none

/-- The number of minutes that parts make up. -/
def minutesOfParts (parts : List Part) : Nat :=
  (parts.map Part.inMinutes).sum

/-- The number of minutes that a text denotes. -/
def minutesOf? (cs : List Char) : Option Nat :=
  (readParts? cs).map minutesOfParts

/-- A number with its unit is read as a whole. -/
theorem readPart?_decimalText (n : Nat) {word : List Char} {unit : TimeUnit} (h : TimeUnit.ofWord? word = some unit) :
    readPart? (decimalText n ++ ' ' :: word) = some ⟨n, unit⟩ := by
  have hdigits := isPlainDigit_of_mem_decimalText n
  have htake : (decimalText n ++ ' ' :: word).takeWhile isPlainDigit = decimalText n := by
    rw [List.takeWhile_append_of_pos hdigits]
    exact List.append_nil _
  have hdrop : (decimalText n ++ ' ' :: word).dropWhile isPlainDigit = ' ' :: word := by
    rw [List.dropWhile_append_of_pos hdigits]
    rfl
  simp only [readPart?, htake, hdrop, decimalText_ne_nil, if_false, valueOfDigits_decimalText, h, Option.map_some]

/-- A text without a comma is one part. -/
theorem readParts?_one {cs : List Char} {part : Part} (hcomma : ',' ∉ cs) (h : readPart? cs = some part) :
    readParts? cs = some [part] := by
  have hcs : ∀ c ∈ cs, decide (c ≠ ',') = true := fun c hc => decide_eq_true (ne_of_mem_of_not_mem hc hcomma)
  rw [readParts?, List.dropWhile_eq_nil_iff.mpr hcs]
  simp only [h, Option.map_some]

/-- What stands around the first comma are two parts. -/
theorem readParts?_two {cs rest : List Char} {major minor : Part} (hcomma : ',' ∉ cs)
    (hmajor : readPart? cs = some major) (hminor : readPart? rest = some minor) :
    readParts? (cs ++ ", ".toList ++ rest) = some [major, minor] := by
  have hcs : ∀ c ∈ cs, decide (c ≠ ',') = true := fun c hc => decide_eq_true (ne_of_mem_of_not_mem hc hcomma)
  have htext : cs ++ ", ".toList ++ rest = cs ++ ',' :: ' ' :: rest := by
    rw [List.append_assoc]
    rfl
  have htake : (cs ++ ',' :: ' ' :: rest).takeWhile (· ≠ ',') = cs := by
    rw [List.takeWhile_append_of_pos hcs]
    exact List.append_nil _
  have hdrop : (cs ++ ',' :: ' ' :: rest).dropWhile (· ≠ ',') = ',' :: ' ' :: rest := by
    rw [List.dropWhile_append_of_pos hcs]
    rfl
  rw [htext, readParts?, hdrop, htake]
  simp only [hmajor, hminor]
  rfl

/-- The parts in which a duration is shown. -/
def parts : Duration → List Part
  | minutes n => [⟨n, .minute⟩]
  | hours n => [⟨n, .hour⟩]
  | hourAnd n => [⟨1, .hour⟩, ⟨n, .minute⟩]
  | days n => [⟨n, .day⟩]
  | dayAnd n => [⟨1, .day⟩, ⟨n, .hour⟩]

theorem minutesOfParts_parts (d : Duration) : minutesOfParts d.parts = d.inMinutes := by
  cases d <;> simp [minutesOfParts, parts, Part.inMinutes, TimeUnit.inMinutes, inMinutes, Nat.mul_comm]

/-- A duration text spells the parts in which the duration is shown. -/
theorem readParts?_text (d : Duration) : readParts? d.text = some d.parts := by
  have hmin : TimeUnit.ofWord? "min".toList = some .minute := by decide
  have hhr : TimeUnit.ofWord? "hr".toList = some .hour := by decide
  have hdays : TimeUnit.ofWord? "days".toList = some .day := by decide
  cases d with
  | minutes n =>
    exact readParts?_one (notMem_decimalText_append (by decide) n (by decide)) (readPart?_decimalText n hmin)
  | hours n => exact readParts?_one (notMem_decimalText_append (by decide) n (by decide)) (readPart?_decimalText n hhr)
  | hourAnd n =>
    have htext : (hourAnd n).text = "1 hr".toList ++ ", ".toList ++ decimalText n ++ " min".toList := rfl
    rw [htext, List.append_assoc]
    exact readParts?_two (by decide) (by decide) (readPart?_decimalText n hmin)
  | days n =>
    by_cases hone : n = 1
    · subst hone
      have hpart : readPart? "1 day".toList = some ⟨1, .day⟩ := by decide
      exact readParts?_one (by decide) hpart
    · have htext : (days n).text = decimalText n ++ ' ' :: "days".toList := if_neg hone
      rw [htext]
      exact readParts?_one (notMem_decimalText_append (by decide) n (by decide)) (readPart?_decimalText n hdays)
  | dayAnd n =>
    have htext : (dayAnd n).text = "1 day".toList ++ ", ".toList ++ decimalText n ++ " hr".toList := rfl
    rw [htext, List.append_assoc]
    exact readParts?_two (by decide) (by decide) (readPart?_decimalText n hhr)

theorem minutesOf?_text (d : Duration) : minutesOf? d.text = some d.inMinutes := by
  rw [minutesOf?, readParts?_text, Option.map_some, minutesOfParts_parts]

/-! ## Rounding -/

/-- What a number of minutes comes to when it is shown, in closed form. -/
theorem inMinutes_ofMinutes (total : Nat) :
    (ofMinutes total).inMinutes =
      if total < 120 then total
      else if total < 1440 then 60 * ((total + 30) / 60)
      else if total < 2880 then 60 * (total / 60)
      else 1440 * ((total + 720) / 1440) := by
  unfold ofMinutes
  dsimp only
  -- days are rounded from whole hours: what was cut off of an hour does not reach the half of a day
  split_ifs <;> simp only [inMinutes] <;> omega

theorem inMinutes_ofMinutes_mono {m n : Nat} (h : m ≤ n) :
    (ofMinutes m).inMinutes ≤ (ofMinutes n).inMinutes := by
  rw [inMinutes_ofMinutes, inMinutes_ofMinutes]
  -- across two ways of rounding, what the bound between them comes to stands between the two
  split_ifs <;> omega

/-- Rounding up to minutes is the ceiling. -/
theorem minutesUp_eq (millis : Int) : (minutesUp millis : Int) = max 1 ⌈(millis / 60000 : ℚ)⌉ := by
  have hceil : ⌈(millis / 60000 : ℚ)⌉ = -((-millis) / 60000) := by
    exact_mod_cast Rat.ceil_intCast_div_natCast millis 60000
  rw [hceil, minutesUp]
  omega

theorem minutesUp_mono {m n : Int} (h : m ≤ n) : minutesUp m ≤ minutesUp n := by
  unfold minutesUp
  omega

/-- How near a shown number of minutes is to the time that it is shown for. -/
structure IsAccurate (shown time : Int) : Prop where
  minutes : time < 120 → shown = time
  hours : 120 ≤ time → time < 1440 → |shown - time| ≤ 30
  secondDay : 1440 ≤ time → time < 2880 → 0 ≤ time - shown ∧ time - shown < 60
  days : 2880 ≤ time → |shown - time| ≤ 720

theorem isAccurate_ofMinutes (total : Nat) : IsAccurate (ofMinutes total).inMinutes total := by
  rw [inMinutes_ofMinutes]
  constructor
  · intro h
    rw [if_pos (by omega)]
  · intro hlow hhigh
    rw [if_neg (by omega), if_pos (by omega), abs_le]
    omega
  · intro hlow hhigh
    rw [if_neg (by omega), if_neg (by omega), if_pos (by omega)]
    omega
  · intro h
    rw [if_neg (by omega), if_neg (by omega), if_neg (by omega), abs_le]
    omega

/-- Two parts that are shown together: one hour with minutes or one day with hours, of which there is at least one
and fewer than would make up another. -/
inductive Together : Part → Part → Prop
  | hourAnd {n : Nat} (hpos : 1 ≤ n) (hlt : n < 60) : Together ⟨1, .hour⟩ ⟨n, .minute⟩
  | dayAnd {n : Nat} (hpos : 1 ≤ n) (hlt : n < 24) : Together ⟨1, .day⟩ ⟨n, .hour⟩

theorem together_of_parts {total : Nat} {major minor : Part} (h : (ofMinutes total).parts = [major, minor]) :
    Together major minor := by
  unfold ofMinutes at h
  dsimp only at h
  split_ifs at h
  · cases h
  · cases h
  · cases h
    exact .dayAnd (by omega) (by omega)
  · cases h
  · cases h
  · cases h
    exact .hourAnd (by omega) (by omega)
  · cases h

/-- The text for any number of milliseconds denotes a number of minutes. A longer time never denotes fewer, the
number is accurate for the time rounded up to minutes, at least one, and where the text has two parts, the smaller one
neither is missing nor makes up another of the larger. -/
theorem text_monotone_and_accurate :
    (∀ m, minutesOf? (ofMillis m).text = some (ofMillis m).inMinutes) ∧
    (Monotone fun m => (ofMillis m).inMinutes) ∧
    (∀ m : Int, IsAccurate (ofMillis m).inMinutes (max 1 ⌈(m / 60000 : ℚ)⌉)) ∧
    ∀ m major minor, readParts? (ofMillis m).text = some [major, minor] → Together major minor := by
  refine ⟨fun m => minutesOf?_text _, fun m n h => inMinutes_ofMinutes_mono (minutesUp_mono h), fun m => ?_,
    fun m major minor h => ?_⟩
  · rw [← minutesUp_eq]
    exact isAccurate_ofMinutes (minutesUp m)
  · rw [readParts?_text] at h
    exact together_of_parts (Option.some.inj h)

/-- Ninety minutes and a millisecond are shown as ninety-one. -/
theorem text_monotone_and_accurate_afterNinetyMinutes :
    minutesOf? "1 hr, 31 min".toList = some 91 ∧ Together ⟨1, .hour⟩ ⟨31, .minute⟩ ∧
      IsAccurate 91 (max 1 ⌈((5400001 : Int) / 60000 : ℚ)⌉) := by
  obtain ⟨hminutes, _, haccurate, htogether⟩ := text_monotone_and_accurate
  have htext : (ofMillis 5400001).text = "1 hr, 31 min".toList := by decide +kernel
  have hshown : (ofMillis 5400001).inMinutes = 91 := by decide +kernel
  rw [← htext, ← hshown]
  exact ⟨hminutes _, htogether 5400001 _ _ (by decide +kernel), haccurate 5400001⟩

end LockScreen.Duration
