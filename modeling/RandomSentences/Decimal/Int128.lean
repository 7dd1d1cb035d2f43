import RandomSentences.Decimal.Digits

/-!
# Integers of 128 bits

An integer with a sign that fits into 128 bits. What is read or computed may not fit, and then there
is no result: a text with too many digits stands for no such integer, and the least one cannot
change its sign. Converting to 64 bits without a sign leaves out negative integers and great ones.
-/

namespace RandomSentences

/-- An integer that fits into 128 bits, with its sign. -/
structure Int128 where
  value : Int
  min_le : -0x80000000000000000000000000000000 ≤ value
  le_max : value ≤ 0x7FFFFFFFFFFFFFFFFFFFFFFFFFFFFFFF
  deriving DecidableEq, Repr

namespace Int128

/-- The greatest integer of 128 bits. -/
def greatest : Int128 where
  value := 0x7FFFFFFFFFFFFFFFFFFFFFFFFFFFFFFF
  min_le := by decide
  le_max := by decide

/-- An integer, if it fits. -/
def ofInt? (n : Int) : Option Int128 :=
  if h : -0x80000000000000000000000000000000 ≤ n ∧ n ≤ greatest.value then
    some ⟨n, h.1, h.2⟩
  else
    none

/-- Reads a whole text as an integer in base ten, with an optional sign. -/
def ofText? (cs : List Char) : Option Int128 :=
  (Decimal.integer? cs).bind ofInt?

/-- The integer with the other sign. -/
def neg? (n : Int128) : Option Int128 :=
  ofInt? (-n.value)

/-- The integer in 64 bits without a sign. -/
def toUInt64? (n : Int128) : Option UInt64 :=
  if 0 ≤ n.value ∧ n.value ≤ 0xFFFFFFFFFFFFFFFF then
    some (UInt64.ofNat n.value.toNat)
  else
    none

theorem ofInt?_eq_some_iff {n : Int} {m : Int128} : ofInt? n = some m ↔ m.value = n := by
  unfold ofInt?
  constructor
  · intro h
    split at h
    · exact congrArg value (Option.some_inj.mp h).symm
    · simp at h
  · rintro rfl
    rw [dif_pos ⟨m.min_le, m.le_max⟩]

/-- Every integer that is not negative can change its sign. -/
theorem exists_neg? {n : Int128} (h : 0 ≤ n.value) :
    ∃ m, n.neg? = some m ∧ m.value = -n.value := by
  have hmax := n.le_max
  refine ⟨⟨-n.value, by omega, by omega⟩, ofInt?_eq_some_iff.mpr rfl, rfl⟩

variable {digits : List Char}

/-- Digits are read as the integer that they stand for, without a sign. -/
theorem integer?_of_digits (hne : digits ≠ []) (hall : ∀ c ∈ digits, c.isDigit = true) :
    Decimal.integer? digits = some (Decimal.ofDigits 10 digits : Int) := by
  have hnatural : Decimal.natural? digits = some (Decimal.ofDigits 10 digits) :=
    Decimal.natural?_eq_some_iff.mpr ⟨[], digits, rfl, .inr rfl, hne, hall, rfl⟩
  unfold Decimal.integer?
  split
  · exact absurd (hall '-' (List.mem_cons_self ..)) (by decide)
  · rw [hnatural]
    rfl

/-- Digits give the integer that they stand for, or the greatest one if this does not fit. -/
theorem value_getD_ofText? (hne : digits ≠ []) (hall : ∀ c ∈ digits, c.isDigit = true) :
    ((ofText? digits).getD greatest).value =
      min (Decimal.ofDigits 10 digits : Int) greatest.value := by
  rw [ofText?, integer?_of_digits hne hall, Option.bind_some]
  cases hfits : ofInt? (Decimal.ofDigits 10 digits) with
  | some n =>
    have hvalue := ofInt?_eq_some_iff.mp hfits
    have hmax : n.value ≤ greatest.value := n.le_max
    rw [Option.getD_some]
    omega
  | none =>
    have hnot : ¬ (Decimal.ofDigits 10 digits : Int) ≤ greatest.value := fun hle => by
      have hsome := ofInt?_eq_some_iff.mpr
        (rfl : (⟨Decimal.ofDigits 10 digits, by omega, hle⟩ : Int128).value = _)
      simp [hsome] at hfits
    rw [Option.getD_none]
    omega

end Int128

end RandomSentences
