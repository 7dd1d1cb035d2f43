/-!
# Digits

Reading a run of digits as a number in some base, and the digits of a number in base ten. A
digit is an ASCII digit or, in bases above ten, an ASCII letter of either case; digits of other
scripts are none. `natural?_eq_some_iff` says which texts are natural numbers.
-/

namespace RandomSentences.Decimal

/-- The value of a character as a digit, in the largest base that letters allow. -/
def digitValue? (c : Char) : Option Nat :=
  if '0' ≤ c ∧ c ≤ '9' then some (c.toNat - '0'.toNat)
  else if 'a' ≤ c ∧ c ≤ 'z' then some (c.toNat - 'a'.toNat + 10)
  else if 'A' ≤ c ∧ c ≤ 'Z' then some (c.toNat - 'A'.toNat + 10)
  else none

/-- Whether a character is a digit in some base. -/
def isDigitIn (base : Nat) (c : Char) : Bool :=
  match digitValue? c with
  | some value => value < base
  | none => false

/-- The number that a run of digits stands for in some base. A character that is no digit
counts as zero. -/
def ofDigits (base : Nat) (cs : List Char) : Nat :=
  cs.foldl (fun n c => n * base + (digitValue? c).getD 0) 0

/-- The digits of a number in base ten. -/
def digits (n : Nat) : List Char :=
  Nat.toDigits 10 n

/-- The text of an integer in base ten. -/
def intText (n : Int) : String :=
  match n with
  | .ofNat n => String.ofList (digits n)
  | .negSucc n => String.ofList ('-' :: digits (n + 1))

/-- Reads a whole text as a natural number in base ten, with an optional plus sign. -/
def natural? (cs : List Char) : Option Nat :=
  let ds := match cs with
    | '+' :: rest => rest
    | _ => cs
  if !ds.isEmpty && ds.all Char.isDigit then some (ofDigits 10 ds) else none

/-- Reads a whole text as an integer in base ten, with an optional sign. -/
def integer? (cs : List Char) : Option Int :=
  match cs with
  | '-' :: ds => if !ds.isEmpty && ds.all Char.isDigit then some (-(ofDigits 10 ds)) else none
  | _ => (natural? cs).map Int.ofNat

/-- A natural number is read from its digits, after a plus sign or none. -/
theorem natural?_eq_some_iff {cs : List Char} {n : Nat} :
    natural? cs = some n ↔
      ∃ sign digits, cs = sign ++ digits ∧ (sign = ['+'] ∨ sign = []) ∧ digits ≠ [] ∧
        (∀ c ∈ digits, c.isDigit = true) ∧ ofDigits 10 digits = n := by
  have hread (ds : List Char) :
      (if !ds.isEmpty && ds.all Char.isDigit then some (ofDigits 10 ds) else none) = some n ↔
        ds ≠ [] ∧ (∀ c ∈ ds, c.isDigit = true) ∧ ofDigits 10 ds = n := by
    simp [and_assoc]
  constructor
  · intro h
    unfold natural? at h
    split at h
    · exact ⟨['+'], _, rfl, .inl rfl, (hread _).mp h⟩
    · exact ⟨[], _, rfl, .inr rfl, (hread _).mp h⟩
  · rintro ⟨sign, ds, rfl, rfl | rfl, hne, hdigits, hn⟩
    · exact (hread ds).mpr ⟨hne, hdigits, hn⟩
    · unfold natural?
      split
      · rename_i rest hds
        have hplus : '+' ∈ ds := by simp [show ds = '+' :: rest from hds]
        exact absurd (hdigits '+' hplus) (by decide)
      · exact (hread ds).mpr ⟨hne, hdigits, hn⟩

end RandomSentences.Decimal
