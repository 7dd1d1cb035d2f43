import RandomSentences.Decimal.Int128
import RandomSentences.Text.Offset

/-!
# How many sentences to generate

A request asks for a number of sentences, and gets at least one and at most twenty. The number may
come as a text of any form: what counts is the integer at its start, after blanks. A text without
one, or with one that is not positive, asks for one sentence.

The text is looked at byte by byte and cut at offsets of bytes, and the integer is one of 128 bits.
Either could fail: `SentenceCount.read` cannot be carried out if a character would have to be cut in
two, or if an integer does not fit. Neither happens (`SentenceCount.read_ne_error`), as the sign and
the digits are characters of ASCII and only an integer without a sign changes its sign. So
`SentenceCount.parse` always has a result.
-/

namespace RandomSentences

/-- The number of sentences for a request that gives no usable one. -/
def defaultSentences : Nat := 1

/-- The greatest number of sentences for one request. -/
def maxSentences : Nat := 20

/-- A number of sentences that a request may get. -/
structure SentenceCount where
  value : Nat
  default_le : defaultSentences ≤ value
  le_max : value ≤ maxSentences
  deriving DecidableEq, Repr

/-- Why reading a number cannot be carried out. -/
inductive Trap where
  /-- A text is to be cut where no character starts or ends. -/
  | offset
  /-- An integer does not fit into its bits. -/
  | overflow
  deriving DecidableEq, Repr

namespace LeadingInteger

/-- Cuts a text at an offset in bytes. -/
def cut (cs : List Char) (offset : Nat) : Except Trap (List Char × List Char) :=
  match Text.splitAtByte? cs offset with
  | some parts => .ok parts
  | none => .error .offset

/-- Whether a text starts with a minus sign, and what follows a sign of either kind. -/
def afterSign (cs : List Char) : Except Trap (Bool × List Char) :=
  let first := (Text.bytes cs).head?
  if first = some '-'.toUInt8 then
    (cut cs 1).map fun (_, rest) => (true, rest)
  else if first = some '+'.toUInt8 then
    (cut cs 1).map fun (_, rest) => (false, rest)
  else
    .ok (false, cs)

/-- The digits at the start of a text, if there are any. -/
def digits? (cs : List Char) : Except Trap (Option (List Char)) :=
  let stop := (Text.bytes cs).findIdx (!Text.isDigitByte ·)
  if stop = 0 then .ok none else (cut cs stop).map fun (digits, _) => some digits

/-- The integer that digits stand for, or the greatest one if they stand for a greater one. -/
def magnitude (digits : List Char) : Int128 :=
  (Int128.ofText? digits).getD .greatest

/-- An integer with the other sign if it is to be negative. -/
def withSign (negative : Bool) (n : Int128) : Except Trap Int128 :=
  if negative then
    match n.neg? with
    | some n => .ok n
    | none => .error .overflow
  else
    .ok n

end LeadingInteger

/-- The integer at the start of a text, after blanks: an optional sign and the longest run of
digits after it. -/
def leadingInteger (cs : List Char) : Except Trap (Option Int128) := do
  let (negative, rest) ← LeadingInteger.afterSign (Text.trimStart cs)
  match ← LeadingInteger.digits? rest with
  | none => return none
  | some digits => some <$> LeadingInteger.withSign negative (LeadingInteger.magnitude digits)

namespace SentenceCount

/-- The number of sentences nearest to a requested one. -/
def ofNat (requested : Nat) : SentenceCount where
  value := max defaultSentences (min requested maxSentences)
  default_le := Nat.le_max_left ..
  le_max := Nat.max_le.2 ⟨by decide, Nat.min_le_right ..⟩

instance : Inhabited SentenceCount where
  default := ofNat defaultSentences

/-- The number of sentences for an integer, if there was one. -/
def ofInteger : Option Int128 → SentenceCount
  | some n => if 0 < n.value then ofNat (n.toUInt64?.elim maxSentences UInt64.toNat) else default
  | none => default

/-- The number of sentences that a text asks for, if it can be read. -/
def read (raw : Option String) : Except Trap SentenceCount :=
  match raw with
  | some text => (leadingInteger text.toList).map ofInteger
  | none => .ok default

end SentenceCount

/-! ### Reading never fails -/

namespace LeadingInteger

theorem cut_append (before after : List Char) :
    cut (before ++ after) (Text.bytes before).length = .ok (before, after) := by
  rw [cut, Text.splitAtByte?_append]

/-- Whether a minus sign comes first, and what follows a sign, character by character. -/
def signed : List Char → Bool × List Char
  | '-' :: rest => (true, rest)
  | '+' :: rest => (false, rest)
  | cs => (false, cs)

theorem head?_ne_of_ne_cons {cs : List Char} {c : Char} (h : ∀ rest, cs = c :: rest → False) :
    cs.head? ≠ some c := by
  intro hhead
  obtain ⟨rest, hrest⟩ := List.head?_eq_some_iff.mp hhead
  exact h rest hrest

/-- A sign is a single byte, and what follows it starts with the next character. -/
theorem afterSign_eq (cs : List Char) : afterSign cs = .ok (signed cs) := by
  have hminus : (Text.bytes cs).head? = some '-'.toUInt8 ↔ cs.head? = some '-' :=
    Text.head?_bytes_eq_some_iff (by decide) rfl
  have hplus : (Text.bytes cs).head? = some '+'.toUInt8 ↔ cs.head? = some '+' :=
    Text.head?_bytes_eq_some_iff (by decide) rfl
  have hcut : ∀ sign rest, sign.utf8Size = 1 → cut (sign :: rest) 1 = .ok ([sign], rest) := by
    intro sign rest hsize
    have hlength : (Text.bytes [sign]).length = 1 := by
      rw [Text.length_bytes_cons, hsize]
      rfl
    rw [← hlength]
    exact cut_append [sign] rest
  simp only [afterSign, hminus, hplus]
  fun_cases signed cs with
  | case1 rest =>
    rw [if_pos List.head?_cons, hcut '-' rest rfl]
    rfl
  | case2 rest =>
    rw [if_neg (by simp), if_pos List.head?_cons, hcut '+' rest rfl]
    rfl
  | case3 cs hnotMinus hnotPlus =>
    rw [if_neg (head?_ne_of_ne_cons hnotMinus), if_neg (head?_ne_of_ne_cons hnotPlus)]

/-- The digits are the characters up to the first one that is no digit. -/
theorem digits?_eq (cs : List Char) :
    digits? cs = .ok (if cs.takeWhile Char.isDigit = [] then none
      else some (cs.takeWhile Char.isDigit)) := by
  simp only [digits?, Text.findIdx_not_isDigitByte]
  have hcut := cut_append (cs.takeWhile Char.isDigit) (cs.dropWhile Char.isDigit)
  rw [List.takeWhile_append_dropWhile] at hcut
  cases hdigits : cs.takeWhile Char.isDigit with
  | nil => rfl
  | cons c digits =>
    have hpos := c.utf8Size_pos
    have hlength : (Text.bytes (c :: digits)).length ≠ 0 := by
      rw [Text.length_bytes_cons]
      omega
    rw [if_neg hlength, if_neg (List.cons_ne_nil c digits), ← hdigits, hcut]
    rfl

/-- An integer that is not negative can be given either sign. -/
theorem exists_withSign (negative : Bool) {n : Int128} (h : 0 ≤ n.value) :
    ∃ m, withSign negative n = .ok m ∧ m.value = if negative then -n.value else n.value := by
  cases negative with
  | false => exact ⟨n, rfl, rfl⟩
  | true =>
    obtain ⟨m, hm, hvalue⟩ := Int128.exists_neg? h
    exact ⟨m, by simp [withSign, hm], hvalue⟩

end LeadingInteger

/-- Reading the integer at the start of a text can be carried out, whatever the text. It is the one
that the digits after blanks and a sign stand for, or the nearest one that fits. -/
theorem exists_leadingInteger (cs : List Char) {rest digits : List Char} {negative : Bool}
    (hsign : LeadingInteger.signed (Text.trimStart cs) = (negative, rest))
    (hdigits : rest.takeWhile Char.isDigit = digits) :
    ∃ n?, leadingInteger cs = .ok n? ∧ n?.map Int128.value =
      if digits = [] then none
      else some ((if negative then -1 else 1) *
        min (Decimal.ofDigits 10 digits : Int) Int128.greatest.value) := by
  have hread : leadingInteger cs = (do
      match if digits = [] then none else some digits with
      | none => return none
      | some digits =>
        some <$> LeadingInteger.withSign negative (LeadingInteger.magnitude digits)) := by
    rw [leadingInteger, LeadingInteger.afterSign_eq, hsign]
    simp only [bind, Except.bind, LeadingInteger.digits?_eq, hdigits]
  by_cases hnone : digits = []
  · exact ⟨none, by rw [hread, if_pos hnone]; rfl, by rw [if_pos hnone]; rfl⟩
  · have hall : ∀ c ∈ digits, c.isDigit = true := by
      rw [← hdigits]
      exact List.all_eq_true.mp List.all_takeWhile
    have hvalue := Int128.value_getD_ofText? hnone hall
    have hnonneg : 0 ≤ (LeadingInteger.magnitude digits).value := by
      have hgreatest : 0 ≤ Int128.greatest.value := by decide
      rw [LeadingInteger.magnitude, hvalue]
      omega
    obtain ⟨m, hm, hsigned⟩ := LeadingInteger.exists_withSign negative hnonneg
    refine ⟨some m, ?_, ?_⟩
    · rw [hread, if_neg hnone]
      simp only [hm]
      rfl
    · rw [if_neg hnone, Option.map_some, hsigned, LeadingInteger.magnitude, hvalue]
      cases negative <;> simp

namespace SentenceCount

theorem read_ne_error (raw : Option String) (trap : Trap) : read raw ≠ .error trap := by
  cases raw with
  | none => simp [read]
  | some text =>
    obtain ⟨n?, hn, -⟩ := exists_leadingInteger text.toList rfl rfl
    simp [read, hn, Except.map]

/-- The number of sentences that a text asks for. -/
def parse (raw : Option String) : SentenceCount :=
  match h : read raw with
  | .ok count => count
  | .error trap => absurd h (read_ne_error raw trap)

end SentenceCount

end RandomSentences
