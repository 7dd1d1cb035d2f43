import RandomSentences.Text.Blank

/-!
# Texts and their bytes

Some texts are read byte by byte, and cut at an offset that is a number of bytes. A text can only be
cut between characters, so there are offsets without a result: within a character of several bytes,
and after the end. `splitAtByte?_append` says that the offset at which a first part ends gives this
part and the rest.

A byte below 128 is always a whole character, of ASCII. Thus what is found by looking for such bytes
is found at a place between characters.
-/

namespace RandomSentences.Text

/-- The bytes of a text. -/
def bytes (cs : List Char) : List UInt8 :=
  cs.flatMap String.utf8EncodeChar

/-- The text before and after an offset in bytes, if a character ends there. -/
def splitAtByte? : List Char → Nat → Option (List Char × List Char)
  | cs, 0 => some ([], cs)
  | [], _ + 1 => none
  | c :: cs, offset + 1 =>
    if c.utf8Size ≤ offset + 1 then
      (splitAtByte? cs (offset + 1 - c.utf8Size)).map fun (before, after) => (c :: before, after)
    else
      none

/-- Whether a byte is a digit of ASCII. -/
def isDigitByte (b : UInt8) : Bool :=
  0x30 ≤ b && b ≤ 0x39

/-! ### Bytes of characters -/

theorem bytes_cons (c : Char) (cs : List Char) :
    bytes (c :: cs) = String.utf8EncodeChar c ++ bytes cs :=
  List.flatMap_cons

theorem length_bytes_cons (c : Char) (cs : List Char) :
    (bytes (c :: cs)).length = c.utf8Size + (bytes cs).length := by
  rw [bytes_cons, List.length_append, String.length_utf8EncodeChar]

/-- A character is one byte with the same number, or neither it nor its first byte is of ASCII. -/
theorem exists_utf8EncodeChar_eq_cons (c : Char) :
    ∃ first later, String.utf8EncodeChar c = first :: later ∧
      (later = [] ∧ first.toNat = c.toNat ∨ 128 ≤ first.toNat ∧ 128 ≤ c.toNat) := by
  have hbyte : ∀ bits mark, 128 ≤ mark → bits + mark < 256 →
      128 ≤ (UInt8.ofNat (bits + mark)).toNat := by
    intro bits mark hmark hlt
    rw [UInt8.toNat_ofNat', Nat.mod_eq_of_lt hlt]
    omega
  have hval : c.val.toNat = c.toNat := rfl
  rw [String.utf8EncodeChar]
  simp only [hval]
  split
  · refine ⟨_, _, rfl, .inl ⟨rfl, ?_⟩⟩
    rw [UInt8.toNat_ofNat', Nat.mod_eq_of_lt (by omega)]
  -- the first byte is marked as one of two, three or four
  · split
    · exact ⟨_, _, rfl, .inr ⟨hbyte _ 192 (by omega) (by omega), by omega⟩⟩
    · split
      · exact ⟨_, _, rfl, .inr ⟨hbyte _ 224 (by omega) (by omega), by omega⟩⟩
      · exact ⟨_, _, rfl, .inr ⟨hbyte _ 240 (by omega) (by omega), by omega⟩⟩

/-- A text starts with the byte of a character of ASCII exactly if it starts with the character. -/
theorem head?_bytes_eq_some_iff {cs : List Char} {d : Char} {b : UInt8} (hd : d.toNat < 128)
    (hb : b.toNat = d.toNat) : (bytes cs).head? = some b ↔ cs.head? = some d := by
  cases cs with
  | nil => simp [bytes]
  | cons c cs =>
    obtain ⟨first, later, heq, hfirst⟩ := exists_utf8EncodeChar_eq_cons c
    rw [bytes_cons, heq, List.cons_append, List.head?_cons, List.head?_cons, Option.some_inj,
      Option.some_inj, ← UInt8.toNat_inj, ← Char.toNat_inj]
    omega

theorem isDigit_iff_le {c : Char} : c.isDigit = true ↔ '0' ≤ c ∧ c ≤ '9' :=
  (Bool.and_eq_true ..).to_iff.trans (and_congr decide_eq_true_iff decide_eq_true_iff)

theorem isDigit_iff {c : Char} : c.isDigit = true ↔ 48 ≤ c.toNat ∧ c.toNat ≤ 57 := by
  simp [Char.isDigit, UInt32.le_iff_toNat_le]

theorem isDigitByte_iff {b : UInt8} : isDigitByte b = true ↔ 48 ≤ b.toNat ∧ b.toNat ≤ 57 := by
  simp [isDigitByte, UInt8.le_iff_toNat_le]

/-- The first byte that is no digit comes after the first characters that are digits. -/
theorem findIdx_not_isDigitByte (cs : List Char) :
    (bytes cs).findIdx (!isDigitByte ·) = (bytes (cs.takeWhile Char.isDigit)).length := by
  induction cs with
  | nil => rfl
  | cons c cs ih =>
    obtain ⟨first, later, heq, hfirst⟩ := exists_utf8EncodeChar_eq_cons c
    have hdigit : isDigitByte first = true ↔ c.isDigit = true := by
      rw [isDigitByte_iff, isDigit_iff]
      omega
    rw [bytes_cons, heq, List.cons_append, List.findIdx_cons]
    cases hc : c.isDigit with
    | false =>
      have hbyte : isDigitByte first = false := by
        rw [← Bool.not_eq_true, hdigit, hc]
        simp
      rw [hbyte, List.takeWhile_cons_of_neg (by simp [hc])]
      rfl
    | true =>
      obtain ⟨rfl, -⟩ : later = [] ∧ first.toNat = c.toNat := by
        rw [isDigit_iff] at hc
        rcases hfirst with hfirst | hfirst
        · exact hfirst
        · omega
      rw [hdigit.mpr hc, List.takeWhile_cons_of_pos hc, bytes_cons, heq, List.nil_append, ih]
      rfl

/-! ### Cutting -/

/-- A text is cut where its first part ends. -/
theorem splitAtByte?_append (before after : List Char) :
    splitAtByte? (before ++ after) (bytes before).length = some (before, after) := by
  induction before with
  | nil => cases after <;> rfl
  | cons c before ih =>
    have hpos := c.utf8Size_pos
    obtain ⟨offset, hoffset⟩ : ∃ offset, (bytes (c :: before)).length = offset + 1 :=
      Nat.exists_eq_succ_of_ne_zero (by rw [length_bytes_cons]; omega)
    have hrest : offset + 1 - c.utf8Size = (bytes before).length := by
      rw [← hoffset, length_bytes_cons]
      omega
    have hle : c.utf8Size ≤ offset + 1 := by
      rw [← hoffset, length_bytes_cons]
      omega
    rw [hoffset, List.cons_append, splitAtByte?, if_pos hle, hrest, ih]
    rfl

/-- A character of two bytes cannot be cut, and nothing comes after it. -/
example :
    (List.range 4).map (splitAtByte? ['é']) = [some ([], ['é']), none, some (['é'], []), none] := by
  decide

end RandomSentences.Text
