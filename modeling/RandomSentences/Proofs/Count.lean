import Mathlib.Data.List.Induction
import Mathlib.Data.Nat.Digits.Defs
import RandomSentences.Service.Count

/-!
# The number that a text asks for

What a text asks for can be said without bytes and bits. A text is blanks, a sign or none, digits
and whatever is left, where each part goes on as long as it can: this is a `Reading`, and every text
has one. The digits stand for a number of any size, which the sign makes negative or leaves. If
there are digits and the integer is positive, the text asks for as many sentences, though never for
more than twenty; in all other cases it asks for one.

`SentenceCount.value_parse` says that this is what comes out, although an integer of 128 bits is
read and converted to 64 bits on the way. An integer that fits into neither is so great that it
makes no difference how great it is taken to be, and its sign is never lost.
-/

namespace RandomSentences

/-- A text as blanks, a sign or none, digits and a rest. No part could be longer. -/
structure Reading where
  blanks : List Char
  sign : List Char
  digits : List Char
  rest : List Char
  isBlank_blanks : ∀ c ∈ blanks, Text.isBlank c = true
  not_isBlank_head : ∀ c ∈ (sign ++ (digits ++ rest)).head?, Text.isBlank c = false
  sign_cases : sign = ['-'] ∨ sign = ['+'] ∨
    sign = [] ∧ ∀ c ∈ (digits ++ rest).head?, c ≠ '-' ∧ c ≠ '+'
  isDigit_digits : ∀ c ∈ digits, c.isDigit = true
  not_isDigit_head : ∀ c ∈ rest.head?, c.isDigit = false

namespace Reading

/-- The characters of all parts. -/
def chars (r : Reading) : List Char :=
  r.blanks ++ (r.sign ++ (r.digits ++ r.rest))

/-- The number that the digits stand for. -/
def magnitude (r : Reading) : Nat :=
  Nat.ofDigits 10 (r.digits.reverse.map fun c => c.toNat - '0'.toNat)

/-- The integer that the digits stand for together with the sign. -/
def value (r : Reading) : Int :=
  if r.sign = ['-'] then -r.magnitude else r.magnitude

/-! ### Every text has a reading -/

variable {cs : List Char} {p : Char → Bool}

theorem head?_dropWhile_eq_false {c : Char} (h : c ∈ (cs.dropWhile p).head?) : p c = false := by
  have hhead := List.head?_dropWhile_not p cs
  rw [Option.mem_def.mp h] at hhead
  simpa using hhead

/-- What follows a sign, and the sign. -/
theorem exists_sign (cs : List Char) :
    ∃ sign, sign ++ (LeadingInteger.signed cs).2 = cs ∧
      (sign = ['-'] ∨ sign = ['+'] ∨
        sign = [] ∧ ∀ c ∈ (LeadingInteger.signed cs).2.head?, c ≠ '-' ∧ c ≠ '+') := by
  fun_cases LeadingInteger.signed cs with
  | case1 rest => exact ⟨['-'], rfl, .inl rfl⟩
  | case2 rest => exact ⟨['+'], rfl, .inr (.inl rfl)⟩
  | case3 cs hnotMinus hnotPlus =>
    refine ⟨[], rfl, .inr (.inr ⟨rfl, fun c hc => ⟨?_, ?_⟩⟩)⟩
    · rintro rfl
      exact LeadingInteger.head?_ne_of_ne_cons hnotMinus hc
    · rintro rfl
      exact LeadingInteger.head?_ne_of_ne_cons hnotPlus hc

/-- Every text can be taken apart. -/
theorem exists_chars_eq (cs : List Char) : ∃ r : Reading, r.chars = cs := by
  obtain ⟨sign, hrest, hsign⟩ := exists_sign (Text.trimStart cs)
  generalize (LeadingInteger.signed (Text.trimStart cs)).2 = rest at hrest hsign
  have hdigits : rest.takeWhile Char.isDigit ++ rest.dropWhile Char.isDigit = rest :=
    List.takeWhile_append_dropWhile
  have hchars : cs.takeWhile Text.isBlank ++
      (sign ++ (rest.takeWhile Char.isDigit ++ rest.dropWhile Char.isDigit)) = cs := by
    rw [hdigits, hrest]
    exact List.takeWhile_append_dropWhile
  refine ⟨{
    blanks := cs.takeWhile Text.isBlank
    sign := sign
    digits := rest.takeWhile Char.isDigit
    rest := rest.dropWhile Char.isDigit
    isBlank_blanks := List.all_eq_true.mp List.all_takeWhile
    not_isBlank_head := ?_
    sign_cases := by rwa [hdigits]
    isDigit_digits := List.all_eq_true.mp List.all_takeWhile
    not_isDigit_head := fun c hc => head?_dropWhile_eq_false hc }, hchars⟩
  rw [hdigits, hrest]
  exact fun c hc => head?_dropWhile_eq_false hc

/-! ### Each part goes on as long as it can -/

/-- Where the members that fulfil a condition end, a list is cut by the condition. -/
theorem takeWhile_append_of_head {before after : List Char} (hbefore : ∀ c ∈ before, p c = true)
    (hafter : ∀ c ∈ after.head?, p c = false) :
    (before ++ after).takeWhile p = before ∧ (before ++ after).dropWhile p = after := by
  rw [List.takeWhile_append_of_pos hbefore, List.dropWhile_append_of_pos hbefore]
  cases after with
  | nil => simp
  | cons c after =>
    have hc : p c = false := hafter c rfl
    simp [hc]

/-- Leaving out blanks and a sign gives the digits and the rest. -/
theorem signed_trimStart_chars (r : Reading) :
    LeadingInteger.signed (Text.trimStart r.chars) =
      (decide (r.sign = ['-']), r.digits ++ r.rest) := by
  have htrim : Text.trimStart r.chars = r.sign ++ (r.digits ++ r.rest) :=
    (takeWhile_append_of_head r.isBlank_blanks r.not_isBlank_head).2
  rw [htrim]
  rcases r.sign_cases with hsign | hsign | ⟨hsign, hhead⟩
  · simp [hsign, LeadingInteger.signed]
  · simp [hsign, LeadingInteger.signed]
  · rw [hsign, List.nil_append]
    generalize r.digits ++ r.rest = rest at hhead
    fun_cases LeadingInteger.signed rest with
    | case1 => exact absurd rfl (hhead '-' rfl).1
    | case2 => exact absurd rfl (hhead '+' rfl).2
    | case3 => rfl

theorem takeWhile_isDigit (r : Reading) :
    (r.digits ++ r.rest).takeWhile Char.isDigit = r.digits :=
  (takeWhile_append_of_head r.isDigit_digits r.not_isDigit_head).1

/-! ### Numbers in base ten -/

theorem digitValue?_of_isDigit {c : Char} (h : c.isDigit = true) :
    Decimal.digitValue? c = some (c.toNat - '0'.toNat) := by
  rw [Decimal.digitValue?, if_pos (Text.isDigit_iff_le.mp h)]

/-- Reading digits from the left gives the number that they stand for. -/
theorem ofDigits_digits (r : Reading) : Decimal.ofDigits 10 r.digits = r.magnitude := by
  have h := r.isDigit_digits
  rw [magnitude]
  generalize r.digits = ds at h
  induction ds using List.reverseRecOn with
  | nil => rfl
  | append_singleton ds c ih =>
    have ih := ih fun d hd => h d (List.mem_append_left _ hd)
    have hc := h c (List.mem_append_right _ (List.mem_singleton_self c))
    have hlast : Decimal.ofDigits 10 (ds ++ [c]) =
        Decimal.ofDigits 10 ds * 10 + (c.toNat - '0'.toNat) := by
      rw [Decimal.ofDigits, List.foldl_append, List.foldl_cons, List.foldl_nil,
        digitValue?_of_isDigit hc, Option.getD_some, Decimal.ofDigits]
    rw [hlast, ih, List.reverse_append, List.reverse_singleton, List.singleton_append,
      List.map_cons, Nat.ofDigits_cons]
    omega

/-- The digits that a number is written with stand for the number. -/
theorem ofDigits_toDigits (n : Nat) :
    Nat.ofDigits 10 ((Nat.toDigits 10 n).reverse.map fun c => c.toNat - '0'.toNat) = n := by
  have hfold : ∀ ds : List Char, Nat.ofDigits 10 (ds.reverse.map fun c => c.toNat - '0'.toNat) =
      Nat.ofDigitChars 10 ds 0 := by
    intro ds
    rw [Nat.ofDigits_eq_foldr, List.foldr_map, List.foldr_reverse, Nat.ofDigitChars]
    simp only [Nat.cast_id, Nat.add_comm]
  rw [hfold, Nat.ofDigitChars_ten_toDigits]

/-! ### Readings with digits -/

theorem not_isBlank_of_isDigit {c : Char} (h : c.isDigit = true) : Text.isBlank c = false := by
  have hc := Text.isDigit_iff.mp h
  have hval : c.val.toNat = c.toNat := rfl
  simp only [Text.isBlank, Bool.or_eq_false_iff, Bool.and_eq_false_iff, decide_eq_false_iff_not,
    beq_eq_false_iff_ne, ne_eq, ← UInt32.toNat_inj, UInt32.le_iff_toNat_le, hval,
    UInt32.reduceToNat]
  omega

section WithDigits

variable (blanks sign digits rest : List Char) (hblanks : ∀ c ∈ blanks, Text.isBlank c = true)
  (hsign : sign = ['-'] ∨ sign = ['+'] ∨ sign = []) (hne : digits ≠ [])
  (hdigits : ∀ c ∈ digits, c.isDigit = true) (hrest : ∀ c ∈ rest.head?, c.isDigit = false)

/-- Blanks end before digits with any sign, and there is no further sign at the first digit. -/
def withDigits : Reading where
  blanks := blanks
  sign := sign
  digits := digits
  rest := rest
  isBlank_blanks := hblanks
  not_isBlank_head := by
    obtain ⟨d, ds, rfl⟩ := List.exists_cons_of_ne_nil hne
    have hd := not_isBlank_of_isDigit (hdigits d (List.mem_cons_self ..))
    rcases hsign with rfl | rfl | rfl
    · simp [Text.isBlank]
    · simp [Text.isBlank]
    · simpa using hd
  sign_cases := by
    obtain ⟨d, ds, rfl⟩ := List.exists_cons_of_ne_nil hne
    have hd := hdigits d (List.mem_cons_self ..)
    refine hsign.imp_right (Or.imp_right fun h => ⟨h, ?_⟩)
    intro c hc
    obtain rfl : d = c := by simpa using hc
    exact ⟨fun hminus => by simp [hminus] at hd, fun hplus => by simp [hplus] at hd⟩
  isDigit_digits := hdigits
  not_isDigit_head := hrest

end WithDigits

/-- The text of an integer in base ten is read as this integer. -/
theorem exists_chars_eq_toString (n : Int) :
    ∃ r : Reading, r.chars = (toString n).toList ∧ r.digits ≠ [] ∧ r.value = n := by
  have hdigits : ∀ m : Nat, ∀ c ∈ Nat.toDigits 10 m, c.isDigit = true := fun m c hc =>
    Nat.isDigit_of_mem_toDigits (by decide) (by decide) hc
  cases n with
  | ofNat m =>
    have hwritten : (toString (Int.ofNat m)).toList = Nat.toDigits 10 m := Nat.toList_repr
    refine ⟨withDigits [] [] (Nat.toDigits 10 m) [] (by simp) (.inr (.inr rfl)) Nat.toDigits_ne_nil
      (hdigits m) (by simp), ?_, Nat.toDigits_ne_nil, ?_⟩
    · simp only [hwritten, chars, withDigits, List.nil_append, List.append_nil]
    · simp only [value, magnitude, withDigits, ofDigits_toDigits]
      rfl
  | negSucc m =>
    have hwritten : (toString (Int.negSucc m)).toList = '-' :: Nat.toDigits 10 (m + 1) := by
      have htext : toString (Int.negSucc m) = "-" ++ (m + 1).repr := rfl
      rw [htext, String.toList_append, Nat.toList_repr]
      rfl
    refine ⟨withDigits [] ['-'] (Nat.toDigits 10 (m + 1)) [] (by simp) (.inl rfl)
      Nat.toDigits_ne_nil (hdigits (m + 1)) (by simp), ?_, Nat.toDigits_ne_nil, ?_⟩
    · simp only [hwritten, chars, withDigits, List.nil_append, List.append_nil,
        List.singleton_append]
    · simp only [value, magnitude, withDigits, ofDigits_toDigits]
      rfl

end Reading

/-! ### From the integer to the number of sentences -/

namespace SentenceCount

/-- An integer gives the nearest number of sentences. -/
theorem value_ofInteger_some (n : Int128) :
    ((ofInteger (some n)).value : Int) = if n.value ≤ 0 then 1 else min n.value 20 := by
  rw [ofInteger]
  by_cases hpos : 0 < n.value
  · rw [if_pos hpos, if_neg (by omega), Int128.toUInt64?]
    by_cases hfits : n.value ≤ 0xFFFFFFFFFFFFFFFF
    · have htoNat : (UInt64.ofNat n.value.toNat).toNat = n.value.toNat :=
        UInt64.toNat_ofNat_of_lt' (by simp only [UInt64.size]; omega)
      rw [if_pos ⟨hpos.le, hfits⟩, Option.elim_some, htoNat]
      simp only [ofNat, defaultSentences, maxSentences]
      omega
    · rw [if_neg (fun h => hfits h.2), Option.elim_none]
      simp only [ofNat, defaultSentences, maxSentences]
      omega
  · rw [if_neg hpos, if_pos (by omega)]
    rfl

theorem read_eq_ok_parse (raw : Option String) : read raw = .ok (parse raw) := by
  unfold parse
  split
  · assumption
  · rename_i trap h
    exact absurd h (read_ne_error raw trap)

/-- A number of sentences is known by its value. -/
theorem ext_value {count other : SentenceCount} (h : count.value = other.value) :
    count = other := by
  obtain ⟨value, hmin, hmax⟩ := count
  obtain ⟨value', hmin', hmax'⟩ := other
  obtain rfl : value = value' := h
  rfl

variable {text : String}

/-- What a text asks for can be read off its parts. -/
theorem value_parse_of_reading {r : Reading} (hr : r.chars = text.toList) :
    ((parse (some text)).value : Int) =
      if r.digits = [] ∨ r.value ≤ 0 then 1 else min r.value 20 := by
  obtain ⟨n?, hread, hvalue⟩ :=
    exists_leadingInteger r.chars r.signed_trimStart_chars r.takeWhile_isDigit
  have hparse : parse (some text) = ofInteger n? := by
    have hok := read_eq_ok_parse (some text)
    rw [read, ← hr, hread] at hok
    exact (Except.ok.inj hok).symm
  rw [hparse]
  by_cases hnone : r.digits = []
  · rw [if_pos hnone, Option.map_eq_none_iff] at hvalue
    rw [if_pos (.inl hnone), hvalue]
    rfl
  · rw [if_neg hnone, r.ofDigits_digits] at hvalue
    obtain ⟨n, rfl, hsigned⟩ := Option.map_eq_some_iff.mp hvalue
    have hnonneg : 0 ≤ (r.magnitude : Int) := Int.natCast_nonneg _
    have hgreatest : 20 ≤ Int128.greatest.value := by decide
    rw [value_ofInteger_some, Reading.value]
    by_cases hminus : r.sign = ['-']
    -- a negative integer stays negative when it is made to fit
    · have hn : n.value = -min (r.magnitude : Int) Int128.greatest.value := by
        simpa [hminus] using hsigned
      rw [if_pos hminus, if_pos (by omega), if_pos (.inr (by omega))]
    · have hn : n.value = min (r.magnitude : Int) Int128.greatest.value := by
        simpa [hminus] using hsigned
      rw [if_neg hminus]
      by_cases hzero : (r.magnitude : Int) ≤ 0
      · rw [if_pos (by omega), if_pos (.inr hzero)]
      · rw [if_neg (by omega), if_neg (not_or.mpr ⟨hnone, hzero⟩)]
        omega

/-- What comes after digits makes no difference, unless it starts with a digit. -/
theorem parse_append_of_reading {r : Reading} (hr : r.chars = text.toList) (hne : r.digits ≠ [])
    {more : String} (hmore : ∀ c ∈ more.toList.head?, c.isDigit = false) :
    parse (some (text ++ more)) = parse (some text) := by
  have hsign : r.sign = ['-'] ∨ r.sign = ['+'] ∨ r.sign = [] :=
    r.sign_cases.imp_right (Or.imp_right And.left)
  have hrest : ∀ c ∈ (r.rest ++ more.toList).head?, c.isDigit = false := by
    intro c hc
    cases hcs : r.rest with
    | nil => exact hmore c (by simpa [hcs] using hc)
    | cons d rest => exact r.not_isDigit_head c (by simpa [hcs] using hc)
  let longer := Reading.withDigits r.blanks r.sign r.digits (r.rest ++ more.toList)
    r.isBlank_blanks hsign hne r.isDigit_digits hrest
  have hlonger : longer.chars = (text ++ more).toList := by
    rw [String.toList_append, ← hr]
    simp [longer, Reading.chars, Reading.withDigits]
  have hsame : longer.digits = r.digits ∧ longer.value = r.value := ⟨rfl, rfl⟩
  have hvalue : ((parse (some (text ++ more))).value : Int) = (parse (some text)).value := by
    rw [value_parse_of_reading hlonger, value_parse_of_reading hr, hsame.1, hsame.2]
  exact ext_value (Int.ofNat_inj.mp hvalue)

/-- An integer in base ten asks for as many sentences as a number does that is given as such. -/
theorem parse_toString (n : Int) : parse (some (toString n)) = ofNat n.toNat := by
  obtain ⟨r, hr, hne, hvalue⟩ := Reading.exists_chars_eq_toString n
  have hparse := value_parse_of_reading hr
  rw [hvalue] at hparse
  have hofNat : ((ofNat n.toNat).value : Int) = max 1 (min n.toNat 20) := by
    simp [ofNat, defaultSentences, maxSentences]
  refine ext_value (Int.ofNat_inj.mp ?_)
  rw [hparse, hofNat]
  by_cases hpos : n ≤ 0
  · rw [if_pos (.inr hpos)]
    omega
  · rw [if_neg (not_or.mpr ⟨hne, hpos⟩)]
    omega

/-- **What a text asks for.** Every text can be taken apart into blanks, a sign or none, as many
digits as there are and a rest. If there are digits and the integer that they stand for with the
sign is positive, the text asks for the smaller one of this integer and twenty, else for one; and
finding this out can be carried out for every text, since nothing overflows and nothing is cut
within a character. So the text of a number of 64 bits asks for what the number asks for, and a text
with digits asks for the same if something is appended that does not start with a digit. -/
theorem value_parse :
    (∀ text : String, ∃ r : Reading, r.chars = text.toList) ∧
    (∀ (text : String) (r : Reading), r.chars = text.toList →
      ((parse (some text)).value : Int) =
        if r.digits = [] ∨ r.value ≤ 0 then 1 else min r.value 20) ∧
    (∀ raw, read raw = .ok (parse raw)) ∧
    (∀ n : UInt64, parse (some (toString n)) = ofNat n.toNat) ∧
    (∀ n : Int, parse (some (toString n)) = ofNat n.toNat) ∧
    ∀ (text : String) (r : Reading), r.chars = text.toList → r.digits ≠ [] →
      ∀ more : String, (∀ c ∈ more.toList.head?, c.isDigit = false) →
        parse (some (text ++ more)) = parse (some text) := by
  refine ⟨fun text => Reading.exists_chars_eq _, fun text r hr => value_parse_of_reading hr,
    read_eq_ok_parse, fun n => ?_, parse_toString,
    fun text r hr hne more hmore => parse_append_of_reading hr hne hmore⟩
  exact parse_toString n.toNat

/-- An integer below all of 128 bits asks for one sentence, one above them for twenty. -/
example :
    (parse (some "-999999999999999999999999999999999999999999 geese")).value = 1 ∧
    (parse (some "\t+999999999999999999999999999999999999999999geese")).value = 20 := by
  decide +kernel

end SentenceCount

end RandomSentences
