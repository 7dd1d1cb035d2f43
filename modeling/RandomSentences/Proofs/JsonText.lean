import RandomSentences.Json.Printer
import RandomSentences.Json.Reader
import RandomSentences.Proofs.Count

/-!
# The texts of a JSON value

A value can be written in many ways: with blanks between the tokens, with escapes for any of the
characters of a string, with either letter before an exponent. The grammar of JSON says which texts
there are: `JsonNumber.IsText` for numbers, `Json.StringText` for strings, and `Json.ValueText` for
all values. A text of a document is a value between blanks, `Json.IsDocument`.

Whatever text is taken, the value is read from it (`Json.read_of_isDocument`), so a text has at most
one value. The induction follows the grammar and not the reader, and its invariant is twofold: what
comes after a value cannot go on within it (`Json.Ends`), and the count that bounds the recursion is
at least twice the length of the text. Both ways of writing a value give a text of it.
-/

namespace RandomSentences

namespace JsonNumber

/-- At least one digit, and nothing else. -/
def IsRun (ds : List Char) : Prop :=
  ds ≠ [] ∧ ∀ c ∈ ds, c.isDigit = true

/-- The texts of the digits after a point. -/
inductive FractionText : Option (List Char) → List Char → Prop
  | absent : FractionText none []
  | present {ds : List Char} : IsRun ds → FractionText (some ds) ('.' :: ds)

/-- The letters before an exponent. -/
abbrev IsMark (c : Char) : Prop :=
  c = 'e' ∨ c = 'E'

/-- The texts of an exponent. -/
inductive ExponentText : Option (Bool × List Char) → List Char → Prop
  | absent : ExponentText none []
  | bare {mark : Char} {ds : List Char} : IsMark mark → IsRun ds →
      ExponentText (some (false, ds)) (mark :: ds)
  | plus {mark : Char} {ds : List Char} : IsMark mark → IsRun ds →
      ExponentText (some (false, ds)) (mark :: '+' :: ds)
  | minus {mark : Char} {ds : List Char} : IsMark mark → IsRun ds →
      ExponentText (some (true, ds)) (mark :: '-' :: ds)

/-- The texts of a number. The whole part starts with a zero only if it is zero. -/
inductive IsText : JsonNumber → List Char → Prop
  | literal {negative : Bool} {whole fractionText exponentText : List Char}
      {fraction : Option (List Char)} {exponent : Option (Bool × List Char)} :
      IsRun whole → (whole.head? = some '0' → whole = ['0']) →
      FractionText fraction fractionText → ExponentText exponent exponentText →
      IsText ⟨negative, whole, fraction, exponent⟩
        ((if negative then ['-'] else []) ++ (whole ++ (fractionText ++ exponentText)))

end JsonNumber

namespace Json

/-- Blanks between the tokens of a text. -/
def IsGap (cs : List Char) : Prop :=
  ∀ c ∈ cs, isSpace c = true

/-- What the letters after a backslash stand for. -/
def escapes : List (Char × Char) :=
  [('\x22', '\x22'), ('\x5c', '\x5c'), ('/', '/'), ('b', '\x08'), ('f', '\x0c'), ('n', '\n'),
    ('r', '\r'), ('t', '\t')]

/-- What a code of 16 bits stands for within a string. -/
def partOfUnit (unit : Nat) : StringPart :=
  if 0xD800 ≤ unit ∧ unit < 0xE000 then .half unit else .char (Char.ofNat unit)

/-- The texts of a part of a string. -/
inductive PartText : StringPart → List Char → Prop
  | plain {c : Char} : 0x20 ≤ c.toNat → c ≠ '\x22' → c ≠ '\x5c' → PartText (.char c) [c]
  | letter {e c : Char} : (e, c) ∈ escapes → PartText (.char c) ['\x5c', e]
  | code {a b c d : Char} : (∀ digit ∈ [a, b, c, d], Decimal.isDigitIn 16 digit = true) →
      PartText (partOfUnit (Decimal.ofDigits 16 [a, b, c, d])) ['\x5c', 'u', a, b, c, d]

/-- The texts of the parts of a string. -/
inductive PartsText : List StringPart → List Char → Prop
  | nil : PartsText [] []
  | cons {part : StringPart} {parts : List StringPart} {cs rest : List Char} :
      PartText part cs → PartsText parts rest → PartsText (part :: parts) (cs ++ rest)

/-- The texts of a string. -/
inductive StringText : Option String → List Char → Prop
  | quoted {parts : List StringPart} {cs : List Char} : PartsText parts cs →
      StringText ((textOfParts? parts).map String.ofList) ('\x22' :: (cs ++ ['\x22']))

mutual

/-- The texts of a value, without blanks around it. -/
inductive ValueText : Json → List Char → Prop
  | null : ValueText null "null".toList
  | true : ValueText (bool true) "true".toList
  | false : ValueText (bool false) "false".toList
  | number {literal : JsonNumber} {cs : List Char} : literal.IsText cs →
      ValueText (number literal) cs
  | string {text : Option String} {cs : List Char} : StringText text cs →
      ValueText (string text) cs
  | emptyArray {gap : List Char} : IsGap gap → ValueText (array []) ('[' :: (gap ++ [']']))
  | array {items : List Json} {cs : List Char} : ItemsText items cs →
      ValueText (array items) ('[' :: (cs ++ [']']))
  | emptyObject {gap : List Char} : IsGap gap →
      ValueText (object []) ('\x7b' :: (gap ++ ['\x7d']))
  | object {members : List (Option String × Json)} {cs : List Char} : MembersText members cs →
      ValueText (object members) ('\x7b' :: (cs ++ ['\x7d']))

/-- The texts of a value between blanks. -/
inductive ItemText : Json → List Char → Prop
  | padded {value : Json} {before cs after : List Char} : IsGap before → ValueText value cs →
      IsGap after → ItemText value (before ++ (cs ++ after))

/-- The texts of at least one value, with commas between several. -/
inductive ItemsText : List Json → List Char → Prop
  | last {item : Json} {cs : List Char} : ItemText item cs → ItemsText [item] cs
  | cons {item : Json} {items : List Json} {cs rest : List Char} : ItemText item cs →
      ItemsText items rest → ItemsText (item :: items) (cs ++ ',' :: rest)

/-- The texts of a member of an object, between blanks. -/
inductive MemberText : Option String → Json → List Char → Prop
  | pair {key : Option String} {value : Json} {before name after cs : List Char} :
      IsGap before → StringText key name → IsGap after → ItemText value cs →
      MemberText key value (before ++ (name ++ (after ++ ':' :: cs)))

/-- The texts of at least one member, with commas between several. -/
inductive MembersText : List (Option String × Json) → List Char → Prop
  | last {key : Option String} {value : Json} {cs : List Char} : MemberText key value cs →
      MembersText [(key, value)] cs
  | cons {key : Option String} {value : Json} {members : List (Option String × Json)}
      {cs rest : List Char} : MemberText key value cs → MembersText members rest →
      MembersText ((key, value) :: members) (cs ++ ',' :: rest)

end

/-- The texts of a document: a value between blanks. -/
def IsDocument (value : Json) (text : String) : Prop :=
  ItemText value text.toList

/-! ### Blanks -/

variable {gap cs rest : List Char}

theorem skipSpace_append_of_head (hgap : IsGap gap) (hcs : ∀ c ∈ cs.head?, isSpace c = false) :
    skipSpace (gap ++ cs) = cs :=
  (Reading.takeWhile_append_of_head hgap hcs).2

theorem skipSpace_append (hgap : IsGap gap) (cs : List Char) :
    skipSpace (gap ++ cs) = skipSpace cs :=
  List.dropWhile_append_of_pos hgap

theorem isSpace_eq_false_of_isDigit {c : Char} (h : c.isDigit = true) : isSpace c = false := by
  rw [Bool.eq_false_iff]
  intro hspace
  simp only [isSpace, Bool.or_eq_true, beq_iff_eq] at hspace
  rcases hspace with ((rfl | rfl) | rfl) | rfl <;> cases h

/-! ### Numbers -/

/-- What comes after a value, so that the value does not go on. -/
def Ends (rest : List Char) : Prop :=
  ∀ c ∈ rest.head?, c.isDigit = false ∧ c ≠ '.' ∧ ¬ JsonNumber.IsMark c

theorem Ends.of_head {c : Char} (h : isSpace c = true ∨ c = ',' ∨ c = ']' ∨ c = '\x7d') :
    Ends (c :: rest) := by
  intro d hd
  obtain rfl : c = d := by simpa using hd
  simp only [isSpace, Bool.or_eq_true, beq_iff_eq] at h
  rcases h with (((rfl | rfl) | rfl) | rfl) | rfl | rfl | rfl <;>
    exact ⟨rfl, by decide, by decide⟩

theorem Ends.append (hgap : IsGap gap) (hrest : Ends rest) : Ends (gap ++ rest) := by
  cases gap with
  | nil => exact hrest
  | cons c gap => exact .of_head (.inl (hgap c (List.mem_cons_self ..)))

end Json

namespace JsonNumber

open Json (Ends readDigits readWhole readFraction readExponent readNumber)

variable {ds cs rest : List Char}

theorem IsRun.exists_cons (h : IsRun ds) : ∃ d tail, ds = d :: tail ∧ d.isDigit = true := by
  obtain ⟨d, tail, rfl⟩ := List.exists_cons_of_ne_nil h.1
  exact ⟨d, tail, rfl, h.2 d (List.mem_cons_self ..)⟩

theorem readDigits_append (h : IsRun ds) (hrest : ∀ c ∈ rest.head?, c.isDigit = false) :
    readDigits (ds ++ rest) = some (ds, rest) := by
  obtain ⟨htake, hdrop⟩ := Reading.takeWhile_append_of_head h.2 hrest
  simp [readDigits, htake, hdrop, h.1]

theorem readWhole_append (h : IsRun ds) (hzero : ds.head? = some '0' → ds = ['0'])
    (hrest : ∀ c ∈ rest.head?, c.isDigit = false) :
    readWhole (ds ++ rest) = some (ds, rest) := by
  have hnot : ¬ (ds.head? = some '0' ∧ 1 < ds.length) := by
    rintro ⟨hhead, hlength⟩
    rw [hzero hhead] at hlength
    exact absurd hlength (by decide)
  rw [readWhole, readDigits_append h hrest]
  simp [hnot]

theorem readFraction_append {fraction : Option (List Char)} (h : FractionText fraction cs)
    (hrest : ∀ c ∈ rest.head?, c.isDigit = false ∧ c ≠ '.') :
    readFraction (cs ++ rest) = some (fraction, rest) := by
  cases h with
  | absent =>
    rw [List.nil_append]
    unfold readFraction
    split
    · exact absurd rfl (hrest '.' rfl).2
    · rfl
  | present hrun =>
    rw [List.cons_append, readFraction, readDigits_append hrun fun c hc => (hrest c hc).1]
    rfl

theorem readExponent_append {exponent : Option (Bool × List Char)} (h : ExponentText exponent cs)
    (hrest : Ends rest) : readExponent (cs ++ rest) = some (exponent, rest) := by
  have hdigits : ∀ c ∈ rest.head?, c.isDigit = false := fun c hc => (hrest c hc).1
  cases h with
  | absent =>
    cases rest with
    | nil => rfl
    | cons c rest =>
      unfold readExponent
      exact if_neg (hrest c rfl).2.2
  | bare hmark hrun =>
    obtain ⟨d, tail, rfl, hd⟩ := hrun.exists_cons
    have hsign : d ≠ '-' ∧ d ≠ '+' := by
      constructor <;> rintro rfl <;> cases hd
    have hread := readDigits_append hrun hdigits
    rw [List.cons_append] at hread ⊢
    simp [readExponent, hmark, hsign, hread]
  | plus hmark hrun | minus hmark hrun =>
    rw [List.cons_append, List.cons_append, readExponent, if_pos hmark]
    simp only [readDigits_append hrun hdigits]
    rfl

theorem head?_append_of_exponentText {exponent : Option (Bool × List Char)}
    (h : ExponentText exponent cs) (hrest : Ends rest) :
    ∀ c ∈ (cs ++ rest).head?, c.isDigit = false ∧ c ≠ '.' := by
  cases h with
  | absent => exact fun c hc => ⟨(hrest c hc).1, (hrest c hc).2.1⟩
  | bare hmark | plus hmark | minus hmark =>
    intro c hc
    obtain rfl := Option.some.inj hc
    rcases hmark with rfl | rfl <;> decide

theorem head?_append_of_fractionText {fraction : Option (List Char)}
    (h : FractionText fraction cs) (hrest : ∀ c ∈ rest.head?, c.isDigit = false ∧ c ≠ '.') :
    ∀ c ∈ (cs ++ rest).head?, c.isDigit = false := by
  cases h with
  | absent => exact fun c hc => (hrest c hc).1
  | present =>
    intro c hc
    obtain rfl := Option.some.inj hc
    decide

/-- A number is read from any of its texts. -/
theorem readNumber_append {literal : JsonNumber} (h : literal.IsText cs) (hrest : Ends rest) :
    readNumber (cs ++ rest) = some (literal, rest) := by
  obtain ⟨hwhole, hzero, hfraction, hexponent⟩ := h
  have hpoint := head?_append_of_exponentText hexponent hrest
  have hdigit := head?_append_of_fractionText hfraction hpoint
  rename_i negative whole fractionText exponentText fraction exponent
  have hread := readWhole_append hwhole hzero hdigit
  cases negative with
  | true =>
    simp [readNumber, hread, readFraction_append hfraction hpoint,
      readExponent_append hexponent hrest]
  | false =>
    obtain ⟨d, tail, rfl, hd⟩ := hwhole.exists_cons
    have hminus : d ≠ '-' := by
      rintro rfl
      cases hd
    rw [List.cons_append] at hread
    simp [readNumber, hminus, hread, readFraction_append hfraction hpoint,
      readExponent_append hexponent hrest]

/-- A number starts with a minus sign or a digit. -/
theorem IsText.exists_cons {literal : JsonNumber} (h : literal.IsText cs) :
    ∃ c tail, cs = c :: tail ∧ (c = '-' ∨ c.isDigit = true) := by
  obtain ⟨hwhole, -, -, -⟩ := h
  obtain ⟨d, tail, rfl, hd⟩ := hwhole.exists_cons
  rename_i negative _ _ _ _
  cases negative with
  | true => exact ⟨'-', _, rfl, .inl rfl⟩
  | false => exact ⟨d, _, rfl, .inr hd⟩

end JsonNumber

namespace Json

variable {gap cs rest : List Char}

/-! ### Strings -/

theorem escapedChar?_of_mem {e c : Char} (h : (e, c) ∈ escapes) :
    escapedChar? e = some c ∧ e ≠ 'u' := by
  simp only [escapes, List.mem_cons, Prod.mk.injEq, List.not_mem_nil, or_false] at h
  rcases h with ⟨rfl, rfl⟩ | ⟨rfl, rfl⟩ | ⟨rfl, rfl⟩ | ⟨rfl, rfl⟩ | ⟨rfl, rfl⟩ | ⟨rfl, rfl⟩ |
    ⟨rfl, rfl⟩ | ⟨rfl, rfl⟩ <;> decide

/-- Reading a part of a string, and then what comes after it. -/
theorem readParts_part {part : StringPart} (h : PartText part cs) (fuel : Nat) :
    readParts (fuel + 1) (cs ++ rest) =
      (readParts fuel rest).map fun read => (part :: read.1, read.2) := by
  rw [Option.map_eq_bind, readParts.eq_def]
  cases h with
  | plain hcontrol hquote hbackslash =>
    rw [List.singleton_append]
    simp only [hquote, hbackslash, show ¬ _ < 0x20 from Nat.not_lt.mpr hcontrol, if_false]
    rfl
  | letter hmem =>
    obtain ⟨hescaped, hu⟩ := escapedChar?_of_mem hmem
    rw [List.cons_append, List.singleton_append]
    simp [hescaped]
  | code hdigits =>
    rename_i a b c d
    have hall : [a, b, c, d].all (Decimal.isDigitIn 16) = true := List.all_eq_true.mpr hdigits
    have hunit : readUnit (a :: b :: c :: d :: rest) =
        some (Decimal.ofDigits 16 [a, b, c, d], rest) := by
      rw [readUnit, if_pos hall]
    simp only [List.cons_append, List.nil_append]
    rw [if_neg (by decide), if_neg (by decide), if_pos trivial]
    simp only [hunit, partOfUnit, Option.bind_eq_bind, Option.bind_some]
    split <;> rfl

theorem length_pos_of_partText {part : StringPart} (h : PartText part cs) : 0 < cs.length := by
  cases h <;> simp

theorem readParts_append {parts : List StringPart} (h : PartsText parts cs) {fuel : Nat}
    (hfuel : cs.length < fuel) : readParts fuel (cs ++ '\x22' :: rest) = some (parts, rest) := by
  induction h generalizing fuel with
  | nil =>
    obtain ⟨fuel, rfl⟩ := Nat.exists_eq_add_one_of_ne_zero (Nat.ne_of_gt hfuel)
    rfl
  | cons hpart hparts ih =>
    have hlength := length_pos_of_partText hpart
    rw [List.length_append] at hfuel
    obtain ⟨fuel, rfl⟩ := Nat.exists_eq_add_one_of_ne_zero (Nat.ne_of_gt (Nat.zero_lt_of_lt hfuel))
    rw [List.append_assoc, readParts_part hpart, ih (by omega)]
    rfl

/-- A string is read from any of its texts. -/
theorem exists_readString {text : Option String} (h : StringText text cs) (rest : List Char) :
    ∃ body, cs ++ rest = '\x22' :: body ∧ readString body = some (text, rest) := by
  obtain ⟨hparts⟩ := h
  rename_i parts cs
  refine ⟨cs ++ '\x22' :: rest, by simp, ?_⟩
  rw [readString, readParts_append hparts (by rw [List.length_append]; omega)]
  rfl

/-! ### Values -/

theorem exists_cons_of_valueText {value : Json} (h : ValueText value cs) :
    ∃ c tail, cs = c :: tail ∧ isSpace c = false ∧ c ≠ ']' ∧ c ≠ '\x7d' := by
  cases h with
  | number hnumber =>
    obtain ⟨c, tail, rfl, hc⟩ := hnumber.exists_cons
    refine ⟨c, tail, rfl, ?_⟩
    rcases hc with rfl | hdigit
    · decide
    · refine ⟨isSpace_eq_false_of_isDigit hdigit, ?_, ?_⟩ <;> rintro rfl <;> cases hdigit
  | string hstring =>
    obtain ⟨-⟩ := hstring
    exact ⟨_, _, rfl, by decide⟩
  | _ => exact ⟨_, _, rfl, by decide⟩

theorem length_pos_of_valueText {value : Json} (h : ValueText value cs) : 0 < cs.length := by
  obtain ⟨c, tail, rfl, -⟩ := exists_cons_of_valueText h
  simp

theorem readValue_append_gap (hgap : IsGap gap) (fuel : Nat) (cs : List Char) :
    readValue fuel (gap ++ cs) = readValue fuel cs := by
  cases fuel with
  | zero => simp [readValue]
  | succ fuel => simp only [readValue, skipSpace_append hgap]

theorem readItems_append_gap (hgap : IsGap gap) (fuel : Nat) (cs : List Char) :
    readItems fuel (gap ++ cs) = readItems fuel cs := by
  cases fuel with
  | zero => simp [readItems]
  | succ fuel => simp only [readItems, readValue_append_gap hgap]

theorem readMembers_append_gap (hgap : IsGap gap) (fuel : Nat) (cs : List Char) :
    readMembers fuel (gap ++ cs) = readMembers fuel cs := by
  cases fuel with
  | zero => simp [readMembers]
  | succ fuel => simp only [readMembers, skipSpace_append hgap]

/-- A number is read by its first character. -/
theorem readValue_number {literal : JsonNumber} (h : literal.IsText cs) (hrest : Ends rest)
    (fuel : Nat) : readValue (fuel + 1) (cs ++ rest) = some (number literal, rest) := by
  have hread := JsonNumber.readNumber_append h hrest
  obtain ⟨c, tail, rfl, hc⟩ := h.exists_cons
  have hspace : isSpace c = false := by
    rcases hc with rfl | hdigit
    · decide
    · exact isSpace_eq_false_of_isDigit hdigit
  have hother : c ≠ 'n' ∧ c ≠ 't' ∧ c ≠ 'f' ∧ c ≠ '\x22' ∧ c ≠ '[' ∧ c ≠ '\x7b' := by
    rcases hc with rfl | hdigit
    · decide
    · refine ⟨?_, ?_, ?_, ?_, ?_, ?_⟩ <;> rintro rfl <;> cases hdigit
  rw [List.cons_append] at hread ⊢
  simp [readValue, skipSpace, hspace, hother, hread]

theorem readValue_string {text : Option String} (h : StringText text cs) (fuel : Nat)
    (rest : List Char) : readValue (fuel + 1) (cs ++ rest) = some (string text, rest) := by
  obtain ⟨body, hbody, hread⟩ := exists_readString h rest
  rw [hbody]
  simp [readValue, skipSpace, isSpace, hread]

theorem isGap_takeWhile (cs : List Char) : IsGap (cs.takeWhile isSpace) :=
  List.all_eq_true.mp List.all_takeWhile

/-- The items of an array are read after its bracket, unless the bracket is closed at once. -/
theorem readValue_array {items : List Json} {fuel : Nat} {c : Char} {inner : List Char}
    (hhead : skipSpace cs = c :: inner) (hc : c ≠ ']')
    (hread : readItems fuel cs = some (items, rest)) :
    readValue (fuel + 1) ('[' :: cs) = some (array items, rest) := by
  have hinner : readItems fuel (c :: inner) = some (items, rest) := by
    rw [← hhead, ← readItems_append_gap (isGap_takeWhile cs), skipSpace,
      List.takeWhile_append_dropWhile, hread]
  have hbracket : skipSpace ('[' :: cs) = '[' :: cs := rfl
  simp [readValue, hbracket, hhead, hc, hinner]

/-- The members of an object are read after its brace, unless the brace is closed at once. -/
theorem readValue_object {members : List (Option String × Json)} {fuel : Nat} {c : Char}
    {inner : List Char} (hhead : skipSpace cs = c :: inner) (hc : c ≠ '\x7d')
    (hread : readMembers fuel cs = some (members, rest)) :
    readValue (fuel + 1) ('\x7b' :: cs) = some (object members, rest) := by
  have hinner : readMembers fuel (c :: inner) = some (members, rest) := by
    rw [← hhead, ← readMembers_append_gap (isGap_takeWhile cs), skipSpace,
      List.takeWhile_append_dropWhile, hread]
  have hbrace : skipSpace ('\x7b' :: cs) = '\x7b' :: cs := rfl
  simp [readValue, hbrace, hhead, hc, hinner]

theorem readItems_last {item : Json} {fuel : Nat} {after : List Char}
    (hread : readValue fuel cs = some (item, after)) (hafter : skipSpace after = ']' :: rest) :
    readItems (fuel + 1) cs = some ([item], rest) := by
  simp [readItems, hread, hafter]

theorem readItems_cons {item : Json} {items : List Json} {fuel : Nat} {after more : List Char}
    (hread : readValue fuel cs = some (item, after)) (hafter : skipSpace after = ',' :: more)
    (hmore : readItems fuel more = some (items, rest)) :
    readItems (fuel + 1) cs = some (item :: items, rest) := by
  simp [readItems, hread, hafter, hmore]

/-- A key and a colon start a text, and the rest of it starts with a value. -/
structure StartsWithMember (fuel : Nat) (cs : List Char) (key : Option String) (value : Json)
    (after : List Char) : Prop where
  exists_read : ∃ body afterKey inner, skipSpace cs = '\x22' :: body ∧
    readString body = some (key, afterKey) ∧ skipSpace afterKey = ':' :: inner ∧
      readValue fuel inner = some (value, after)

theorem readMembers_last {key : Option String} {value : Json} {fuel : Nat} {after : List Char}
    (hmember : StartsWithMember fuel cs key value after)
    (hafter : skipSpace after = '\x7d' :: rest) :
    readMembers (fuel + 1) cs = some ([(key, value)], rest) := by
  obtain ⟨body, afterKey, inner, hquote, hkey, hcolon, hvalue⟩ := hmember.exists_read
  simp [readMembers, hquote, hkey, hcolon, hvalue, hafter]

theorem readMembers_cons {key : Option String} {value : Json}
    {members : List (Option String × Json)} {fuel : Nat} {after more : List Char}
    (hmember : StartsWithMember fuel cs key value after) (hafter : skipSpace after = ',' :: more)
    (hmore : readMembers fuel more = some (members, rest)) :
    readMembers (fuel + 1) cs = some ((key, value) :: members, rest) := by
  obtain ⟨body, afterKey, inner, hquote, hkey, hcolon, hvalue⟩ := hmember.exists_read
  simp [readMembers, hquote, hkey, hcolon, hvalue, hafter, hmore]

theorem exists_skipSpace_itemText {item : Json} (h : ItemText item cs) (rest : List Char) :
    ∃ c tail, skipSpace (cs ++ rest) = c :: tail ∧ c ≠ ']' := by
  obtain ⟨hbefore, hvalue, -⟩ := h
  obtain ⟨c, tail, rfl, hspace, hc, -⟩ := exists_cons_of_valueText hvalue
  rename_i after
  refine ⟨c, tail ++ (after ++ rest), ?_, hc⟩
  rw [List.append_assoc, skipSpace_append hbefore, List.append_assoc, List.cons_append]
  exact List.dropWhile_cons_of_neg (by simp [hspace])

theorem exists_skipSpace_itemsText {items : List Json} (h : ItemsText items cs)
    (rest : List Char) : ∃ c tail, skipSpace (cs ++ rest) = c :: tail ∧ c ≠ ']' := by
  cases h with
  | last hitem => exact exists_skipSpace_itemText hitem rest
  | cons hitem =>
    rw [List.append_assoc]
    exact exists_skipSpace_itemText hitem _

theorem exists_skipSpace_memberText {key : Option String} {value : Json}
    (h : MemberText key value cs) (rest : List Char) :
    ∃ tail, skipSpace (cs ++ rest) = '\x22' :: tail := by
  obtain ⟨hbefore, ⟨-⟩, -, -⟩ := h
  rw [List.append_assoc, skipSpace_append hbefore]
  exact ⟨_, rfl⟩

theorem exists_skipSpace_membersText {members : List (Option String × Json)}
    (h : MembersText members cs) (rest : List Char) :
    ∃ tail, skipSpace (cs ++ rest) = '\x22' :: tail := by
  cases h with
  | last hmember => exact exists_skipSpace_memberText hmember rest
  | cons hmember =>
    rw [List.append_assoc]
    exact exists_skipSpace_memberText hmember _

mutual

/-- A value is read from any of its texts. -/
theorem readValue_append {cs rest : List Char} {value : Json} {fuel : Nat} :
    ValueText value cs → Ends rest → 2 * cs.length ≤ fuel + 1 →
      readValue (fuel + 1) (cs ++ rest) = some (value, rest)
  | .null, _, _ => by simp [readValue, skipSpace, isSpace, Text.dropWord?]
  | .true, _, _ => by simp [readValue, skipSpace, isSpace, Text.dropWord?]
  | .false, _, _ => by simp [readValue, skipSpace, isSpace, Text.dropWord?]
  | .number hnumber, hrest, _ => readValue_number hnumber hrest fuel
  | .string hstring, _, _ => readValue_string hstring fuel rest
  | @ValueText.emptyArray gap hgap, _, _ => by
    have hclose : skipSpace (gap ++ (']' :: rest)) = ']' :: rest :=
      skipSpace_append_of_head hgap (by simp [isSpace])
    have hbracket : skipSpace ('[' :: (gap ++ ']' :: rest)) = '[' :: (gap ++ ']' :: rest) := rfl
    simp [readValue, hbracket, hclose]
  | .array hitems, _, hfuel => by
    obtain ⟨c, tail, hhead, hc⟩ := exists_skipSpace_itemsText hitems (']' :: rest)
    simp only [List.length_cons, List.length_append, List.length_nil] at hfuel
    have hread := readItems_append rest hitems (show _ < fuel by omega)
    simpa using readValue_array hhead hc hread
  | @ValueText.emptyObject gap hgap, _, _ => by
    have hclose : skipSpace (gap ++ ('\x7d' :: rest)) = '\x7d' :: rest :=
      skipSpace_append_of_head hgap (by simp [isSpace])
    have hbrace : skipSpace ('\x7b' :: (gap ++ '\x7d' :: rest)) =
        '\x7b' :: (gap ++ '\x7d' :: rest) := rfl
    simp [readValue, hbrace, hclose]
  | .object hmembers, _, hfuel => by
    obtain ⟨tail, hhead⟩ := exists_skipSpace_membersText hmembers ('\x7d' :: rest)
    simp only [List.length_cons, List.length_append, List.length_nil] at hfuel
    have hread := readMembers_append rest hmembers (show _ < fuel by omega)
    simpa using readValue_object hhead (by decide) hread

/-- After a value that stands between blanks, blanks are left. -/
theorem exists_readValue_append {cs rest : List Char} {value : Json} {fuel : Nat} :
    ItemText value cs → Ends rest → 2 * cs.length ≤ fuel →
      ∃ gap, IsGap gap ∧ readValue fuel (cs ++ rest) = some (value, gap ++ rest)
  | .padded hbefore hvalue hafter, hrest, hfuel => by
    have hpos := length_pos_of_valueText hvalue
    simp only [List.length_append] at hfuel
    obtain ⟨fuel, rfl⟩ := Nat.exists_eq_add_one_of_ne_zero (show fuel ≠ 0 by omega)
    refine ⟨_, hafter, ?_⟩
    rw [List.append_assoc, readValue_append_gap hbefore, List.append_assoc]
    exact readValue_append hvalue (hrest.append hafter) (by omega)

theorem readItems_append {cs : List Char} {items : List Json} {fuel : Nat} (rest : List Char) :
    ItemsText items cs → 2 * cs.length < fuel →
      readItems fuel (cs ++ ']' :: rest) = some (items, rest)
  | .last hitem, hfuel => by
    obtain ⟨fuel, rfl⟩ := Nat.exists_eq_add_one_of_ne_zero (show fuel ≠ 0 by omega)
    have hends : Ends (']' :: rest) := .of_head (by simp)
    obtain ⟨gap, hgap, hread⟩ := exists_readValue_append hitem hends (show _ ≤ fuel by omega)
    exact readItems_last hread (skipSpace_append_of_head hgap (by simp [isSpace]))
  | @ItemsText.cons _ _ _ more hitem hitems, hfuel => by
    simp only [List.length_append, List.length_cons] at hfuel
    obtain ⟨fuel, rfl⟩ := Nat.exists_eq_add_one_of_ne_zero (show fuel ≠ 0 by omega)
    have hends : Ends (',' :: (more ++ ']' :: rest)) := .of_head (by simp)
    obtain ⟨gap, hgap, hread⟩ := exists_readValue_append hitem hends (show _ ≤ fuel by omega)
    have hmore := readItems_append rest hitems (show _ < fuel by omega)
    rw [List.append_assoc, List.cons_append]
    exact readItems_cons hread (skipSpace_append_of_head hgap (by simp [isSpace])) hmore

theorem startsWithMember_append {cs rest : List Char} {key : Option String} {value : Json}
    {fuel : Nat} :
    MemberText key value cs → Ends rest → 2 * cs.length ≤ fuel →
      ∃ gap, IsGap gap ∧ StartsWithMember fuel (cs ++ rest) key value (gap ++ rest)
  | @MemberText.pair _ _ _ _ after inner hbefore hname hafter hitem, hrest, hfuel => by
    simp only [List.length_append, List.length_cons] at hfuel
    obtain ⟨gap, hgap, hread⟩ := exists_readValue_append hitem hrest (show _ ≤ fuel by omega)
    obtain ⟨body, hbody, hkey⟩ := exists_readString hname (after ++ ':' :: (inner ++ rest))
    refine ⟨gap, hgap, ⟨body, _, _, ?_, hkey, ?_, hread⟩⟩
    · simp only [List.append_assoc, List.cons_append]
      rw [skipSpace_append hbefore, hbody]
      rfl
    · exact skipSpace_append_of_head hafter (by simp [isSpace])

theorem readMembers_append {cs : List Char} {members : List (Option String × Json)} {fuel : Nat}
    (rest : List Char) :
    MembersText members cs → 2 * cs.length < fuel →
      readMembers fuel (cs ++ '\x7d' :: rest) = some (members, rest)
  | .last hmember, hfuel => by
    obtain ⟨fuel, rfl⟩ := Nat.exists_eq_add_one_of_ne_zero (show fuel ≠ 0 by omega)
    have hends : Ends ('\x7d' :: rest) := .of_head (by simp)
    obtain ⟨gap, hgap, hread⟩ := startsWithMember_append hmember hends (show _ ≤ fuel by omega)
    exact readMembers_last hread (skipSpace_append_of_head hgap (by simp [isSpace]))
  | @MembersText.cons _ _ _ _ more hmember hmembers, hfuel => by
    simp only [List.length_append, List.length_cons] at hfuel
    obtain ⟨fuel, rfl⟩ := Nat.exists_eq_add_one_of_ne_zero (show fuel ≠ 0 by omega)
    have hends : Ends (',' :: (more ++ '\x7d' :: rest)) := .of_head (by simp)
    obtain ⟨gap, hgap, hread⟩ := startsWithMember_append hmember hends (show _ ≤ fuel by omega)
    have hmore := readMembers_append rest hmembers (show _ < fuel by omega)
    rw [List.append_assoc, List.cons_append]
    exact readMembers_cons hread (skipSpace_append_of_head hgap (by simp [isSpace])) hmore

end

/-- A document is read from any of its texts. -/
theorem read_of_isDocument {value : Json} {text : String} (h : IsDocument value text) :
    read text = some value := by
  obtain ⟨gap, hgap, hread⟩ := exists_readValue_append h (show Ends [] by simp [Ends])
    (show _ ≤ 2 * text.toList.length + 2 by omega)
  rw [List.append_nil, List.append_nil] at hread
  have hskip : skipSpace gap = [] := by
    simpa [skipSpace] using skipSpace_append hgap []
  simp only [read, hread, hskip]
  rfl

end Json

/-! ### Writing numbers and strings -/

namespace Decimal

theorem isRun_digits (n : Nat) : JsonNumber.IsRun (digits n) :=
  ⟨Nat.toDigits_ne_nil, fun _ hc => Nat.isDigit_of_mem_toDigits (by decide) (by decide) hc⟩

/-- The digits of a number are read as this number. -/
theorem ofDigits_digits (n : Nat) : ofDigits 10 (digits n) = n := by
  have hdigits : ∀ c ∈ Nat.toDigits 10 n, c.isDigit = true := (isRun_digits n).2
  let r := Reading.withDigits [] [] (Nat.toDigits 10 n) [] (by simp) (.inr (.inr rfl))
    Nat.toDigits_ne_nil hdigits (by simp)
  exact r.ofDigits_digits.trans (Reading.ofDigits_toDigits n)

/-- Only zero starts with a zero. -/
theorem digits_eq_of_head? {n : Nat} (h : (digits n).head? = some '0') : digits n = ['0'] := by
  induction n using Nat.strongRecOn with
  | ind n ih =>
    rw [digits, Nat.toDigits_eq_if (by decide)] at h ⊢
    by_cases hlt : n < 10
    · rw [if_pos hlt] at h ⊢
      exact congrArg (fun c => [c]) (Option.some.inj h)
    · -- more digits follow a number that is at least one
      have hhead : (digits (n / 10)).head? = some '0' := by
        obtain ⟨d, ds, hds⟩ := (isRun_digits (n / 10)).exists_cons
        rw [if_neg hlt, ← digits, hds.1] at h
        rw [hds.1]
        exact h
      have hzero := ih (n / 10) (by omega) hhead
      have hvalue := ofDigits_digits (n / 10)
      rw [hzero] at hvalue
      have hnone : ofDigits 10 ['0'] = 0 := by decide
      omega

/-- The text of an integer is the usual one. -/
theorem intText_eq_toString (n : Int) : intText n = toString n := by
  rw [← String.toList_inj]
  cases n with
  | ofNat m =>
    have htext : toString (Int.ofNat m) = m.repr := rfl
    rw [htext, Nat.toList_repr]
    simp [intText, digits]
  | negSucc m =>
    have htext : toString (Int.negSucc m) = "-" ++ (m + 1).repr := rfl
    rw [htext, String.toList_append, Nat.toList_repr]
    simp [intText, digits]

end Decimal

namespace Json

/-- Digits with a sign or none are a text of the integer that they stand for. -/
theorem isText_numberText (negative : Bool) (n : Nat) :
    JsonNumber.IsText ⟨negative, Decimal.digits n, none, none⟩
      (numberText ⟨negative, Decimal.digits n, none, none⟩) := by
  rw [numberText]
  simpa using JsonNumber.IsText.literal (Decimal.isRun_digits n) Decimal.digits_eq_of_head?
    .absent .absent

theorem partOfUnit_control {n : Nat} (h : n < 0x20) :
    ['0', '0', hexDigit (n / 16), hexDigit (n % 16)].all (Decimal.isDigitIn 16) = true ∧
      Decimal.ofDigits 16 ['0', '0', hexDigit (n / 16), hexDigit (n % 16)] = n := by
  revert n
  decide

/-- A character is written as a part of a string that stands for it. -/
theorem partText_escape (c : Char) : PartText (.char c) (escape c) := by
  unfold escape
  split_ifs with hquote hbackslash hbackspace hfeed hline hreturn htab hcontrol
  · subst hquote
    exact .letter (by decide)
  · subst hbackslash
    exact .letter (by decide)
  · subst hbackspace
    exact .letter (by decide)
  · subst hfeed
    exact .letter (by decide)
  · subst hline
    exact .letter (by decide)
  · subst hreturn
    exact .letter (by decide)
  · subst htab
    exact .letter (by decide)
  · obtain ⟨hdigits, hvalue⟩ := partOfUnit_control hcontrol
    have hpart := PartText.code (List.all_eq_true.mp hdigits)
    rwa [hvalue, partOfUnit, if_neg (by omega), Char.ofNat_toNat] at hpart
  · exact .plain (by omega) hquote hbackslash

theorem partsText_flatMap (cs : List Char) :
    PartsText (cs.map .char) (cs.flatMap escape) := by
  induction cs with
  | nil => exact .nil
  | cons c cs ih => exact .cons (partText_escape c) ih

theorem textOfParts?_map_char (cs : List Char) : textOfParts? (cs.map .char) = some cs := by
  induction cs with
  | nil => rfl
  | cons c cs ih => simp [textOfParts?, ih]

theorem stringText_quote (text : String) : StringText (some text) (quote text) := by
  have htext := StringText.quoted (partsText_flatMap text.toList)
  rwa [textOfParts?_map_char, Option.map_some, String.ofList_toList] at htext

/-! ### Writing values -/

theorem isGap_nil : IsGap [] := by
  simp [IsGap]

theorem isGap_newline (level : Nat) : IsGap (newline level) := by
  intro c hc
  rcases List.mem_cons.mp hc with rfl | hc
  · decide
  · rw [List.eq_of_mem_replicate hc]
    decide

theorem ItemText.bare {value : Json} (h : ValueText value cs) : ItemText value cs := by
  simpa using ItemText.padded isGap_nil h isGap_nil

theorem MemberText.bare (key : String) {value : Json} (h : ValueText value cs) :
    MemberText (some key) value (quote key ++ ':' :: cs) := by
  simpa using MemberText.pair isGap_nil (stringText_quote key) isGap_nil (.bare h)

theorem itemsText_print {items : List Json} (hne : items ≠ [])
    (h : ∀ item ∈ items, ValueText item (print item)) :
    ItemsText items (printItems items) := by
  induction items with
  | nil => exact absurd rfl hne
  | cons item items ih =>
    obtain ⟨hitem, hitems⟩ := List.forall_mem_cons.mp h
    cases items with
    | nil => exact .last (.bare hitem)
    | cons next items => exact .cons (.bare hitem) (ih (List.cons_ne_nil _ _) hitems)

theorem membersText_print {members : List (String × Json)} (hne : members ≠ [])
    (h : ∀ member ∈ members, ValueText member.2 (print member.2)) :
    MembersText (members.map fun (key, value) => (some key, value))
      (printMembers (members.map fun (key, value) => (some key, value))) := by
  induction members with
  | nil => exact absurd rfl hne
  | cons member members ih =>
    obtain ⟨hmember, hmembers⟩ := List.forall_mem_cons.mp h
    cases members with
    | nil => exact .last (.bare member.1 hmember)
    | cons next members =>
      have htext := MembersText.cons (.bare member.1 hmember)
        (ih (List.cons_ne_nil _ _) hmembers)
      simpa [printMembers] using htext

/-- An array on one line is a text of it, if the same holds for its items. -/
theorem valueText_print_array {items : List Json}
    (h : ∀ item ∈ items, ValueText item (print item)) :
    ValueText (array items) (print (array items)) := by
  cases items with
  | nil => exact .emptyArray isGap_nil
  | cons item items => exact .array (itemsText_print (List.cons_ne_nil _ _) h)

/-- An object on one line is a text of it, if the same holds for the values in it. -/
theorem valueText_print_ofMembers {members : List (String × Json)}
    (h : ∀ member ∈ members, ValueText member.2 (print member.2)) :
    ValueText (ofMembers members) (print (ofMembers members)) := by
  cases members with
  | nil => exact .emptyObject isGap_nil
  | cons member members => exact .object (membersText_print (List.cons_ne_nil _ _) h)

theorem itemsText_pretty {items : List Json} {level : Nat} (hne : items ≠ []) (hgap : IsGap gap)
    (h : ∀ item ∈ items, ValueText item (printPretty level item)) :
    ItemsText items (prettyItems level items ++ gap) := by
  induction items with
  | nil => exact absurd rfl hne
  | cons item items ih =>
    obtain ⟨hitem, hitems⟩ := List.forall_mem_cons.mp h
    cases items with
    | nil =>
      have htext := ItemText.padded (isGap_newline level) hitem hgap
      rw [prettyItems, List.append_assoc]
      exact .last htext
    | cons next items =>
      have htext := ItemText.padded (isGap_newline level) hitem isGap_nil
      have hmore := ItemsText.cons htext (ih (List.cons_ne_nil _ _) hitems)
      simpa [prettyItems] using hmore

theorem memberText_pretty (key : String) (level : Nat) {value : Json} (hgap : IsGap gap)
    (h : ValueText value cs) :
    MemberText (some key) value (newline level ++ (quote key ++ ':' :: ' ' :: (cs ++ gap))) := by
  have hblank : IsGap [' '] := by simp [IsGap, isSpace]
  exact .pair (isGap_newline level) (stringText_quote key) isGap_nil (.padded hblank h hgap)

theorem membersText_pretty {members : List (String × Json)} {level : Nat} (hne : members ≠ [])
    (hgap : IsGap gap) (h : ∀ member ∈ members, ValueText member.2 (printPretty level member.2)) :
    MembersText (members.map fun (key, value) => (some key, value))
      (prettyMembers level (members.map fun (key, value) => (some key, value)) ++ gap) := by
  induction members with
  | nil => exact absurd rfl hne
  | cons member members ih =>
    obtain ⟨hmember, hmembers⟩ := List.forall_mem_cons.mp h
    cases members with
    | nil =>
      have htext := memberText_pretty member.1 level hgap hmember
      simpa [prettyMembers] using MembersText.last htext
    | cons next members =>
      have htext := memberText_pretty member.1 level isGap_nil hmember
      have hmore := MembersText.cons htext (ih (List.cons_ne_nil _ _) hmembers)
      simpa [prettyMembers] using hmore

/-- An array spread over lines is a text of it, if the same holds for its items. -/
theorem valueText_pretty_array {items : List Json} {level : Nat}
    (h : ∀ item ∈ items, ValueText item (printPretty (level + 1) item)) :
    ValueText (array items) (printPretty level (array items)) := by
  cases items with
  | nil =>
    rw [printPretty]
    exact .emptyArray isGap_nil
  | cons item items =>
    rw [printPretty]
    exact .array (itemsText_pretty (List.cons_ne_nil _ _) (isGap_newline level) h)

/-- An object spread over lines is a text of it, if the same holds for the values in it. -/
theorem valueText_pretty_ofMembers {members : List (String × Json)} {level : Nat}
    (h : ∀ member ∈ members, ValueText member.2 (printPretty (level + 1) member.2)) :
    ValueText (ofMembers members) (printPretty level (ofMembers members)) := by
  cases members with
  | nil =>
    rw [ofMembers, List.map_nil, printPretty]
    exact .emptyObject isGap_nil
  | cons member members =>
    rw [ofMembers, List.map_cons, printPretty]
    exact .object (membersText_pretty (List.cons_ne_nil _ _) (isGap_newline level) h)

/-- A value is one that can be written, on one line or spread over lines. -/
structure IsWritable (value : Json) : Prop where
  line : ValueText value (print value)
  lines : ∀ level, ValueText value (printPretty level value)

theorem isWritable_null : IsWritable null :=
  ⟨.null, fun _ => .null⟩

theorem isWritable_ofString (text : String) : IsWritable (ofString text) :=
  ⟨.string (stringText_quote text), fun _ => .string (stringText_quote text)⟩

theorem isWritable_integer (negative : Bool) (n : Nat) :
    IsWritable (number ⟨negative, Decimal.digits n, none, none⟩) :=
  ⟨.number (isText_numberText negative n), fun _ => .number (isText_numberText negative n)⟩

theorem isWritable_array {items : List Json} (h : ∀ item ∈ items, IsWritable item) :
    IsWritable (array items) :=
  ⟨valueText_print_array fun item hitem => (h item hitem).line,
    fun level => valueText_pretty_array fun item hitem => (h item hitem).lines (level + 1)⟩

theorem isWritable_ofMembers {members : List (String × Json)}
    (h : ∀ member ∈ members, IsWritable member.2) : IsWritable (ofMembers members) :=
  ⟨valueText_print_ofMembers fun member hmember => (h member hmember).line,
    fun level =>
      valueText_pretty_ofMembers fun member hmember => (h member hmember).lines (level + 1)⟩

theorem isDocument_ofList {value : Json} (h : ValueText value cs) :
    IsDocument value (String.ofList cs) := by
  rw [IsDocument, String.toList_ofList]
  exact .bare h

theorem IsWritable.isDocument {value : Json} (h : IsWritable value) {text : String}
    (htext : String.ofList (print value) = text) : IsDocument value text :=
  htext ▸ isDocument_ofList h.line

end Json

end RandomSentences
