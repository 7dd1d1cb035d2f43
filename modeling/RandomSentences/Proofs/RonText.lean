import RandomSentences.Proofs.Count
import RandomSentences.Ron.Reader

/-!
# Reading back what is written in the object notation

A value that is read from a text in front of any other text can be put into a larger one: `Ron.Reads
value down cs` says this of the text `cs`, where `down` bounds the steps from the value to the
values in it. Quoted texts are read back (`Ron.reads_quote`), and so are lists, maps and the fields
of records if their parts are.

How the parts of these stand one after another is the same for all three, a `Ron.Listing`: blanks
around every part, commas between them, and a comma at the end or none.
-/

namespace RandomSentences.Ron

/-! ### Blanks -/

/-- The characters that may stand between tokens. -/
abbrev IsBlank (c : Char) : Prop :=
  c = ' ' ∨ c = '\t' ∨ c = '\n' ∨ c = '\r'

/-- Blanks between tokens. -/
def IsGap (cs : List Char) : Prop :=
  ∀ c ∈ cs, IsBlank c

/-- A character with which a token starts. -/
abbrev StartsToken (c : Char) : Prop :=
  ¬ IsBlank c ∧ c ≠ '/'

variable {gap cs rest : List Char} {c : Char}

theorem skip_append (hgap : IsGap gap) (cs : List Char) : skip (gap ++ cs) = skip cs := by
  induction gap with
  | nil => rfl
  | cons c gap ih =>
    obtain ⟨hc, hgap⟩ := List.forall_mem_cons.mp hgap
    have hskip : skip (c :: (gap ++ cs)) = skip (gap ++ cs) := by
      rcases hc with rfl | rfl | rfl | rfl <;> rfl
    rw [List.cons_append, hskip, ih hgap]

theorem skip_cons (hc : StartsToken c) (cs : List Char) : skip (c :: cs) = .some (c :: cs) := by
  obtain ⟨hblank, hslash⟩ := hc
  rw [skip]
  unfold skipGap
  split <;> simp_all

theorem skip_append_cons (hgap : IsGap gap) (hc : StartsToken c) (cs : List Char) :
    skip (gap ++ c :: cs) = .some (c :: cs) := by
  rw [skip_append hgap, skip_cons hc]

/-! ### Names -/

/-- A name that is read as such: it starts like an identifier and goes on like one, and it is not
the letter that raw strings start with. -/
structure IsName (name : String) : Prop where
  parts : ∀ c ∈ name.toList, isIdentifierPart c = true
  exists_cons : ∃ c tail, name.toList = c :: tail ∧ isIdentifierStart c = true
  ne_raw : name ≠ "r"

theorem readIdentifier_append {name : String} (h : IsName name)
    (hrest : ∀ c ∈ rest.head?, isRawIdentifierPart c = false) :
    readIdentifier (name.toList ++ rest) = .some (name, rest) := by
  have hpart : ∀ c ∈ rest.head?, isIdentifierPart c = false := fun c hc => by
    have hraw := hrest c hc
    simp only [isRawIdentifierPart, Bool.or_eq_false_iff] at hraw
    exact hraw.1.1.1
  obtain ⟨htake, hdrop⟩ := Reading.takeWhile_append_of_head h.parts hpart
  have hplain : readPlainIdentifier (name.toList ++ rest) = .some (name, rest) := by
    rw [readPlainIdentifier, htake, hdrop, String.ofList_toList]
    cases rest with
    | nil => rfl
    | cons c rest => simp [hrest c rfl]
  obtain ⟨c, tail, hname, hstart⟩ := h.exists_cons
  have hparts := h.parts
  rw [← hplain, hname]
  rw [hname] at hparts
  cases tail with
  | nil =>
    have hc : c ≠ 'r' := by
      rintro rfl
      exact h.ne_raw (String.toList_inj.mp hname)
    simp [readIdentifier, hc, hstart]
  | cons d tail =>
    have hd : isIdentifierPart d = true := hparts d (by simp)
    have hother : d ≠ '\x22' ∧ d ≠ '#' := by
      constructor <;> rintro rfl <;> cases hd
    simp [readIdentifier, hother, hstart]

/-! ### Strings -/

theorem readQuoted_append (text rest : List Char) {fuel : Nat}
    (hfuel : (text.flatMap escape).length < fuel) :
    readQuoted fuel (text.flatMap escape ++ '\x22' :: rest) = .some (text, rest) := by
  induction text generalizing fuel with
  | nil =>
    obtain ⟨fuel, rfl⟩ := Nat.exists_eq_add_one_of_ne_zero (Nat.ne_of_gt hfuel)
    rfl
  | cons c text ih =>
    obtain ⟨fuel, rfl⟩ := Nat.exists_eq_add_one_of_ne_zero (Nat.ne_of_gt (Nat.zero_lt_of_lt hfuel))
    rw [List.flatMap_cons, List.length_append] at hfuel
    rw [List.flatMap_cons, List.append_assoc]
    by_cases hescaped : c = '\x22' ∨ c = '\x5c'
    · have hc : escape c = ['\x5c', c] := if_pos hescaped
      rw [hc] at hfuel ⊢
      simp only [List.length_cons, List.length_nil] at hfuel
      have hrest := ih (show _ < fuel by omega)
      rcases hescaped with rfl | rfl <;> simp [readQuoted, readEscape, hrest]
    · have hc : escape c = [c] := if_neg hescaped
      rw [hc] at hfuel ⊢
      simp only [List.length_cons, List.length_nil] at hfuel
      have hrest := ih (show _ < fuel by omega)
      rw [not_or] at hescaped
      simp [readQuoted, hescaped, hrest]

/-! ### Values -/

/-- A value is read from a text in front of any other text, if so many steps down are left. The
count of the recursion is at least twice the length of the text. -/
structure Reads (value : Ron) (down : Nat) (cs : List Char) : Prop where
  exists_cons : ∃ c tail, cs = c :: tail ∧ StartsToken c ∧ c ≠ ']' ∧ c ≠ '\x7d'
  readValue_append : ∀ (implicitSome : Bool) (fuel steps : Nat) (rest : List Char),
    2 * cs.length ≤ fuel → down ≤ steps →
      readValue implicitSome fuel steps (cs ++ rest) = .some (value, rest)

theorem Reads.mono {value : Ron} {down down' : Nat} (h : Reads value down cs) (hle : down ≤ down') :
    Reads value down' cs where
  exists_cons := h.exists_cons
  readValue_append implicitSome fuel steps rest hfuel hsteps :=
    h.readValue_append implicitSome fuel steps rest hfuel (Nat.le_trans hle hsteps)

/-- A value that starts with one of these characters is no word and no name. -/
theorem readWord_eq_none (hc : c = '\x22' ∨ c = '[' ∨ c = '\x7b') (cs : List Char) :
    readWord (c :: cs) = .none ∧ dropIdentifier? "Some" (c :: cs) = .none ∧
      readIdentifier (c :: cs) = .none := by
  rcases hc with rfl | rfl | rfl <;> exact ⟨rfl, rfl, rfl⟩

section Dispatch

variable (implicitSome : Bool) (fuel steps : Nat) (cs : List Char)

theorem readValue_quote :
    readValue implicitSome (fuel + 1) steps ('\x22' :: cs) =
      (readString ('\x22' :: cs)).map fun (text, rest) => (string text, rest) := by
  obtain ⟨hword, hsome, hname⟩ := readWord_eq_none (.inl rfl) cs
  simp [readValue, hword, hsome, hname]

theorem readValue_bracket :
    readValue implicitSome (fuel + 1) (steps + 1) ('[' :: cs) =
      (readItems implicitSome fuel steps ']' cs).map fun (items, rest) => (list items, rest) := by
  obtain ⟨hword, hsome, hname⟩ := readWord_eq_none (.inr (.inl rfl)) cs
  rw [Option.map_eq_bind]
  simp [readValue, hword, hsome, hname, step?]

theorem readValue_brace :
    readValue implicitSome (fuel + 1) (steps + 1) ('\x7b' :: cs) =
      (readEntries implicitSome fuel steps cs).map fun (entries, rest) => (map entries, rest) := by
  obtain ⟨hword, hsome, hname⟩ := readWord_eq_none (.inr (.inr rfl)) cs
  rw [Option.map_eq_bind]
  simp [readValue, hword, hsome, hname, step?]

end Dispatch

/-- A text in quotes is read back. -/
theorem reads_quote (text : String) : Reads (string text) 0 (quote text) where
  exists_cons := ⟨'\x22', _, rfl, by decide⟩
  readValue_append implicitSome fuel steps rest hfuel _ := by
    obtain ⟨fuel, rfl⟩ := Nat.exists_eq_add_one_of_ne_zero (show fuel ≠ 0 by
      rintro rfl
      simp [quote] at hfuel)
    have hquote : quote text ++ rest =
        '\x22' :: (text.toList.flatMap escape ++ '\x22' :: rest) := by simp [quote]
    have hread := readQuoted_append text.toList rest (show _ <
      (text.toList.flatMap escape ++ '\x22' :: rest).length + 1 by rw [List.length_append]; omega)
    rw [hquote, readValue_quote]
    simp [readString, hread, -List.length_append, -List.length_flatMap]

/-! ### Listings -/

/-- The texts of some items one after another: blanks around each, a comma between any two, and a
comma after the last or none. -/
inductive Listing {α : Type} (IsText : α → List Char → Prop) : List α → List Char → Prop
  | nil {gap : List Char} : IsGap gap → Listing IsText [] gap
  | last {item : α} {before cs after : List Char} : IsGap before → IsText item cs → IsGap after →
      Listing IsText [item] (before ++ (cs ++ after))
  | cons {item : α} {items : List α} {before cs after rest : List Char} : IsGap before →
      IsText item cs → IsGap after → Listing IsText items rest →
      Listing IsText (item :: items) (before ++ (cs ++ (after ++ ',' :: rest)))

section Listing

variable {α β : Type} {IsText : α → List Char → Prop} {items : List α}

theorem isGap_nil : IsGap [] := by
  simp [IsGap]

theorem Listing.map {f : α → β} {IsText' : β → List Char → Prop}
    (hf : ∀ item cs, IsText item cs → IsText' (f item) cs) (h : Listing IsText items cs) :
    Listing IsText' (items.map f) cs := by
  induction h with
  | nil hgap => exact .nil hgap
  | last hbefore hitem hafter => exact .last hbefore (hf _ _ hitem) hafter
  | cons hbefore hitem hafter _ ih => exact .cons hbefore (hf _ _ hitem) hafter ih

theorem IsGap.append {gap' : List Char} (hgap : IsGap gap) (hgap' : IsGap gap') :
    IsGap (gap ++ gap') := by
  intro c hc
  exact (List.mem_append.mp hc).elim (hgap c) (hgap' c)

/-- Blanks may come before a listing. -/
theorem Listing.gap_append (hgap : IsGap gap) (h : Listing IsText items cs) :
    Listing IsText items (gap ++ cs) := by
  cases h with
  | nil hgap' => exact .nil (hgap.append hgap')
  | last hbefore hitem hafter =>
    rw [← List.append_assoc]
    exact .last (hgap.append hbefore) hitem hafter
  | cons hbefore hitem hafter hrest =>
    rw [← List.append_assoc]
    exact .cons (hgap.append hbefore) hitem hafter hrest

end Listing

/-- A reader of items and commas up to a closing character, which reads each item from its texts. -/
structure ListReader {α : Type} (IsText : α → List Char → Prop) (close : Char)
    (readAll : Nat → List Char → Option (List α × List Char)) : Prop where
  startsToken_close : StartsToken close
  exists_cons : ∀ item cs, IsText item cs → ∃ c tail, cs = c :: tail ∧ StartsToken c
  readAll_nil : ∀ fuel cs rest, skip cs = .some (close :: rest) →
    readAll (fuel + 1) cs = .some ([], rest)
  readAll_last : ∀ fuel item cs text after rest, IsText item text → 2 * text.length ≤ fuel →
    skip cs = .some (text ++ after) → skip after = .some (close :: rest) →
      readAll (fuel + 1) cs = .some ([item], rest)
  readAll_cons : ∀ fuel item items cs text after more rest, IsText item text →
    2 * text.length ≤ fuel → skip cs = .some (text ++ after) → skip after = .some (',' :: more) →
      readAll fuel more = .some (items, rest) →
        readAll (fuel + 1) cs = .some (item :: items, rest)

/-- A listing is read up to the closing character after it. -/
theorem ListReader.readAll_listing {α : Type} {IsText : α → List Char → Prop} {close : Char}
    {readAll : Nat → List Char → Option (List α × List Char)} {items : List α}
    (hreader : ListReader IsText close readAll) (h : Listing IsText items cs) {fuel : Nat}
    (hfuel : 2 * cs.length < fuel) (rest : List Char) :
    readAll fuel (cs ++ close :: rest) = .some (items, rest) := by
  have hclose := hreader.startsToken_close
  have hcomma : StartsToken ',' := by decide
  -- every item takes one from the count and at least its comma from the text
  induction h generalizing fuel with
  | nil hgap =>
    obtain ⟨fuel, rfl⟩ := Nat.exists_eq_add_one_of_ne_zero (show fuel ≠ 0 by omega)
    exact hreader.readAll_nil fuel _ rest (skip_append_cons hgap hclose rest)
  | last hbefore hitem hafter =>
    simp only [List.length_append] at hfuel
    obtain ⟨fuel, rfl⟩ := Nat.exists_eq_add_one_of_ne_zero (show fuel ≠ 0 by omega)
    refine hreader.readAll_last fuel _ _ _ _ rest hitem (by omega) ?_
      (skip_append_cons hafter hclose rest)
    obtain ⟨c, tail, rfl, hc⟩ := hreader.exists_cons _ _ hitem
    rw [List.append_assoc, List.append_assoc]
    exact skip_append_cons hbefore hc _
  | cons hbefore hitem hafter _ ih =>
    simp only [List.length_append, List.length_cons] at hfuel
    obtain ⟨fuel, rfl⟩ := Nat.exists_eq_add_one_of_ne_zero (show fuel ≠ 0 by omega)
    refine hreader.readAll_cons fuel _ _ _ _ _ _ rest hitem (by omega) ?_
      (skip_append_cons hafter hcomma _) (ih (by omega))
    obtain ⟨c, tail, rfl, hc⟩ := hreader.exists_cons _ _ hitem
    simp only [List.append_assoc, List.cons_append]
    exact skip_append_cons hbefore hc _

/-! ### Lists, maps and records -/

section Parts

variable {implicitSome : Bool} {steps down : Nat}

theorem listReader_readItems (implicitSome : Bool) (hsteps : down ≤ steps) :
    ListReader (Reads · down) ']' (readItems implicitSome · (steps + 1) ']') where
  startsToken_close := by decide
  exists_cons item cs h := by
    obtain ⟨c, tail, htext, hc, -⟩ := h.exists_cons
    exact ⟨c, tail, htext, hc⟩
  readAll_nil fuel cs rest hskip := by simp [readItems, hskip]
  readAll_last fuel item cs text after rest h hfuel hskip hafter := by
    have hread := h.readValue_append implicitSome fuel steps after hfuel hsteps
    obtain ⟨c, tail, rfl, -, hc, -⟩ := h.exists_cons
    rw [List.cons_append] at hskip hread
    simp [readItems, hskip, hc, step?, hread, hafter]
  readAll_cons fuel item items cs text after more rest h hfuel hskip hafter hmore := by
    have hread := h.readValue_append implicitSome fuel steps after hfuel hsteps
    obtain ⟨c, tail, rfl, -, hc, -⟩ := h.exists_cons
    rw [List.cons_append] at hskip hread
    simp [readItems, hskip, hc, step?, hread, hafter, hmore]

/-- A list is read back if its items are. -/
theorem reads_list {items : List Ron} (h : Listing (Reads · down) items cs) :
    Reads (list items) (down + 2) ('[' :: (cs ++ [']'])) where
  exists_cons := ⟨'[', _, rfl, by decide⟩
  readValue_append implicitSome fuel steps rest hfuel hsteps := by
    simp only [List.length_cons, List.length_append, List.length_nil] at hfuel
    obtain ⟨fuel, rfl⟩ := Nat.exists_eq_add_one_of_ne_zero (show fuel ≠ 0 by omega)
    obtain ⟨steps, rfl⟩ := Nat.exists_eq_add_of_le' hsteps
    have hread := (listReader_readItems implicitSome (Nat.le_add_left down steps)).readAll_listing h
      (show _ < fuel by omega) rest
    have htext : '[' :: (cs ++ [']']) ++ rest = '[' :: (cs ++ ']' :: rest) := by simp
    rw [htext, ← Nat.add_assoc, readValue_bracket, hread]
    rfl

/-- The texts of a colon and a value after it. -/
inductive Assigns (down : Nat) (value : Ron) : List Char → Prop
  | colon {before after cs : List Char} : IsGap before → IsGap after → Reads value down cs →
      Assigns down value (before ++ ':' :: (after ++ cs))

theorem Assigns.exists_read {value : Ron} (h : Assigns down value cs) (implicitSome : Bool)
    {fuel : Nat} (hfuel : 2 * cs.length ≤ fuel) (hsteps : down ≤ steps) (rest : List Char) :
    ∃ inner start, skip (cs ++ rest) = .some (':' :: inner) ∧ skip inner = .some start ∧
      readValue implicitSome fuel steps start = .some (value, rest) := by
  obtain ⟨hbefore, hafter, hvalue⟩ := h
  rename_i before after cs
  simp only [List.length_append, List.length_cons] at hfuel
  have hread := hvalue.readValue_append implicitSome fuel steps rest (by omega) hsteps
  refine ⟨after ++ (cs ++ rest), cs ++ rest, ?_, ?_, hread⟩
  · simp only [List.append_assoc, List.cons_append]
    exact skip_append_cons hbefore (by decide) _
  · obtain ⟨c, tail, rfl, hc, -⟩ := hvalue.exists_cons
    exact skip_append_cons hafter hc _

/-- The texts of an entry of a map. -/
inductive ReadsEntry (down : Nat) : Ron × Ron → List Char → Prop
  | pair {key value : Ron} {cs rest : List Char} : Reads key down cs → Assigns down value rest →
      ReadsEntry down (key, value) (cs ++ rest)

theorem ReadsEntry.exists_read {entry : Ron × Ron} (h : ReadsEntry down entry cs)
    (implicitSome : Bool) {fuel : Nat} (hfuel : 2 * cs.length ≤ fuel) (hsteps : down ≤ steps)
    (rest : List Char) :
    ∃ c tail afterKey inner start, cs ++ rest = c :: tail ∧ c ≠ '\x7d' ∧
      readValue implicitSome fuel steps (c :: tail) = .some (entry.1, afterKey) ∧
        skip afterKey = .some (':' :: inner) ∧ skip inner = .some start ∧
          readValue implicitSome fuel steps start = .some (entry.2, rest) := by
  obtain ⟨hkey, hvalue⟩ := h
  rename_i cs assigned
  rw [List.length_append] at hfuel
  have hread := hkey.readValue_append implicitSome fuel steps (assigned ++ rest) (by omega) hsteps
  obtain ⟨inner, start, hcolon, hstart, hvalue⟩ :=
    hvalue.exists_read implicitSome (show _ ≤ fuel by omega) hsteps rest
  obtain ⟨c, tail, rfl, -, -, hc⟩ := hkey.exists_cons
  exact ⟨c, tail ++ (assigned ++ rest), assigned ++ rest, inner, start, by simp, hc, hread, hcolon,
    hstart, hvalue⟩

theorem listReader_readEntries (implicitSome : Bool) (hsteps : down ≤ steps) :
    ListReader (ReadsEntry down) '\x7d' (readEntries implicitSome · (steps + 1)) where
  startsToken_close := by decide
  exists_cons entry cs h := by
    obtain ⟨hkey, -⟩ := h
    obtain ⟨c, tail, rfl, hc, -⟩ := hkey.exists_cons
    exact ⟨c, _, rfl, hc⟩
  readAll_nil fuel cs rest hskip := by simp [readEntries, hskip]
  readAll_last fuel entry cs text after rest h hfuel hskip hafter := by
    obtain ⟨c, tail, afterKey, inner, start, heq, hc, hkey, hcolon, hstart, hvalue⟩ :=
      h.exists_read implicitSome hfuel hsteps after
    rw [heq] at hskip
    simp [readEntries, hskip, hc, step?, hkey, hcolon, hstart, hvalue, hafter]
  readAll_cons fuel entry entries cs text after more rest h hfuel hskip hafter hmore := by
    obtain ⟨c, tail, afterKey, inner, start, heq, hc, hkey, hcolon, hstart, hvalue⟩ :=
      h.exists_read implicitSome hfuel hsteps after
    rw [heq] at hskip
    simp [readEntries, hskip, hc, step?, hkey, hcolon, hstart, hvalue, hafter, hmore]

/-- A map is read back if its entries are. -/
theorem reads_map {entries : List (Ron × Ron)} (h : Listing (ReadsEntry down) entries cs) :
    Reads (map entries) (down + 2) ('\x7b' :: (cs ++ ['\x7d'])) where
  exists_cons := ⟨'\x7b', _, rfl, by decide⟩
  readValue_append implicitSome fuel steps rest hfuel hsteps := by
    simp only [List.length_cons, List.length_append, List.length_nil] at hfuel
    obtain ⟨fuel, rfl⟩ := Nat.exists_eq_add_one_of_ne_zero (show fuel ≠ 0 by omega)
    obtain ⟨steps, rfl⟩ := Nat.exists_eq_add_of_le' hsteps
    have hread := (listReader_readEntries implicitSome
      (Nat.le_add_left down steps)).readAll_listing h (show _ < fuel by omega) rest
    have htext : '\x7b' :: (cs ++ ['\x7d']) ++ rest = '\x7b' :: (cs ++ '\x7d' :: rest) := by simp
    rw [htext, ← Nat.add_assoc, readValue_brace, hread]
    rfl

/-- The texts of a field of a record. -/
inductive ReadsField (down : Nat) : String × Ron → List Char → Prop
  | pair {name : String} {value : Ron} {cs : List Char} : IsName name → Assigns down value cs →
      ReadsField down (name, value) (name.toList ++ cs)

/-- A name is read where blanks come next, and then a character that is not part of a name. -/
theorem readIdentifier_append_gap {name : String} (hname : IsName name) (hgap : IsGap gap)
    (hc : isRawIdentifierPart c = false) (rest : List Char) :
    readIdentifier (name.toList ++ (gap ++ c :: rest)) = .some (name, gap ++ c :: rest) := by
  refine readIdentifier_append hname fun d hd => ?_
  cases gap with
  | nil => rwa [← Option.some.inj hd]
  | cons blank gap =>
    rw [← Option.some.inj hd]
    rcases hgap blank (List.mem_cons_self ..) with rfl | rfl | rfl | rfl <;> decide

theorem readIdentifier_of_assigns {name : String} {value : Ron} (hname : IsName name)
    (h : Assigns down value cs) (rest : List Char) :
    readIdentifier (name.toList ++ (cs ++ rest)) = .some (name, cs ++ rest) := by
  obtain ⟨hbefore, -, -⟩ := h
  rw [List.append_assoc, List.cons_append]
  exact readIdentifier_append_gap hname hbefore (by decide) _

theorem IsName.exists_startsToken {name : String} (h : IsName name) :
    ∃ c tail, name.toList = c :: tail ∧ StartsToken c ∧ c ≠ ')' ∧ c ≠ ']' ∧ c ≠ '\x7d' := by
  obtain ⟨c, tail, hname, hc⟩ := h.exists_cons
  refine ⟨c, tail, hname, ⟨?_, ?_⟩, ?_, ?_, ?_⟩
  · rintro (rfl | rfl | rfl | rfl) <;> cases hc
  all_goals
    rintro rfl
    cases hc

theorem ReadsField.exists_read {field : String × Ron} (h : ReadsField down field cs)
    (implicitSome : Bool) {fuel : Nat} (hfuel : 2 * cs.length ≤ fuel) (hsteps : down ≤ steps)
    (rest : List Char) :
    ∃ c tail afterName inner start, cs ++ rest = c :: tail ∧ c ≠ ')' ∧
      readIdentifier (c :: tail) = .some (field.1, afterName) ∧
        skip afterName = .some (':' :: inner) ∧ skip inner = .some start ∧
          readValue implicitSome fuel steps start = .some (field.2, rest) := by
  obtain ⟨hname, hvalue⟩ := h
  rename_i name value assigned
  rw [List.length_append] at hfuel
  have hread := readIdentifier_of_assigns hname hvalue rest
  obtain ⟨inner, start, hcolon, hstart, hvalue⟩ :=
    hvalue.exists_read implicitSome (show _ ≤ fuel by omega) hsteps rest
  obtain ⟨c, tail, htext, -, hc, -⟩ := hname.exists_startsToken
  rw [htext, List.cons_append] at hread
  exact ⟨c, tail ++ (assigned ++ rest), assigned ++ rest, inner, start, by simp [htext], hc, hread,
    hcolon, hstart, hvalue⟩

theorem listReader_readFields (implicitSome : Bool) (hsteps : down ≤ steps) :
    ListReader (ReadsField down) ')' (readFields implicitSome · (steps + 1)) where
  startsToken_close := by decide
  exists_cons field cs h := by
    obtain ⟨hname, -⟩ := h
    obtain ⟨c, tail, htext, hc, -⟩ := hname.exists_startsToken
    exact ⟨c, _, by rw [htext, List.cons_append], hc⟩
  readAll_nil fuel cs rest hskip := by simp [readFields, hskip]
  readAll_last fuel field cs text after rest h hfuel hskip hafter := by
    obtain ⟨c, tail, afterName, inner, start, heq, hc, hname, hcolon, hstart, hvalue⟩ :=
      h.exists_read implicitSome hfuel hsteps after
    rw [heq] at hskip
    simp [readFields, hskip, hc, step?, hname, hcolon, hstart, hvalue, hafter]
  readAll_cons fuel field fields cs text after more rest h hfuel hskip hafter hmore := by
    obtain ⟨c, tail, afterName, inner, start, heq, hc, hname, hcolon, hstart, hvalue⟩ :=
      h.exists_read implicitSome hfuel hsteps after
    rw [heq] at hskip
    simp [readFields, hskip, hc, step?, hname, hcolon, hstart, hvalue, hafter, hmore]

/-- Where a field comes first, a parenthesis opens a record. -/
theorem ReadsField.startsWithField {field : String × Ron} (h : ReadsField down field cs)
    (hgap : IsGap gap) (rest : List Char) :
    skip (gap ++ (cs ++ rest)) = .some (cs ++ rest) ∧ startsWithField (cs ++ rest) = true := by
  obtain ⟨c, tail, afterName, inner, start, heq, -, hname, hcolon, -⟩ :=
    h.exists_read false (Nat.le_refl _) (Nat.le_refl down) rest
  obtain ⟨hfield, -⟩ := h
  obtain ⟨d, letters, hletters, hd, -⟩ := hfield.exists_startsToken
  constructor
  · simp only [hletters, List.cons_append]
    exact skip_append_cons hgap hd _
  · rw [heq, Ron.startsWithField, hname]
    simp [hcolon]

theorem startsWithField_listing {field : String × Ron} {fields : List (String × Ron)}
    (h : Listing (ReadsField down) (field :: fields) cs) (rest : List Char) :
    ∃ start, skip (cs ++ rest) = .some start ∧ startsWithField start = true := by
  cases h with
  | last hbefore hfield hafter =>
    rw [List.append_assoc, List.append_assoc]
    exact ⟨_, hfield.startsWithField hbefore _⟩
  | cons hbefore hfield hafter hrest =>
    rw [List.append_assoc, List.append_assoc]
    exact ⟨_, hfield.startsWithField hbefore _⟩

/-- The fields of a record are read after its parenthesis. -/
theorem readParenthesised_listing {field : String × Ron} {fields : List (String × Ron)}
    (h : Listing (ReadsField down) (field :: fields) cs) (implicitSome : Bool) {fuel : Nat}
    (hfuel : 2 * cs.length + 1 < fuel) (hsteps : down + 2 ≤ steps) (name : Option String)
    (rest : List Char) :
    readParenthesised implicitSome fuel steps name (cs ++ ')' :: rest) =
      .some (record name (field :: fields), rest) := by
  obtain ⟨fuel, rfl⟩ := Nat.exists_eq_add_one_of_ne_zero (show fuel ≠ 0 by omega)
  obtain ⟨steps, rfl⟩ := Nat.exists_eq_add_of_le' (show 2 ≤ steps by omega)
  obtain ⟨start, hskip, hstarts⟩ := startsWithField_listing h (')' :: rest)
  have hread := (listReader_readFields implicitSome (show down ≤ steps by omega)).readAll_listing h
    (show _ < fuel by omega) rest
  simp [readParenthesised, step?, hskip, hstarts, hread]

theorem head_listing {field : String × Ron} {fields : List (String × Ron)}
    (h : Listing (ReadsField down) (field :: fields) cs) : ∃ c tail, cs = c :: tail ∧ c ≠ ')' := by
  obtain ⟨start, hskip, hstarts⟩ := startsWithField_listing h []
  cases cs with
  | nil =>
    obtain rfl : [] = start := Option.some.inj hskip
    cases hstarts
  | cons c tail =>
    refine ⟨c, tail, rfl, ?_⟩
    rintro rfl
    rw [List.cons_append, skip_cons (by decide)] at hskip
    obtain rfl := Option.some.inj hskip
    cases hstarts

/-- A record without a name is read back if its fields are. -/
theorem reads_record {field : String × Ron} {fields : List (String × Ron)}
    (h : Listing (ReadsField down) (field :: fields) cs) :
    Reads (record .none (field :: fields)) (down + 2) ('(' :: (cs ++ [')'])) where
  exists_cons := ⟨'(', _, rfl, by decide⟩
  readValue_append implicitSome fuel steps rest hfuel hsteps := by
    simp only [List.length_cons, List.length_append, List.length_nil] at hfuel
    obtain ⟨fuel, rfl⟩ := Nat.exists_eq_add_one_of_ne_zero (show fuel ≠ 0 by omega)
    have hread := readParenthesised_listing h implicitSome (show _ < fuel by omega) hsteps .none
      rest
    have htext : '(' :: (cs ++ [')']) ++ rest = '(' :: (cs ++ ')' :: rest) := by simp
    have hword : readWord ('(' :: (cs ++ ')' :: rest)) = .none := by
      obtain ⟨c, tail, rfl, hc⟩ := head_listing h
      simp [readWord, dropIdentifier?, Text.dropWord?, hc]
    have hsome : dropIdentifier? "Some" ('(' :: (cs ++ ')' :: rest)) = .none := rfl
    have hname : readIdentifier ('(' :: (cs ++ ')' :: rest)) = .none := rfl
    rw [htext, readValue, hword, hsome, hname]
    exact hread

/-- A record with a name is read back if its fields are and the name is no word of its own. -/
theorem reads_record_named {name : String} {field : String × Ron} {fields : List (String × Ron)}
    (hname : IsName name)
    (hword : ∀ rest, readWord (name.toList ++ rest) = .none ∧
      dropIdentifier? "Some" (name.toList ++ rest) = .none)
    (hgap : IsGap gap) (h : Listing (ReadsField down) (field :: fields) cs) :
    Reads (record (.some name) (field :: fields)) (down + 2)
      (name.toList ++ (gap ++ '(' :: (cs ++ [')']))) where
  exists_cons := by
    obtain ⟨c, tail, htext, hc, -, hclose⟩ := hname.exists_startsToken
    exact ⟨c, _, by rw [htext, List.cons_append], hc, hclose⟩
  readValue_append implicitSome fuel steps rest hfuel hsteps := by
    simp only [List.length_cons, List.length_append, List.length_nil] at hfuel
    obtain ⟨fuel, rfl⟩ := Nat.exists_eq_add_one_of_ne_zero (show fuel ≠ 0 by omega)
    have hread := readParenthesised_listing h implicitSome (show _ < fuel by omega) hsteps
      (.some name) rest
    have hidentifier := readIdentifier_append_gap hname hgap
      (show isRawIdentifierPart '(' = false by decide) (cs ++ ')' :: rest)
    obtain ⟨hword, hsome⟩ := hword (gap ++ '(' :: (cs ++ ')' :: rest))
    have htext : name.toList ++ (gap ++ '(' :: (cs ++ [')'])) ++ rest =
        name.toList ++ (gap ++ '(' :: (cs ++ ')' :: rest)) := by simp
    rw [htext, readValue.eq_def]
    simp only [hword, hsome, hidentifier, Option.bind_eq_bind, Option.bind_some,
      skip_append_cons hgap (show StartsToken '(' by decide)]
    exact hread

/-- A text is read as a value if it holds a text of the value between blanks and is not taken for an
attribute. -/
theorem read_of_reads {value : Ron} (h : Reads value down cs) (hdown : down ≤ maxSteps)
    (hattribute : cs.head? ≠ .some '#') {before after : List Char} (hbefore : IsGap before)
    (hafter : IsGap after) {text : String} (htext : text.toList = before ++ (cs ++ after)) :
    read text = .some value := by
  obtain ⟨c, tail, rfl, hc, -⟩ := h.exists_cons
  have hskip : skip text.toList = .some (c :: tail ++ after) := by
    rw [htext]
    exact skip_append_cons hbefore hc _
  have hattributes : readAttributes ((c :: tail ++ after).length + 1) (c :: tail ++ after) =
      .some ([], c :: tail ++ after) := by
    have hne : c ≠ '#' := by simpa using hattribute
    simp [readAttributes, hne]
  have hread := h.readValue_append false (4 * (c :: tail ++ after).length + 4) maxSteps after
    (by rw [List.length_append]; omega) hdown
  have hend : skip after = .some [] := by
    rw [← List.append_nil after, skip_append hafter]
    rfl
  have hnames : ([] : List String).contains implicitSomeName = false := rfl
  simp only [read, hskip, hattributes, Option.bind_eq_bind, Option.bind_some, hnames, hread, hend]
  rfl

end Parts

end RandomSentences.Ron
