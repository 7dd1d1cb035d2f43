import Mathlib.Tactic.SplitIfs
import RandomSentences.Files.Basic
import RandomSentences.Proofs.ByteOrder

/-!
# Bytes that are a text

Reading bytes as a text and writing a text as bytes undo each other: `Utf8.text?_eq_some_iff` says
that some bytes are read as a text exactly if they are the bytes of this text, so bytes that are
those of no text are refused.

* **One character.** A character of several bytes begins with a first byte (`Begins`), and further
  bytes finish it (`Pending.Finishes`). Both say which bytes may stand there, and the bounds on the
  second byte are what leaves out the numbers that have a shorter form, are no characters, or are
  too great. `exists_begins` and `utf8EncodeChar_of_finishes` say that these are the bytes of the
  characters beyond ASCII.
* **All characters.** `Remains` says what bytes may follow at a place between two characters or
  within one, and for which characters. `decodeFrom_eq_map_some_iff` is the induction over the
  bytes.

So a file holds a text or does not, and `FileNode.Refuses` says why not.
-/

namespace RandomSentences

namespace Utf8

/-! ### One character -/

/-- `Begins b pending`: a character of two, three or four bytes begins with the byte `b`, and
`pending` says how it goes on. -/
inductive Begins : UInt8 → Pending → Prop
  | two {b : UInt8} (hleast : 0xC2 ≤ b.toNat) (hgreatest : b.toNat ≤ 0xDF) :
      Begins b ⟨0x80, 0xBF, 0, b.toNat % 0x20⟩
  | three {b : UInt8} (hleast : 0xE0 ≤ b.toNat) (hgreatest : b.toNat ≤ 0xEF) :
      Begins b ⟨if b.toNat = 0xE0 then 0xA0 else 0x80, if b.toNat = 0xED then 0x9F else 0xBF, 1,
        b.toNat % 0x10⟩
  | four {b : UInt8} (hleast : 0xF0 ≤ b.toNat) (hgreatest : b.toNat ≤ 0xF4) :
      Begins b ⟨if b.toNat = 0xF0 then 0x90 else 0x80, if b.toNat = 0xF4 then 0x8F else 0xBF, 2,
        b.toNat % 0x08⟩

/-- `pending.Finishes bytes n`: the bytes bring a character begun to its end, and it has the number
`n`. -/
inductive Pending.Finishes : Pending → List UInt8 → Nat → Prop
  | last {least greatest b : UInt8} {bits : Nat} (hb : least ≤ b ∧ b ≤ greatest) :
      Finishes ⟨least, greatest, 0, bits⟩ [b] (bits * 0x40 + b.toNat % 0x40)
  | more {least greatest b : UInt8} {later bits n : Nat} {bytes : List UInt8}
      (hb : least ≤ b ∧ b ≤ greatest)
      (h : Finishes ⟨0x80, 0xBF, later, bits * 0x40 + b.toNat % 0x40⟩ bytes n) :
      Finishes ⟨least, greatest, later + 1, bits⟩ (b :: bytes) n

variable {b : UInt8} {pending : Pending} {bytes : List UInt8} {n : Nat}

theorem start_of_lt (h : b.toNat < 0x80) : start b = .inl (some (Char.ofNat b.toNat)) := by
  rw [start, if_pos (UInt8.lt_iff_toNat_lt.mpr h)]

theorem start_of_begins (h : Begins b pending) : start b = .inr pending := by
  have hascii : ¬ b.toNat < 0x80 := by cases h <;> omega
  simp only [start, UInt8.lt_iff_toNat_lt, UInt8.reduceToNat, if_neg hascii]
  cases h <;>
    simp only [second?, firstBits, UInt8.lt_iff_toNat_lt, UInt8.le_iff_toNat_le, UInt8.reduceToNat,
      Bool.and_eq_true, decide_eq_true_eq, beq_iff_eq, ← UInt8.toNat_inj] <;>
    grind

theorem begins_of_start (h : start b = .inr pending) : Begins b pending := by
  have hbegins {other : Pending} (hother : Begins b other) : Begins b pending := by
    rw [start_of_begins hother] at h
    exact Sum.inr.inj h ▸ hother
  by_cases hascii : b.toNat < 0x80
  · rw [start_of_lt hascii] at h
    cases h
  by_cases htwo : 0xC2 ≤ b.toNat ∧ b.toNat ≤ 0xDF
  · exact hbegins (.two htwo.1 htwo.2)
  by_cases hthree : 0xE0 ≤ b.toNat ∧ b.toNat ≤ 0xEF
  · exact hbegins (.three hthree.1 hthree.2)
  by_cases hfour : 0xF0 ≤ b.toNat ∧ b.toNat ≤ 0xF4
  · exact hbegins (.four hfour.1 hfour.2)
  -- all other bytes start no character
  simp only [start, second?, UInt8.lt_iff_toNat_lt, UInt8.le_iff_toNat_le, UInt8.reduceToNat,
    Bool.and_eq_true, decide_eq_true_eq, beq_iff_eq, ← UInt8.toNat_inj] at h
  grind

theorem toNat_val_ofNat (h : n.isValidChar) : (Char.ofNat n).val.toNat = n := by
  rw [Char.ofNat, dif_pos h]
  rfl

/-- A first byte and the bytes that finish it are those of the character with their number. -/
theorem utf8EncodeChar_of_finishes (hb : Begins b pending) (h : pending.Finishes bytes n) :
    String.utf8EncodeChar (Char.ofNat n) = b :: bytes := by
  cases hb with
  | two hleast hgreatest =>
    obtain @⟨_, _, second, _, hsecond⟩ | _ := h
    simp only [UInt8.le_iff_toNat_le, UInt8.reduceToNat] at hsecond
    rw [String.utf8EncodeChar, toNat_val_ofNat (by unfold Nat.isValidChar; omega)]
    simp (disch := omega) only [if_neg, if_pos, List.cons.injEq, and_true, ← UInt8.toNat_inj,
      UInt8.toNat_ofNat']
    omega
  | three hleast hgreatest =>
    obtain _ | @⟨_, _, second, _, _, _, _, hsecond, @⟨_, _, third, _, hthird⟩⟩ := h
    simp only [UInt8.le_iff_toNat_le, apply_ite UInt8.toNat, UInt8.reduceToNat] at hsecond hthird
    have hlow : 0x80 ≤ second.toNat ∧ (b.toNat = 0xE0 → 0xA0 ≤ second.toNat) := by
      split_ifs at hsecond <;> omega
    have hhigh : second.toNat ≤ 0xBF ∧ (b.toNat = 0xED → second.toNat ≤ 0x9F) := by
      split_ifs at hsecond <;> omega
    clear hsecond
    rw [String.utf8EncodeChar, toNat_val_ofNat (by unfold Nat.isValidChar; omega)]
    simp (disch := omega) only [if_neg, if_pos, List.cons.injEq, and_true, ← UInt8.toNat_inj,
      UInt8.toNat_ofNat']
    omega
  | four hleast hgreatest =>
    obtain _ | @⟨_, _, second, _, _, _, _, hsecond,
      _ | @⟨_, _, third, _, _, _, _, hthird, @⟨_, _, fourth, _, hfourth⟩⟩⟩ := h
    simp only [UInt8.le_iff_toNat_le, apply_ite UInt8.toNat, UInt8.reduceToNat]
      at hsecond hthird hfourth
    have hlow : 0x80 ≤ second.toNat ∧ (b.toNat = 0xF0 → 0x90 ≤ second.toNat) := by
      split_ifs at hsecond <;> omega
    have hhigh : second.toNat ≤ 0xBF ∧ (b.toNat = 0xF4 → second.toNat ≤ 0x8F) := by
      split_ifs at hsecond <;> omega
    clear hsecond
    rw [String.utf8EncodeChar, toNat_val_ofNat (by unfold Nat.isValidChar; omega)]
    simp (disch := omega) only [if_neg, List.cons.injEq, and_true, ← UInt8.toNat_inj,
      UInt8.toNat_ofNat']
    omega

theorem exists_toNat_eq (h : n < 256) : ∃ b : UInt8, UInt8.ofNat n = b ∧ b.toNat = n :=
  ⟨_, rfl, UInt8.toNat_ofNat_of_lt' h⟩

/-- A byte after the first two, as it is written. -/
theorem continues_of_toNat_eq (h : b.toNat = n % 0x40 + 0x80) : 0x80 ≤ b ∧ b ≤ 0xBF := by
  simp only [UInt8.le_iff_toNat_le, UInt8.reduceToNat]
  omega

/-- The bytes of a character beyond ASCII are a first byte and bytes that finish it. -/
theorem exists_begins {c : Char} (h : 0x80 ≤ c.toNat) :
    ∃ b pending bytes, String.utf8EncodeChar c = b :: bytes ∧ Begins b pending ∧
      pending.Finishes bytes c.toNat := by
  have hvalid : c.toNat < 0xD800 ∨ 0xDFFF < c.toNat ∧ c.toNat < 0x110000 := c.valid
  rw [String.utf8EncodeChar, Char.toNat_val]
  generalize c.toNat = n at *
  obtain ⟨last, hlast, hlastNat⟩ := exists_toNat_eq (n := n % 0x40 + 0x80) (by omega)
  have hlastRange := continues_of_toNat_eq hlastNat
  rw [hlast, if_neg (by omega)]
  by_cases htwo : n ≤ 0x7FF
  · obtain ⟨b, hb, hbNat⟩ := exists_toNat_eq (n := n / 64 % 0x20 + 0xC0) (by omega)
    have hn : b.toNat % 0x20 * 0x40 + last.toNat % 0x40 = n := by omega
    rw [hb, if_pos htwo]
    exact ⟨b, _, _, rfl, .two (by omega) (by omega), hn ▸ .last hlastRange⟩
  obtain ⟨third, hthird, hthirdNat⟩ := exists_toNat_eq (n := n / 64 % 0x40 + 0x80) (by omega)
  rw [hthird, if_neg htwo]
  by_cases hthree : n ≤ 0xFFFF
  · obtain ⟨b, hb, hbNat⟩ := exists_toNat_eq (n := n / 4096 % 0x10 + 0xE0) (by omega)
    have hn : (b.toNat % 0x10 * 0x40 + third.toNat % 0x40) * 0x40 + last.toNat % 0x40 = n := by
      omega
    rw [hb, if_pos hthree]
    refine ⟨b, _, _, rfl, .three (by omega) (by omega), hn ▸ .more ?_ (.last hlastRange)⟩
    simp only [UInt8.le_iff_toNat_le, apply_ite UInt8.toNat, UInt8.reduceToNat]
    split_ifs <;> omega
  · obtain ⟨second, hsecond, hsecondNat⟩ :=
      exists_toNat_eq (n := n / 4096 % 0x40 + 0x80) (by omega)
    obtain ⟨b, hb, hbNat⟩ := exists_toNat_eq (n := n / 262144 % 0x08 + 0xF0) (by omega)
    have hn : ((b.toNat % 0x08 * 0x40 + second.toNat % 0x40) * 0x40 + third.toNat % 0x40) * 0x40 +
        last.toNat % 0x40 = n := by
      omega
    rw [hb, hsecond, if_neg hthree]
    refine ⟨b, _, _, rfl, .four (by omega) (by omega), hn ▸ .more ?_
      (.more (continues_of_toNat_eq hthirdNat) (.last hlastRange))⟩
    simp only [UInt8.le_iff_toNat_le, apply_ite UInt8.toNat, UInt8.reduceToNat]
    split_ifs <;> omega

/-! ### All characters -/

/-- `Remains state bytes cs`: at a place between two characters, or within one, the bytes go on to
the end of a text with the characters `cs`. -/
inductive Remains : Option Pending → List UInt8 → List Char → Prop
  | between (cs : List Char) : Remains none (cs.flatMap String.utf8EncodeChar) cs
  | within {pending : Pending} {bytes : List UInt8} {n : Nat} (h : pending.Finishes bytes n)
      (cs : List Char) :
      Remains (some pending) (bytes ++ cs.flatMap String.utf8EncodeChar) (Char.ofNat n :: cs)

theorem decodeFrom_of_finishes (h : pending.Finishes bytes n) (rest : List UInt8) :
    decodeFrom (some pending) (bytes ++ rest) = some (Char.ofNat n) :: decodeFrom none rest := by
  induction h with
  | last hb => simp [decodeFrom, hb]
  | more hb h ih => simp [decodeFrom, hb, ih]

theorem decodeFrom_utf8EncodeChar_append (c : Char) (rest : List UInt8) :
    decodeFrom none (String.utf8EncodeChar c ++ rest) = some c :: decodeFrom none rest := by
  by_cases hascii : c.toNat < 0x80
  · have hbyte : (UInt8.ofNat c.toNat).toNat = c.toNat :=
      UInt8.toNat_ofNat_of_lt' (by simp only [UInt8.size]; omega)
    have hstart : start (UInt8.ofNat c.toNat) = .inl (some c) := by
      rw [start_of_lt (by omega), hbyte, Char.ofNat_toNat]
    rw [String.utf8EncodeChar, Char.toNat_val, if_pos (by omega), List.singleton_append, decodeFrom,
      hstart]
  · obtain ⟨b, pending, bytes, hc, hb, h⟩ := exists_begins (c := c) (by omega)
    rw [hc, List.cons_append, decodeFrom, start_of_begins hb]
    simpa using decodeFrom_of_finishes h rest

theorem decodeFrom_of_remains {state : Option Pending} {cs : List Char}
    (h : Remains state bytes cs) : decodeFrom state bytes = cs.map some := by
  have hbetween (cs : List Char) :
      decodeFrom none (cs.flatMap String.utf8EncodeChar) = cs.map some := by
    induction cs with
    | nil => rfl
    | cons c cs ih =>
      rw [List.flatMap_cons, decodeFrom_utf8EncodeChar_append, ih, List.map_cons]
  cases h with
  | between => exact hbetween cs
  | within h cs => rw [decodeFrom_of_finishes h, hbetween, List.map_cons]

/-! ### The induction over the bytes -/

/-- A byte that is read as a character is the only byte of this character. -/
theorem utf8EncodeChar_of_start {c : Char} (h : start b = .inl (some c)) :
    String.utf8EncodeChar c = [b] := by
  have hascii : b.toNat < 0x80 := by
    by_contra hnot
    have hstart : ¬ b < 0x80 := fun hlt => hnot (UInt8.lt_iff_toNat_lt.mp hlt)
    rw [start, if_neg hstart] at h
    split at h <;> cases h
  obtain rfl : Char.ofNat b.toNat = c := by
    rw [start_of_lt hascii] at h
    exact Option.some.inj (Sum.inl.inj h)
  rw [String.utf8EncodeChar, toNat_val_ofNat (.inl (by omega)), if_pos (by omega),
    UInt8.ofNat_toNat]

namespace Remains

variable {cs : List Char}

theorem one {c : Char} (hc : start b = .inl (some c)) (h : Remains none bytes cs) :
    Remains none (b :: bytes) (c :: cs) := by
  obtain ⟨cs⟩ := h
  have hbytes := between (c :: cs)
  rwa [List.flatMap_cons, utf8EncodeChar_of_start hc] at hbytes

theorem begun (hb : Begins b pending) (h : Remains (some pending) bytes cs) :
    Remains none (b :: bytes) cs := by
  obtain _ | @⟨_, _, n, hfinishes, cs⟩ := h
  have hbytes := between (Char.ofNat n :: cs)
  rwa [List.flatMap_cons, utf8EncodeChar_of_finishes hb hfinishes, List.cons_append] at hbytes

theorem last {least greatest : UInt8} {bits : Nat} (hb : least ≤ b ∧ b ≤ greatest)
    (h : Remains none bytes cs) : Remains (some ⟨least, greatest, 0, bits⟩) (b :: bytes)
      (Char.ofNat (bits * 0x40 + b.toNat % 0x40) :: cs) := by
  obtain ⟨cs⟩ := h
  exact within (.last hb) cs

theorem more {least greatest : UInt8} {later bits : Nat} (hb : least ≤ b ∧ b ≤ greatest)
    (h : Remains (some ⟨0x80, 0xBF, later, bits * 0x40 + b.toNat % 0x40⟩) bytes cs) :
    Remains (some ⟨least, greatest, later + 1, bits⟩) (b :: bytes) cs := by
  obtain _ | ⟨hfinishes, cs⟩ := h
  exact within (.more hb hfinishes) cs

end Remains

/-- Bytes are read without a fault exactly if they go on to the end of a text. -/
theorem decodeFrom_eq_map_some_iff {state : Option Pending} {cs : List Char} :
    decodeFrom state bytes = cs.map some ↔ Remains state bytes cs := by
  refine ⟨fun h => ?_, decodeFrom_of_remains⟩
  fun_induction decodeFrom state bytes generalizing cs with
  | case1 =>
    obtain rfl := List.map_eq_nil_iff.mp h.symm
    exact .between []
  | case3 b bytes c? hc ih =>
    obtain ⟨c, cs, rfl, rfl, hcs⟩ := List.map_eq_cons_iff.mp h.symm
    exact .one hc (ih hcs.symm)
  | case4 b bytes pending hpending ih => exact .begun (begins_of_start hpending) (ih h)
  | case5 pending b bytes hb bits hlater =>
    rename_i ih
    obtain ⟨c, cs, rfl, hc, hcs⟩ := List.map_eq_cons_iff.mp h.symm
    obtain rfl := Option.some.inj hc
    obtain ⟨least, greatest, later, bits⟩ := pending
    obtain rfl : later = 0 := hlater
    exact .last (by simpa using hb) (ih hcs.symm)
  | case6 pending b bytes hb bits later hlater =>
    rename_i ih
    obtain ⟨least, greatest, later, bits⟩ := pending
    obtain rfl : later = _ := hlater
    exact .more (by simpa using hb) (ih h)
  -- at a fault there is no character
  | case2 | case7 | case8 =>
    obtain ⟨c, cs, rfl, hc, -⟩ := List.map_eq_cons_iff.mp h.symm
    cases hc

theorem mapM_id_eq_some_iff {α : Type} {as : List (Option α)} {bs : List α} :
    as.mapM id = some bs ↔ as = bs.map some := by
  induction as generalizing bs with
  | nil => cases bs <;> simp
  | cons a as ih =>
    cases a with
    | none => cases bs <;> simp
    | some a => cases bs <;> simp [Option.bind_eq_some_iff, ih, and_comm]

/-- **Reading bytes undoes writing a text.** Bytes are read as a text exactly if they are the bytes
of this text. -/
theorem text?_eq_some_iff {bytes : List UInt8} {text : String} :
    text? bytes = some text ↔ encode text = bytes := by
  rw [text?, Option.map_eq_some_iff, encode_eq_flatMap]
  simp only [mapM_id_eq_some_iff, decode, decodeFrom_eq_map_some_iff]
  constructor
  · rintro ⟨cs, h, rfl⟩
    obtain ⟨cs⟩ := h
    rw [String.toList_ofList]
  · rintro rfl
    exact ⟨text.toList, .between _, String.ofList_toList⟩

theorem text?_encode (text : String) : text? (encode text) = some text :=
  text?_eq_some_iff.mpr rfl

/-- A text is shown as it is. -/
theorem display_encode (text : String) : display (encode text) = text := by
  obtain ⟨cs, hcs, htext⟩ := Option.map_eq_some_iff.mp (text?_encode text)
  -- nothing is replaced, since no place in the bytes is ill formed
  have hshown : (fun c : Option Char => c.getD '\uFFFD') ∘ some = id := rfl
  rw [display, mapM_id_eq_some_iff.mp hcs, List.map_map, hshown, List.map_id, htext]

end Utf8

/-! ### Files -/

namespace FileNode

variable {node : FileNode}

/-- `node.Refuses cause`: what stands there holds no text, and this is the cause. -/
inductive Refuses : FileNode → FileError → Prop
  | directory (entries : List (FileName × FileNode)) : Refuses (directory entries) .isADirectory
  | unreadable (kind : FileKind) (cause : FileError) : Refuses (unreadable kind cause) cause
  | notUtf8 {content : List UInt8} (h : ∀ text, Utf8.encode text ≠ content) :
      Refuses (file content) .notUtf8

theorem text_file (content : List UInt8) :
    (file content).text = (Utf8.text? content).elim (.error .notUtf8) .ok := by
  simp only [text, bytes, bind, Except.bind]
  cases Utf8.text? content <;> rfl

/-- A text is read from a file with its bytes. -/
theorem text_eq_ok_iff {text : String} : node.text = .ok text ↔ node = file (Utf8.encode text) := by
  cases node with
  | directory entries | unreadable kind cause => simp [FileNode.text, bytes, bind, Except.bind]
  | file content =>
    rw [text_file, file.injEq, eq_comm (a := content), ← Utf8.text?_eq_some_iff]
    cases Utf8.text? content <;> simp

theorem text_eq_error_iff {cause : FileError} : node.text = .error cause ↔ node.Refuses cause := by
  cases node with
  | directory entries =>
    have htext : (directory entries).text = .error .isADirectory := rfl
    rw [htext, Except.error.injEq]
    exact ⟨fun h => h ▸ .directory entries, fun | .directory _ => rfl⟩
  | unreadable kind cause' =>
    have htext : (unreadable kind cause').text = .error cause' := rfl
    rw [htext, Except.error.injEq]
    exact ⟨fun h => h ▸ .unreadable kind cause', fun | .unreadable _ _ => rfl⟩
  | file content =>
    rw [text_file]
    constructor
    · intro h
      cases htext : Utf8.text? content with
      | some text => simp [htext] at h
      | none =>
        obtain rfl : .notUtf8 = cause := by simpa [htext] using h
        refine .notUtf8 fun text hbytes => ?_
        rw [Utf8.text?_eq_some_iff.mpr hbytes] at htext
        cases htext
    · intro hrefuses
      cases hrefuses with
      | notUtf8 h =>
        have htext : Utf8.text? content = none :=
          Option.eq_none_iff_forall_ne_some.mpr fun text hsome =>
            h text (Utf8.text?_eq_some_iff.mp hsome)
        rw [htext]
        rfl

end FileNode

end RandomSentences
