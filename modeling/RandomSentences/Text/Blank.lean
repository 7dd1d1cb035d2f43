import RandomSentences.Text.Pieces

/-!
# Blank characters

The characters with Unicode's property `White_Space`, and the three things that this library
does with them: a text is cut into the pieces between blanks, trimmed at its start, or trimmed
at both ends. All three work on lists of characters and have a version on `String`.

The pieces of `splitBlank` are what is left after all blanks are removed, cut where a blank
was: `splitBlank_ne_nil` and `not_isBlank_of_mem_splitBlank` say that no piece is empty or
holds a blank, and `splitBlank_of_forall` that a text without blanks is its own only piece. So
words that are joined by spaces are found again (`words_intercalate`).

A text is blanks, then what is left by trimming, and then blanks again (`exists_eq_append_trim`),
and a part between blanks that neither starts nor ends with one is what is left
(`trim_of_enclosed`).
-/

namespace RandomSentences.Text

/-- The characters of Unicode's property `White_Space`. Zero-width spaces and the byte order
mark do not have it. -/
def isBlank (c : Char) : Bool :=
  let n := c.val
  (9 ≤ n && n ≤ 13) || n == 0x20 || n == 0x85 || n == 0xA0 || n == 0x1680 ||
    (0x2000 ≤ n && n ≤ 0x200A) || n == 0x2028 || n == 0x2029 || n == 0x202F || n == 0x205F ||
    n == 0x3000

/-- The non-empty pieces between blanks, in order. -/
def splitBlank (cs : List Char) : List (List Char) :=
  (pieces isBlank cs).filter fun piece => !piece.isEmpty

/-- The text without its leading blanks. -/
def trimStart (cs : List Char) : List Char :=
  cs.dropWhile isBlank

/-- The text without its trailing blanks. -/
def trimEnd (cs : List Char) : List Char :=
  (cs.reverse.dropWhile isBlank).reverse

/-- The text without its leading and trailing blanks. -/
def trim (cs : List Char) : List Char :=
  trimEnd (trimStart cs)

/-- The words of a text: its non-empty pieces between blanks. -/
def words (text : String) : List String :=
  (splitBlank text.toList).map String.ofList

/-- Whether a text can be a word between blanks: it is not empty and holds no blank. -/
def IsWord (text : String) : Prop :=
  text.toList ≠ [] ∧ ∀ c ∈ text.toList, isBlank c = false

/-! ### Trimming -/

section

variable {cs body before after : List Char} {c : Char}

theorem not_isBlank_of_head?_dropWhile (h : (cs.dropWhile isBlank).head? = some c) :
    isBlank c = false := by
  have hhead := List.head?_dropWhile_not isBlank cs
  rwa [h] at hhead

theorem trimEnd_isPrefix (cs : List Char) : trimEnd cs <+: cs := by
  have h := (List.dropWhile_suffix (l := cs.reverse) isBlank).reverse
  rwa [List.reverse_reverse] at h

theorem not_isBlank_of_head?_trim (h : (trim cs).head? = some c) : isBlank c = false := by
  obtain ⟨rest, hrest⟩ := trimEnd_isPrefix (trimStart cs)
  have hstart : (trimStart cs).head? = some c := by
    rw [← hrest, List.head?_append, ← trim, h, Option.some_or]
  exact not_isBlank_of_head?_dropWhile hstart

theorem not_isBlank_of_getLast?_trim (h : (trim cs).getLast? = some c) : isBlank c = false := by
  rw [trim, trimEnd, List.getLast?_reverse] at h
  exact not_isBlank_of_head?_dropWhile h

theorem mem_of_mem_trim (h : c ∈ trim cs) : c ∈ cs :=
  (List.dropWhile_suffix isBlank).mem ((trimEnd_isPrefix (trimStart cs)).mem h)

theorem dropWhile_isBlank_of_head (h : ∀ c ∈ cs.head?, isBlank c = false) :
    cs.dropWhile isBlank = cs := by
  cases cs with
  | nil => rfl
  | cons c cs => simp [h c rfl]

/-- What is left by trimming stands between blanks. -/
theorem exists_eq_append_trim (cs : List Char) :
    ∃ before after, cs = before ++ trim cs ++ after ∧ (∀ c ∈ before, isBlank c = true) ∧
      ∀ c ∈ after, isBlank c = true := by
  refine ⟨cs.takeWhile isBlank, ((trimStart cs).reverse.takeWhile isBlank).reverse, ?_, ?_, ?_⟩
  · have hstart : trim cs ++ ((trimStart cs).reverse.takeWhile isBlank).reverse = trimStart cs := by
      rw [trim, trimEnd, ← List.reverse_append, List.takeWhile_append_dropWhile,
        List.reverse_reverse]
    rw [List.append_assoc, hstart, trimStart, List.takeWhile_append_dropWhile]
  · exact List.all_eq_true.mp List.all_takeWhile
  · intro c hc
    exact List.all_eq_true.mp List.all_takeWhile c (List.mem_reverse.mp hc)

/-- A part between blanks that neither starts nor ends with a blank is what is left. -/
theorem trim_of_enclosed (hbefore : ∀ c ∈ before, isBlank c = true)
    (hafter : ∀ c ∈ after, isBlank c = true) (hhead : ∀ c ∈ body.head?, isBlank c = false)
    (hlast : ∀ c ∈ body.getLast?, isBlank c = false) : trim (before ++ body ++ after) = body := by
  rw [trim, trimStart, List.append_assoc, List.dropWhile_append_of_pos hbefore]
  have hend : trimEnd (body ++ after) = body := by
    rw [trimEnd, List.reverse_append, List.dropWhile_append_of_pos (by simpa using hafter),
      dropWhile_isBlank_of_head (by simpa using hlast), List.reverse_reverse]
  cases body with
  | nil =>
    have hnil : (after ++ []).dropWhile isBlank = [] := List.dropWhile_append_of_pos hafter
    rw [List.nil_append, ← List.append_nil after, hnil]
    rfl
  | cons c body => rw [dropWhile_isBlank_of_head (by simpa using hhead), hend]

/-- Blanks around a text make no difference. -/
theorem trim_append_append (cs : List Char) (hbefore : ∀ c ∈ before, isBlank c = true)
    (hafter : ∀ c ∈ after, isBlank c = true) : trim (before ++ cs ++ after) = trim cs := by
  obtain ⟨outer, inner, hcs, houter, hinner⟩ := exists_eq_append_trim cs
  have henclosed : before ++ cs ++ after = (before ++ outer) ++ trim cs ++ (inner ++ after) := by
    conv => lhs; rw [hcs]
    simp only [List.append_assoc]
  rw [henclosed]
  refine trim_of_enclosed (fun c hc => ?_) (fun c hc => ?_) (fun c => not_isBlank_of_head?_trim)
    fun c => not_isBlank_of_getLast?_trim
  · exact (List.mem_append.mp hc).elim (hbefore c) (houter c)
  · exact (List.mem_append.mp hc).elim (hinner c) (hafter c)

end

/-! ### The pieces -/

theorem splitBlank_ne_nil {cs piece : List Char} (h : piece ∈ splitBlank cs) : piece ≠ [] := by
  have := (List.mem_filter.1 h).2
  rintro rfl
  simp at this

/-- No piece holds a blank. -/
theorem not_isBlank_of_mem_splitBlank {cs piece : List Char} (h : piece ∈ splitBlank cs) :
    ∀ c ∈ piece, isBlank c = false :=
  eq_false_of_mem_pieces (List.mem_filter.1 h).1

theorem isWord_of_mem_words {text w : String} (h : w ∈ words text) : IsWord w := by
  obtain ⟨piece, hp, rfl⟩ := List.mem_map.1 h
  simpa [IsWord] using And.intro (splitBlank_ne_nil hp) (not_isBlank_of_mem_splitBlank hp)

/-- A text without blanks is its own only piece. -/
theorem splitBlank_of_forall {cs : List Char} (h : ∀ c ∈ cs, isBlank c = false) (hne : cs ≠ []) :
    splitBlank cs = [cs] := by
  cases cs with
  | nil => exact absurd rfl hne
  | cons c cs => simp [splitBlank, pieces_of_forall h]

/-- Pieces that are neither empty nor hold a blank are found again where they are joined by
spaces. -/
theorem splitBlank_intercalate {parts : List (List Char)}
    (h : ∀ part ∈ parts, part ≠ [] ∧ ∀ c ∈ part, isBlank c = false) :
    splitBlank ([' '].intercalate parts) = parts := by
  induction parts with
  | nil => rfl
  | cons part parts ih =>
    obtain ⟨hne, hpart⟩ := h part (List.mem_cons_self ..)
    have ih := ih fun other hother => h other (List.mem_cons_of_mem _ hother)
    cases parts with
    | nil => rw [List.intercalate_singleton, splitBlank_of_forall hpart hne]
    | cons next parts =>
      rw [List.intercalate_cons_cons, List.append_assoc, List.singleton_append, splitBlank,
        pieces_append_cons _ hpart (by decide), List.filter_cons_of_pos (by simpa using hne)]
      exact congrArg (part :: ·) ih

/-- Words that are joined by spaces are the words of the text. -/
theorem words_intercalate {ws : List String} (h : ∀ w ∈ ws, IsWord w) :
    words (" ".intercalate ws) = ws := by
  have hparts : ∀ part ∈ ws.map String.toList, part ≠ [] ∧ ∀ c ∈ part, isBlank c = false := by
    intro part hpart
    obtain ⟨w, hw, rfl⟩ := List.mem_map.1 hpart
    exact h w hw
  have hsplit : splitBlank (" ".intercalate ws).toList = ws.map String.toList := by
    rw [String.toList_intercalate]
    exact splitBlank_intercalate hparts
  rw [words, hsplit, List.map_map]
  exact (List.map_congr_left fun w _ => String.ofList_toList).trans (List.map_id ws)

end RandomSentences.Text
