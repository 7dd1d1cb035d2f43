import RandomSentences.Proofs.Decoding
import RandomSentences.Proofs.Shape

/-!
# One word on each line

What a word list holds is what stands between its line feeds, without the blanks around it and
without what is blank altogether. A carriage return is a blank, so it makes no difference whether
lines end in a line feed alone or have a carriage return before it, nor whether the last line has
an end: each piece of one text is then the same piece of the other, or that piece and a carriage
return (`Text.CutAlike`).

Words that are written one on each line are read again if and only if they are phrases, and all
words of a word list are. So to read what was written of a word list gives the same words again.
`WordList.words_of_text` has all this for a file with any text.
-/

namespace RandomSentences

/-! ### Line ends -/

namespace Text

/-- The characters of a text, with a carriage return put before every line feed. -/
def withReturns (cs : List Char) : List Char :=
  cs.flatMap fun c => if c = '\n' then ['\r', '\n'] else [c]

theorem cutAlike_withReturns (cs : List Char) :
    CutAlike (pieces (· == '\n') cs) (pieces (· == '\n') (withReturns cs)) := by
  induction cs with
  | nil => exact .last (.inl rfl)
  | cons c cs ih =>
    by_cases hc : c = '\n'
    · subst hc
      exact .cons (.inr rfl) ih
    · have hreturns : withReturns (c :: cs) = c :: withReturns cs := by simp [withReturns, hc]
      have hcut : (c == '\n') = false := by simpa using hc
      rw [hreturns]
      simpa only [pieces, hcut, Bool.false_eq_true, if_false] using ih.consPiece c

theorem cutAlike_append_return (cs : List Char) :
    CutAlike (pieces (· == '\n') cs) (pieces (· == '\n') (cs ++ ['\r'])) := by
  induction cs with
  | nil => exact .last (.inr rfl)
  | cons c cs ih =>
    by_cases hc : c = '\n'
    · subst hc
      exact .cons (.inl rfl) ih
    · have hcut : (c == '\n') = false := by simpa using hc
      simpa only [List.cons_append, pieces, hcut, Bool.false_eq_true, if_false]
        using ih.consPiece c

end Text

namespace WordList

variable {text : String}

theorem filterMap_word?_eq (lines : List (List Char)) :
    lines.filterMap word? = ((lines.map Text.trim).filter (· ≠ [])).map String.ofList := by
  induction lines with
  | nil => rfl
  | cons line lines ih =>
    rw [List.filterMap_cons, ih, List.map_cons, word?]
    by_cases hblank : Text.trim line = []
    · simp [hblank]
    · simp [hblank]

/-- The words of a list are what stands between its line feeds, trimmed, where anything is left. -/
theorem parse_eq_splitOn (text : String) :
    parse text =
      (((text.toList.splitOn '\n').map Text.trim).filter (· ≠ [])).map String.ofList := by
  rw [parse_eq_pieces, filterMap_word?_eq, Text.pieces_eq_splitOnP]
  rfl

theorem parse_ofList_of_cutAlike {cs : List Char}
    (h : Text.CutAlike (Text.pieces (· == '\n') text.toList) (Text.pieces (· == '\n') cs)) :
    parse (String.ofList cs) = parse text := by
  rw [parse_eq_pieces, parse_eq_pieces, String.toList_ofList, filterMap_word?_of_cutAlike h]

/-- A carriage return before every line feed makes no difference. -/
theorem parse_withReturns (text : String) :
    parse (String.ofList (Text.withReturns text.toList)) = parse text :=
  parse_ofList_of_cutAlike (Text.cutAlike_withReturns text.toList)

/-- The words of two texts with a line feed between them are those of one and then the other. -/
theorem parse_append (before after : String) :
    parse (before ++ "\n" ++ after) = parse before ++ parse after := by
  have htext : (before ++ "\n" ++ after).toList = before.toList ++ '\n' :: after.toList := by simp
  rw [parse_eq_pieces, htext, Text.pieces_append (by rfl), List.filterMap_append,
    ← parse_eq_pieces, ← parse_eq_pieces]

/-- An end of the last line makes no difference. -/
theorem parse_append_newline (text : String) : parse (text ++ "\n") = parse text := by
  have hempty : parse "" = [] := rfl
  have h := parse_append text ""
  rwa [String.append_empty, hempty, List.append_nil] at h

theorem parse_append_return (text : String) : parse (text ++ "\r\n") = parse text := by
  have hreturn : parse (text ++ "\r") = parse text := by
    have h := parse_ofList_of_cutAlike (Text.cutAlike_append_return text.toList)
    rwa [← String.ofList_toList (s := text ++ "\r"), String.toList_append]
  have hend : text ++ "\r\n" = text ++ "\r" ++ "\n" := by
    rw [String.append_assoc]
    rfl
  rw [hend, parse_append_newline, hreturn]

/-! ### Writing and reading again -/

/-- The text with some words, one on each line. -/
def write (words : List String) : String :=
  String.ofList (words.flatMap fun word => word.toList ++ ['\n'])

theorem write_cons (word : String) (words : List String) :
    write (word :: words) = word ++ "\n" ++ write words := by
  apply String.toList_injective
  simp [write]

/-- A phrase is the only word of itself. -/
theorem parse_of_isPhrase (h : Text.IsPhrase text) : parse text = [text] := by
  have htrim : Text.trim ([] ++ text.toList ++ []) = text.toList :=
    Text.trim_of_enclosed (by simp) (by simp) h.head h.last
  have hsplit : text.toList.splitOn '\n' = [text.toList] := List.splitOn_eq_singleton h.line
  rw [List.nil_append, List.append_nil] at htrim
  simp only [parse_eq_splitOn, hsplit, List.map_cons, List.map_nil, htrim]
  simp [h.ne_nil]

theorem parse_write {words : List String} (h : ∀ word ∈ words, Text.IsPhrase word) :
    parse (write words) = words := by
  induction words with
  | nil => rfl
  | cons word words ih =>
    have hword := parse_of_isPhrase (h word (List.mem_cons_self ..))
    have hwords := ih fun other hother => h other (List.mem_cons_of_mem _ hother)
    rw [write_cons, parse_append, hword, hwords, List.singleton_append]

/-- Words are read again as they were written if and only if they are phrases. -/
theorem parse_write_eq_self_iff {words : List String} :
    parse (write words) = words ↔ ∀ word ∈ words, Text.IsPhrase word := by
  refine ⟨fun h word hword => ?_, parse_write⟩
  rw [← h] at hword
  exact isPhrase_of_mem_parse hword

/-! ### Files -/

/-- A file with the bytes of a text has the words of this text. -/
theorem File.words_of_encode (category : Category) (name : FileName) (text : String) :
    File.words ⟨category, name, .file (Utf8.encode text)⟩ = .ok (parse text) := by
  rw [File.words, FileNode.text_eq_ok_iff.mpr rfl]
  rfl

/-- A file with the bytes of a text has as its words what stands between the line feeds of the
text, trimmed, where anything is left. Carriage returns before the line feeds and a line end after
the text make no difference; all words are phrases; and the words are read again from a text with
one of them on each line, as is any list of phrases, and no other list. -/
theorem words_of_text (category : Category) (name : FileName) (text : String)
    (words : List String) :
    File.words ⟨category, name, .file (Utf8.encode text)⟩ = .ok (parse text) ∧
      parse text =
        (((text.toList.splitOn '\n').map Text.trim).filter (· ≠ [])).map String.ofList ∧
      parse (String.ofList (Text.withReturns text.toList)) = parse text ∧
      parse (text ++ "\n") = parse text ∧ parse (text ++ "\r\n") = parse text ∧
      (∀ word ∈ parse text, Text.IsPhrase word) ∧
      parse (write (parse text)) = parse text ∧
      (parse (write words) = words ↔ ∀ word ∈ words, Text.IsPhrase word) := by
  have hphrases : ∀ word ∈ parse text, Text.IsPhrase word := fun word => isPhrase_of_mem_parse
  exact ⟨File.words_of_encode category name text, parse_eq_splitOn text, parse_withReturns text,
    parse_append_newline text, parse_append_return text, hphrases, parse_write hphrases,
    parse_write_eq_self_iff⟩

end WordList

end RandomSentences
