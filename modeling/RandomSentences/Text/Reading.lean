/-!
# Reading a text from its start

What the readers of the file formats share.
-/

namespace RandomSentences.Text

/-- The rest of a text that starts with a given word. -/
def dropWord? : (word : List Char) → List Char → Option (List Char)
  | [], cs => some cs
  | w :: ws, c :: cs => if c = w then dropWord? ws cs else none
  | _ :: _, [] => none

theorem dropWord?_append (word rest : List Char) : dropWord? word (word ++ rest) = some rest := by
  induction word with
  | nil => cases rest <;> rfl
  | cons w ws ih => simpa [dropWord?] using ih

theorem dropWord?_eq_some_iff {word cs rest : List Char} :
    dropWord? word cs = some rest ↔ cs = word ++ rest := by
  constructor
  · intro h
    fun_induction dropWord? word cs with
    | case1 => simpa using h
    | case2 w ws cs ih => simp [ih h]
    | case3 => simp at h
    | case4 => simp at h
  · rintro rfl
    exact dropWord?_append word rest

end RandomSentences.Text
