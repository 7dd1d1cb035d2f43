import RandomSentences.Text.Uppercase

/-!
# Finishing a sentence

An expanded start symbol becomes a sentence when its first character is put in upper case and a
period is added. Nothing else is changed, so a sentence that starts with a placeholder keeps
its brace, and a text that ends in a period ends in two.
-/

namespace RandomSentences

/-- The text with its first character in upper case and a period at the end. -/
def finishSentence (text : String) : String :=
  match text.toList with
  | [] => "."
  | c :: cs => String.ofList (Text.uppercase c ++ cs ++ ['.'])

end RandomSentences
