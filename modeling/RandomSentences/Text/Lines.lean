import RandomSentences.Text.Pieces

/-!
# Lines

A line ends in a line feed, or in a carriage return with a line feed after it; the last line may
also end with the text. So a line feed at the end of a text does not start another line, and a
carriage return anywhere else belongs to its line.

`cutAlike_lines` compares the lines of a text with its pieces between line feeds.
-/

namespace RandomSentences.Text

/-- The lines of a text, without what ends them. -/
def lines : List Char → List (List Char)
  | [] => []
  | '\n' :: cs => [] :: lines cs
  | '\r' :: '\n' :: cs => [] :: lines cs
  | c :: cs => consPiece c (lines cs)

/-- `CutAlike lines pieces`: each piece is a line, or a line and a carriage return; the pieces may
have an empty one more at the end. -/
inductive CutAlike : List (List Char) → List (List Char) → Prop
  | none : CutAlike [] [[]]
  | last {line piece : List Char} (hpiece : piece = line ∨ piece = line ++ ['\r']) :
      CutAlike [line] [piece]
  | cons {line piece : List Char} {lines pieces : List (List Char)}
      (hpiece : piece = line ∨ piece = line ++ ['\r']) (h : CutAlike lines pieces) :
      CutAlike (line :: lines) (piece :: pieces)

theorem CutAlike.consPiece {lines pieces : List (List Char)} (c : Char)
    (h : CutAlike lines pieces) : CutAlike (consPiece c lines) (consPiece c pieces) := by
  cases h with
  | none => exact .last (.inl rfl)
  | last hpiece => exact .last (hpiece.imp (congrArg (c :: ·)) (congrArg (c :: ·)))
  | cons hpiece h => exact .cons (hpiece.imp (congrArg (c :: ·)) (congrArg (c :: ·))) h

/-- Lines are the pieces between line feeds, apart from a carriage return before the line feed and
from an empty piece after the last one. -/
theorem cutAlike_lines (cs : List Char) : CutAlike (lines cs) (pieces (· == '\n') cs) := by
  fun_induction lines cs with
  | case1 => exact .none
  | case2 cs ih => exact .cons (.inl rfl) ih
  | case3 cs ih => exact .cons (.inr rfl) ih
  | case4 c cs hnewline _ ih =>
    have hc : (c == '\n') = false := by simpa using hnewline
    simpa only [pieces, hc, Bool.false_eq_true, if_false] using ih.consPiece c

end RandomSentences.Text
