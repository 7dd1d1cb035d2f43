/-!
# Sources of choices

What the expansion of a grammar asks of randomness: a source gives an index below a bound, and
it gives a source of its own for each part that is to be expanded independently. Nothing else
about the source matters to the rest of the library, so all of it works for any instance.
-/

namespace RandomSentences

/-- A source of choices. -/
class ChoiceSource (γ : Type) where
  /-- An index below a positive bound, and the source for later choices. -/
  index (source : γ) (bound : Nat) (pos : 0 < bound) : Fin bound × γ
  /-- A source for one part, and the source for later choices. -/
  split (source : γ) : γ × γ

/-- Sources for a number of parts, split off one after the other. -/
def ChoiceSource.splits {γ : Type} [ChoiceSource γ] (source : γ) : Nat → List γ
  | 0 => []
  | n + 1 =>
    let (part, rest) := ChoiceSource.split source
    part :: splits rest n

theorem ChoiceSource.length_splits {γ : Type} [ChoiceSource γ] (source : γ) (n : Nat) :
    (ChoiceSource.splits source n).length = n := by
  induction n generalizing source with
  | zero => rfl
  | succ n ih => simp [ChoiceSource.splits, ih]

end RandomSentences
