import RandomSentences.Text.UppercaseTable

/-!
# The uppercase of a character

`uppercase` is Unicode's full mapping, so a character may become several, as `ß` becomes `SS`.
Mappings that depend on a language or on neighbouring characters are not part of it.
-/

namespace RandomSentences.Text

/-- Whether a code point belongs to a run. -/
def CaseRun.contains (run : CaseRun) (n : Nat) : Bool :=
  run.first ≤ n && n ≤ run.last && (n - run.first) % run.step == 0

/-- The uppercase of a character, by Unicode's full mapping. -/
def uppercase (c : Char) : List Char :=
  match uppercaseExpansions.lookup c.toNat with
  | some expansion => expansion.map Char.ofNat
  | none =>
    match uppercaseRuns.find? (·.contains c.toNat) with
    | some run => [Char.ofNat (c.toNat + run.shift).toNat]
    | none => [c]

end RandomSentences.Text
