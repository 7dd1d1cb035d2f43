import RandomSentences.CommandLine.Arguments
import RandomSentences.Decimal.Digits
import RandomSentences.Files.Path

/-!
# Values of options

How the values of options are read as paths and seeds.
-/

namespace RandomSentences

/-- A seed, given as a number of 64 bits. -/
def seed? (text : String) : Option UInt64 :=
  ((Decimal.natural? text.toList).filter (· < UInt64.size)).map UInt64.ofNat

/-- A path, which is not empty. -/
def path? (text : String) : Option FilePath :=
  if text = "" then none else some (FilePath.ofText text)

/-- The last value of an option, or another if it is not given, if it can be read. -/
def Argument.read? {α : Type} (arguments : List Argument) (long : String) (fallback : α)
    (read : String → Option α) : Option α :=
  match (Argument.values arguments long).getLast? with
  | some text => read text
  | none => some fallback

end RandomSentences
