import Std.Data.ExtTreeSet
import RandomSentences.Grammar.Reach

/-!
# Warnings about a grammar

A grammar may be well formed and still not be what its author meant. Three things are worth a
warning: a rule that the start symbol does not reach, a literal that looks like the name of a
rule, and a category that no rule draws from. `Grammar.lint` lists the warnings in this order.
-/

namespace RandomSentences

/-- Whether a text looks like a rule's name: a capital letter followed by letters, digits and
underscores, all of them ASCII. -/
def looksLikeRuleName (text : String) : Bool :=
  match text.toList with
  | [] => false
  | c :: cs => c.isUpper && cs.all fun d => d.isAlphanum || d == '_'

/-- Something in a grammar that is probably a mistake. -/
inductive Warning where
  | unreachableRule (rule start : String)
  | suspiciousLiteral (rule text : String)
  | unusedCategory (category : Category)
  deriving DecidableEq, Repr

/-- The message of a warning, as shown to a user. -/
def Warning.message : Warning → String
  | unreachableRule rule start =>
    "Rule '" ++ rule ++ "' is not reachable from start symbol '" ++ start ++ "'"
  | suspiciousLiteral rule text =>
    "Rule '" ++ rule ++ "' emits literal '" ++ text ++ "' (missing rule or typo?)"
  | unusedCategory category => "Category '" ++ category.key ++ "' is never referenced"

namespace Grammar

/-- The categories that some rule draws from, in the order of `Category.all`. -/
def categories (g : Grammar) : List Category :=
  let drawn := g.rules.symbols.filterMap fun (_, s) => s.category?
  Category.all.filter fun c => drawn.contains c

/-- The literals of a rule's alternatives that look like rule names, each once and in
increasing order. -/
def suspiciousLiteralsOf (alternatives : List Alternative) : List String :=
  let literals := alternatives.flatten.filterMap Symbol.literal?
  (Std.ExtTreeSet.ofList (literals.filter looksLikeRuleName)).toList

/-- The literals that look like rule names, with the rules that emit them: in increasing order
of rule and literal, and each pair once. -/
def suspiciousLiterals (g : Grammar) : List (String × String) :=
  g.rules.toList.flatMap fun (name, alternatives) =>
    (suspiciousLiteralsOf alternatives).map fun text => (name, text)

/-- All warnings about a grammar. -/
def lint (g : Grammar) : List Warning :=
  (g.unreachable.map fun name => .unreachableRule name g.start) ++
  (g.suspiciousLiterals.map fun (name, text) => .suspiciousLiteral name text) ++
  ((Category.all.filter fun c => !g.categories.contains c).map .unusedCategory)

end Grammar

end RandomSentences
