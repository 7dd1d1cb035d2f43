import RandomSentences.Category
import RandomSentences.Text.Blank

/-!
# Symbols and the tokens they are written as

A rule's alternative is written as tokens between blanks. A token in braces asks for a word of
a category; any other token is a reference if it is the name of a rule, and a literal if not.
`Symbol.ofToken` is this reading, with the rule names as a parameter, and `Symbol.text` writes
a symbol as its token again.

A token is *braced* when it starts with an opening or ends with a closing brace. A braced token
has to be a category's placeholder; `tokenFault?` says what is wrong with one that is not.
-/

namespace RandomSentences

/-- One symbol of an alternative. -/
inductive Symbol where
  /-- Stands for a word drawn from a category. -/
  | terminal (category : Category)
  /-- Stands for an alternative of the rule with this name. -/
  | nonterminal (name : String)
  /-- Stands for itself. -/
  | literal (text : String)
  deriving DecidableEq, Repr

/-- What is wrong with a braced token. -/
inductive TokenFault where
  /-- Its braces enclose a name that is no category's key. -/
  | unknownCategory (name : String)
  /-- It is not one brace-free, non-empty name between two braces. -/
  | malformed
  deriving DecidableEq, Repr

/-- Whether a token starts with an opening brace or ends with a closing one. -/
def isBraced (token : List Char) : Bool :=
  token.head? == some '{' || token.getLast? == some '}'

/-- The name between the two braces of a token, if it is not empty and holds no brace. -/
def inner? : List Char → Option (List Char)
  | '{' :: rest =>
    if rest.getLast? == some '}' && !rest.dropLast.isEmpty &&
        rest.dropLast.all fun c => c != '{' && c != '}' then
      some rest.dropLast
    else
      none
  | _ => none

/-- The category that a braced token asks for. -/
def bracedCategory (token : String) : Except TokenFault Category :=
  match inner? token.toList with
  | none => .error .malformed
  | some name =>
    match Category.ofKey? (String.ofList name) with
    | none => .error (.unknownCategory (String.ofList name))
    | some category => .ok category

/-- The fault of a token, if it is braced and no placeholder. -/
def tokenFault? (token : String) : Option TokenFault :=
  if isBraced token.toList then
    match bracedCategory token with
    | .error fault => some fault
    | .ok _ => none
  else
    none

namespace Symbol

/-- The token that a symbol is written as. -/
def text : Symbol → String
  | terminal category => category.placeholder
  | nonterminal name => name
  | literal text => text

/-- The rule that a symbol refers to. -/
def reference? : Symbol → Option String
  | nonterminal name => some name
  | _ => none

/-- The category that a symbol draws from. -/
def category? : Symbol → Option Category
  | terminal category => some category
  | _ => none

/-- The text of a literal. -/
def literal? : Symbol → Option String
  | literal text => some text
  | _ => none

/-- The symbol that a token stands for, given which names have a rule. A token with a fault
counts as a literal here; `tokenFault?` is asked first wherever faults matter. -/
def ofToken (isRule : String → Bool) (token : String) : Symbol :=
  if isBraced token.toList then
    match bracedCategory token with
    | .ok category => terminal category
    | .error _ => literal token
  else if isRule token then
    nonterminal token
  else
    literal token

theorem reference?_eq_some_iff {s : Symbol} {name : String} :
    s.reference? = some name ↔ s = nonterminal name := by
  cases s <;> simp [reference?]

theorem literal?_eq_some_iff {s : Symbol} {content : String} :
    s.literal? = some content ↔ s = literal content := by
  cases s <;> simp [literal?]

end Symbol

/-! ### Reading tokens -/

theorem bracedCategory_placeholder (c : Category) : bracedCategory c.placeholder = .ok c := by
  cases c <;> rfl

theorem isBraced_placeholder (c : Category) : isBraced c.placeholder.toList = true := by
  cases c <;> decide

/-- A placeholder is read as its category, whatever the rules are called. -/
theorem ofToken_placeholder (isRule : String → Bool) (c : Category) :
    Symbol.ofToken isRule c.placeholder = .terminal c := by
  simp [Symbol.ofToken, isBraced_placeholder, bracedCategory_placeholder]

theorem tokenFault?_placeholder (c : Category) : tokenFault? c.placeholder = none := by
  simp [tokenFault?, isBraced_placeholder, bracedCategory_placeholder]

/-- A braced token without a fault is a placeholder. -/
theorem inner?_eq_some {token name : List Char} (h : inner? token = some name) :
    token = '{' :: name ++ ['}'] := by
  unfold inner? at h
  split at h
  · rename_i rest
    split at h
    · rename_i hcond
      simp only [Bool.and_eq_true, beq_iff_eq] at hcond
      simp only [Option.some.injEq] at h
      have hne : rest ≠ [] := by
        rintro rfl
        simp at hcond
      have hlast : rest.getLast hne = '}' := by
        have := hcond.1.1
        rw [List.getLast?_eq_some_getLast hne] at this
        simpa using this
      have := List.dropLast_concat_getLast hne
      rw [hlast, h] at this
      simp [← this]
    · simp at h
  · simp at h

theorem eq_placeholder_of_bracedCategory {token : String} {c : Category}
    (h : bracedCategory token = .ok c) : token = c.placeholder := by
  unfold bracedCategory at h
  split at h
  · simp at h
  · rename_i name hname
    split at h
    · simp at h
    · rename_i category hcat
      simp only [Except.ok.injEq] at h
      subst h
      have hkey : name = category.key.toList := by
        have := congrArg String.toList (Category.ofKey?_eq_some_iff.1 hcat)
        simpa using this
      have htok : token.toList = '{' :: name ++ ['}'] := inner?_eq_some hname
      rw [Category.placeholder, ← hkey, ← htok, String.ofList_toList]

/-- A token is written by the symbol that it is read as. -/
theorem text_ofToken (isRule : String → Bool) (token : String) :
    (Symbol.ofToken isRule token).text = token := by
  unfold Symbol.ofToken
  split
  · split
    · rename_i c hc
      exact (eq_placeholder_of_bracedCategory hc).symm
    · rfl
  · split <;> rfl

/-- Only a token that is a rule's name is read as a reference. -/
theorem ofToken_eq_nonterminal_iff {isRule : String → Bool} {token name : String} :
    Symbol.ofToken isRule token = .nonterminal name ↔
      token = name ∧ isBraced token.toList = false ∧ isRule token = true := by
  unfold Symbol.ofToken
  cases hb : isBraced token.toList
  · cases hr : isRule token <;> simp
  · cases bracedCategory token <;> simp

end RandomSentences
