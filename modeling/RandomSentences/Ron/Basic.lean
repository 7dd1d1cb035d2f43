/-!
# RON values

RON is an object notation with named records. A value keeps what its text says: numbers as they
are written, the entries of a map in their order with repeated keys, and the name in front of
the parentheses of a record or a tuple, if there is one. `Ron.quote` writes a text as a string
of the notation.
-/

namespace RandomSentences

/-- A value of the object notation. -/
inductive Ron where
  | bool (value : Bool)
  | number (literal : List Char)
  | char (c : Char)
  | string (text : String)
  | none
  | some (value : Ron)
  /-- An empty pair of parentheses, or a name by itself. -/
  | unit (name : Option String)
  | list (items : List Ron)
  | map (entries : List (Ron × Ron))
  | tuple (name : Option String) (items : List Ron)
  | record (name : Option String) (fields : List (String × Ron))
  deriving Repr

namespace Ron

/-- How a character is written within a string: only the quote and the backslash need an
escape. -/
def escape (c : Char) : List Char :=
  if c = '\x22' ∨ c = '\x5c' then ['\x5c', c] else [c]

/-- A string of the notation. -/
def quote (text : String) : List Char :=
  '\x22' :: text.toList.flatMap escape ++ ['\x22']

/-- The text of a string. -/
def text? : Ron → Option String
  | string text => Option.some text
  | _ => Option.none

/-- The items of a list. -/
def items? : Ron → Option (List Ron)
  | list items => Option.some items
  | _ => Option.none

/-- The entries of a map. -/
def entries? : Ron → Option (List (Ron × Ron))
  | map entries => Option.some entries
  | _ => Option.none

end Ron

end RandomSentences
