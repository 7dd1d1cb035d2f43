import RandomSentences.Json.Basic

/-!
# Records in JSON

A record with named fields is given as an object or as an array. In an object the fields come
in any order, each at most once, and members with other keys are passed over. In an array they
come in the order of the record, and there are no further items. `Json.fields?` finds the
fields of a record in either form.

`Json.settle?` turns a value into the one that a program would hold in memory: keys and strings
have to be texts, numbers have to be in range, the nesting is limited, and of several members
with one key the last remains.
-/

namespace RandomSentences.Json

/-- The values of a record's fields, where given. -/
def fields? (names : List String) : Json → Option (List (Option Json))
  | object members =>
    let keys := members.map Prod.fst
    if keys.all Option.isSome && names.all fun name => keys.count (some name) ≤ 1 then
      some (names.map fun name => members.lookup (some name))
    else
      none
  | array items =>
    if items.length ≤ names.length then
      some (names.zipIdx.map fun (_, i) => items[i]?)
    else
      none
  | _ => none

mutual

/-- How deep arrays and objects are nested. -/
def depth : Json → Nat
  | array items => depthOfItems items + 1
  | object members => depthOfMembers members + 1
  | _ => 0

/-- The greatest depth of some values. -/
def depthOfItems : List Json → Nat
  | [] => 0
  | item :: items => max (depth item) (depthOfItems items)

/-- The greatest depth of the values of some members. -/
def depthOfMembers : List (Option String × Json) → Nat
  | [] => 0
  | (_, value) :: members => max (depth value) (depthOfMembers members)

end

/-- How deep a value held in memory may be nested. -/
def maxDepth : Nat := 127

/-- The members of which no later one has the same key. -/
def lastMembers : List (Option String × Json) → List (Option String × Json)
  | [] => []
  | member :: members =>
    if (members.map Prod.fst).contains member.1 then lastMembers members
    else member :: lastMembers members

mutual

/-- A value with the last member of each key, if its strings and numbers can be held. -/
def hold? : Json → Option Json
  | null => some null
  | bool value => some (bool value)
  | number literal => literal.value?.map fun _ => number literal
  | string text => text.map fun text => string (some text)
  | array items => (holdItems? items).map array
  | object members => (holdMembers? members).map fun members => object (lastMembers members)

/-- The items of an array, held. -/
def holdItems? : List Json → Option (List Json)
  | [] => some []
  | item :: items => do
    let item ← hold? item
    let items ← holdItems? items
    return item :: items

/-- The members of an object, held. -/
def holdMembers? : List (Option String × Json) → Option (List (Option String × Json))
  | [] => some []
  | (key, value) :: members => do
    let key ← key
    let value ← hold? value
    let members ← holdMembers? members
    return (some key, value) :: members

end

/-- The value that a program holds in memory. -/
def settle? (value : Json) : Option Json :=
  if value.depth ≤ maxDepth then hold? value else none

/-- The text of a string. -/
def text? : Json → Option String
  | string text => text
  | _ => none

/-- The integer that a number stands for. -/
def integer? : Json → Option Int
  | number literal => literal.integer?
  | _ => none

/-- The values of an array. -/
def items? : Json → Option (List Json)
  | array items => some items
  | _ => none

/-- A category: its key, or an object that has the key as its only key, with a null value. -/
def name? : Json → Option String
  | string text => text
  | object [(key, null)] => key
  | _ => none

end RandomSentences.Json
