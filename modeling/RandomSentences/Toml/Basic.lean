import RandomSentences.Decimal.Binary64

/-!
# TOML documents

A document is a table of keys and values. A table remembers how it came to be, since that
decides what may still be added to it: an inline table is complete, a table with a header of
its own may not get a second one, a table that only occurs on the way to another one may still
get a header, and a table made by a dotted key may be extended by dotted keys only.

`TomlTable.alter` changes the table at a path, making the tables on the way if need be, and is
what all additions to a document go through.
-/

namespace RandomSentences

/-- How a table came to be. -/
inductive TableOrigin where
  | inline
  | header
  | implied
  | dotted
  deriving DecidableEq, Repr

/-- A value of a document. -/
inductive Toml where
  | string (text : String)
  | integer (n : Int)
  | float (x : Decimal.Binary64)
  | bool (value : Bool)
  /-- A date, a time, or both. -/
  | date
  | array (items : List Toml)
  | table (origin : TableOrigin) (entries : List (String × Toml))
  /-- The tables under headers in double brackets. -/
  | tables (elements : List (List (String × Toml)))
  deriving Repr

/-- The keys and values of a table. -/
abbrev TomlEntries := List (String × Toml)

namespace TomlEntries

/-- Puts a value in place of the value of a key, or at the end. -/
def put (key : String) (value : Toml) : TomlEntries → TomlEntries
  | [] => [(key, value)]
  | (other, old) :: entries =>
    if other = key then (key, value) :: entries else (other, old) :: put key value entries

/-- Changes the entries of the table at a path. A path of a header may lead through any table
but an inline one, and through the last of several tables under one key. A path of a dotted key
may not lead through tables that have headers. Tables that are not there are made. -/
def alter (dotted : Bool) (change : TableOrigin → TomlEntries → Option TomlEntries) :
    List String → TableOrigin → TomlEntries → Option TomlEntries
  | [], origin, entries => change origin entries
  | key :: path, _, entries =>
    match entries.lookup key with
    | none => do
      let origin := if dotted then .dotted else .implied
      return put key (.table origin (← alter dotted change path origin [])) entries
    | some (.table origin inner) =>
      if origin = .inline ∨ (dotted ∧ origin = .header) then
        none
      else do
        return put key (.table origin (← alter dotted change path origin inner)) entries
    | some (.tables elements) =>
      match elements.getLast? with
      | none => none
      | some last => do
        let last ← alter dotted change path .header last
        return put key (.tables (elements.dropLast ++ [last])) entries
    | some _ => none

/-- Adds a value under a new key. A dotted key ends in a table made by dotted keys, and another
key does not. -/
def add (path : List String) (key : String) (value : Toml) (origin : TableOrigin)
    (entries : TomlEntries) : Option TomlEntries :=
  alter true
    (fun origin entries =>
      if (origin = .dotted) = (path = []) ∨ (entries.lookup key).isSome then none
      else some (entries ++ [(key, value)]))
    path origin entries

/-- Adds a table for a header, or gives a header to a table that was only implied. -/
def addHeader (key : String) (_ : TableOrigin) (entries : TomlEntries) : Option TomlEntries :=
  match entries.lookup key with
  | none => some (entries ++ [(key, .table .header [])])
  | some (.table .implied inner) => some (put key (.table .header inner) entries)
  | some _ => none

/-- Adds one more table under a header in double brackets. -/
def addElement (key : String) (_ : TableOrigin) (entries : TomlEntries) : Option TomlEntries :=
  match entries.lookup key with
  | none => some (entries ++ [(key, .tables [[]])])
  | some (.tables elements) => some (put key (.tables (elements ++ [[]])) entries)
  | some _ => none

end TomlEntries

end RandomSentences
