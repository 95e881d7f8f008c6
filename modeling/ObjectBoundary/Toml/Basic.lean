/-!
# TOML documents

The values of a TOML document and the rules for putting a document together. A table that a header
or a dotted key only passes through can be completed later, but each table is defined once: the way
in which a table came about decides what may still be added to it.
-/

namespace ObjectBoundary

/-- How a table came about. -/
inductive TomlOrigin where
  /-- By a header of its own. -/
  | header
  /-- On the way to the table of a header. -/
  | implied
  /-- On the way to the value of a dotted key. -/
  | dotted
  deriving DecidableEq, Repr, Inhabited

inductive Toml where
  | text (value : String)
  | integer (value : Int)
  /-- A number with a fraction or an exponent, an infinity or no number at all. -/
  | float
  | bool (value : Bool)
  /-- A date, a time, or both. -/
  | moment
  | array (items : List Toml)
  /-- A table that is written as one value. -/
  | inline (entries : List (String × Toml))
  | table (origin : TomlOrigin) (entries : List (String × Toml))
  /-- The tables of a repeated header. -/
  | tables (items : List (List (String × Toml)))
  deriving Inhabited

namespace Toml

abbrev Entries := List (String × Toml)

/-- Puts a value in the place of the one with the same key, or at the end. -/
def put (key : String) (value : Toml) : Entries → Entries
  | [] => [(key, value)]
  | (other, old) :: rest =>
    if other = key then (key, value) :: rest else (other, old) :: put key value rest

def changeLast (change : Entries → Option Entries) : List Entries → Option (List Entries)
  | [] => none
  | [last] => (change last).map fun entries => [entries]
  | first :: rest => (changeLast change rest).map (first :: ·)

/-- Adds a value under a dotted key, given as the names before the last one and that one. A key is
written once, and only tables made by dotted keys take further ones. -/
def define (key : String) (value : Toml) : List String → Entries → Option Entries
  | [], entries =>
    if (entries.lookup key).isSome then none else some (entries ++ [(key, value)])
  | name :: rest, entries =>
    match entries.lookup name with
    | none => (define key value rest []).map fun inner => entries ++ [(name, .table .dotted inner)]
    | some (.table .dotted inner) =>
      (define key value rest inner).map fun inner => put name (.table .dotted inner) entries
    | some (.table .implied inner) =>
      if rest.isEmpty then none
      else (define key value rest inner).map fun inner => put name (.table .implied inner) entries
    | some (.tables items) =>
      if rest.isEmpty then none
      else (changeLast (define key value rest) items).map fun items =>
        put name (.tables items) entries
    | some _ => none

/-- Changes the table at a path of headers. A repeated header stands for its last table. -/
def under (change : Entries → Option Entries) : List String → Entries → Option Entries
  | [], entries => change entries
  | name :: rest, entries =>
    match entries.lookup name with
    | none => (under change rest []).map fun inner => entries ++ [(name, .table .implied inner)]
    | some (.table origin inner) =>
      (under change rest inner).map fun inner => put name (.table origin inner) entries
    | some (.tables items) =>
      (changeLast (under change rest) items).map fun items => put name (.tables items) entries
    | some _ => none

/-- Begins the table of a header. -/
def openTable (key : String) (entries : Entries) : Option Entries :=
  match entries.lookup key with
  | none => some (entries ++ [(key, .table .header [])])
  | some (.table .implied inner) => some (put key (.table .header inner) entries)
  | some _ => none

def openNext (key : String) (entries : Entries) : Option Entries :=
  match entries.lookup key with
  | none => some (entries ++ [(key, .tables [[]])])
  | some (.tables items) => some (put key (.tables (items ++ [[]])) entries)
  | some _ => none

end Toml

end ObjectBoundary
