import DeviceBatch.Named

/-!
# TOML tables

The values of a TOML document. A table remembers how it came to be, because that decides what may
still be added to it: a table under a header is defined once; a table that was only passed through
on the way to another header may get its own header later; a table made by a dotted key can be
extended by dotted keys only; and a table written between braces is complete.

Arrays of tables are extended through their last row.
-/

namespace DeviceBatch.Toml

/-- How a table came to be. -/
inductive Origin where
  /-- It was written between braces. -/
  | inline
  /-- It has a header, or is the row of an array of tables. -/
  | header
  /-- It is passed through by the path of another header. -/
  | implied
  /-- It is passed through by a dotted key. -/
  | dotted
  deriving DecidableEq, Repr

/-- A value of a document. Numbers with a fraction or an exponent and points in time are known to be
well-formed and not kept. -/
inductive Value where
  | string (s : String)
  | integer (n : Int)
  | float
  | boolean (b : Bool)
  | moment
  | array (items : List Value)
  | table (origin : Origin) (entries : List (String × Value))
  /-- An array of tables made by headers, row by row. -/
  | rows (tables : List (List (String × Value)))
  deriving Repr

/-- A table: each key once. -/
abbrev Table := Named Value

namespace Table

/-- Changes the last row of an array of tables. -/
def changeLast (change : Table → Option Table) (tables : List Table) : Option Value :=
  match tables.getLast? with
  | none => none
  | some last => (change last).map fun last => .rows (tables.dropLast ++ [last])

/-- Adds a value under a dotted key, which must be new. -/
def insert : (path : List String) → Value → Table → Option Table
  | [], _, _ => none
  | [key], value, t =>
    match t.lookup key with
    | none => some (t.put key value)
    | some _ => none
  | key :: next :: path, value, t =>
    match t.lookup key with
    | none => (insert (next :: path) value []).map fun e => t.put key (.table .dotted e)
    | some (.table origin entries) =>
      if origin = .dotted ∨ origin = .implied ∧ path ≠ [] then
        (insert (next :: path) value entries).map fun e => t.put key (.table origin e)
      else none
    | some (.rows tables) =>
      if path = [] then none
      else (changeLast (insert (next :: path) value) tables).map (t.put key)
    | some _ => none

/-- Changes the table that a header names, passing through the tables on its path. -/
def within (path : List String) (change : Table → Option Table) (t : Table) : Option Table :=
  match path with
  | [] => change t
  | key :: path =>
    match t.lookup key with
    | none => (within path change []).map fun e => t.put key (.table .implied e)
    | some (.table origin entries) =>
      if origin = .inline then none
      else (within path change entries).map fun e => t.put key (.table origin e)
    | some (.rows tables) => (changeLast (within path change) tables).map (t.put key)
    | some _ => none

/-- Opens the table of a header, which has not been defined before. -/
def openTable (key : String) (t : Table) : Option Table :=
  match t.lookup key with
  | none => some (t.put key (.table .header []))
  | some (.table .implied entries) => some (t.put key (.table .header entries))
  | some _ => none

/-- Opens one more row of an array of tables. -/
def openRow (key : String) (t : Table) : Option Table :=
  match t.lookup key with
  | none => some (t.put key (.rows [[]]))
  | some (.rows tables) => some (t.put key (.rows (tables ++ [[]])))
  | some _ => none

/-- The table with the given dotted keys, each new. -/
def ofPairs (pairs : List (List String × Value)) : Option Table :=
  pairs.foldlM (fun t (path, value) => t.insert path value) []

end Table

/-! ## Documents -/

/-- What a line of a document says. -/
inductive Statement where
  | assign (path : List String) (value : Value)
  | table (path : List String)
  | row (path : List String)
  deriving Repr

namespace Statement

/-- Performs a statement on the table of a document. The path is that of the present header. -/
def apply : Statement → List String × Table → Option (List String × Table)
  | assign path value, (current, t) =>
    (t.within current (Table.insert path value)).map fun t => (current, t)
  | table path, (_, t) =>
    match path.getLast? with
    | none => none
    | some key => (t.within path.dropLast (Table.openTable key)).map fun t => (path, t)
  | row path, (_, t) =>
    match path.getLast? with
    | none => none
    | some key => (t.within path.dropLast (Table.openRow key)).map fun t => (path, t)

end Statement

/-- The table of a document. -/
def Table.ofStatements (statements : List Statement) : Option Table :=
  (statements.foldlM (fun state statement => Statement.apply statement state) ([], [])).map Prod.snd

end DeviceBatch.Toml
