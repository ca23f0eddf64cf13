import ClassLint.Document.Toml.Scalar

/-!
# TOML values and tables

A table comes about in one of four ways, and the way decides what may still be
added to it.  A table under its own header is extended by assignments below the
header only, one that is merely passed through on the way to another header may
get its own header later, one made by a dotted key is extended by dotted keys,
and an inline table is complete.
-/

namespace ClassLint

namespace Toml

/-- How a table came about. -/
inductive TableKind where
  /-- By a header of its own. -/
  | headed
  /-- On the way to another header. -/
  | passed
  /-- By a dotted key. -/
  | dotted
  /-- Between braces. -/
  | inline
  deriving DecidableEq, Repr

/-- The value of a document or of a part of it.  The entries of a table are in
no particular order. -/
inductive Value where
  | scalar (scalar : Scalar)
  | text (content : String)
  | array (items : List Value)
  /-- Tables under a repeated header, latest first. -/
  | tables (items : List Value)
  | table (kind : TableKind) (entries : List (String × Value))

/-- The entries of a table. -/
abbrev Entries := List (String × Value)

namespace Entries

/-- Give a key that has a value another value. -/
def replace (key : String) (value : Value) (entries : Entries) : Entries :=
  entries.map fun entry => if entry.1 = key then (key, value) else entry

/-- Change the table at the end of a path.  A table that is missing on the way
is made: by a dotted key, or on the way to a header.  A dotted key does not go
through a table with a header of its own, and nothing goes through an inline
table. -/
def changeAt (byDottedKey : Bool) (change : TableKind → Entries → Option (TableKind × Entries)) :
    List String → TableKind → Entries → Option (TableKind × Entries)
  | [], kind, entries => change kind entries
  | key :: path, kind, entries =>
      match List.lookup key entries with
      | none => do
          let made := if byDottedKey then TableKind.dotted else TableKind.passed
          let (innerKind, inner) ← changeAt byDottedKey change path made []
          return (kind, (key, .table innerKind inner) :: entries)
      | some (.table innerKind inner) =>
          if innerKind = .inline ∨ (byDottedKey ∧ innerKind = .headed) then none
          else do
            let (changedKind, changed) ← changeAt byDottedKey change path innerKind inner
            return (kind, replace key (.table changedKind changed) entries)
      | some (.tables (.table innerKind inner :: earlier)) => do
          let (changedKind, changed) ← changeAt byDottedKey change path innerKind inner
          return (kind, replace key (.tables (.table changedKind changed :: earlier)) entries)
      | some _ => none

/-- Give a new key a value.  Behind a dotted key, the table must have been made
by one; otherwise it must not. -/
def insert? (byDottedKey : Bool) (key : String) (value : Value) (kind : TableKind)
    (entries : Entries) : Option (TableKind × Entries) :=
  if (kind = .dotted ↔ byDottedKey) ∧ (List.lookup key entries).isNone then
    some (kind, (key, value) :: entries)
  else none

/-- Assign a value to a path of keys inside a table. -/
def assign? (path : List String) (value : Value) (kind : TableKind) (entries : Entries) :
    Option (TableKind × Entries) :=
  match path.getLast? with
  | some key =>
      let outer := path.dropLast
      changeAt true (insert? (outer ≠ []) key value) outer kind entries
  | none => none

/-- Open the table of a header inside its parent. -/
def openTable? (key : String) (kind : TableKind) (entries : Entries) :
    Option (TableKind × Entries) :=
  match List.lookup key entries with
  | none => some (kind, (key, .table .headed []) :: entries)
  | some (.table .passed inner) => some (kind, replace key (.table .headed inner) entries)
  | some _ => none

/-- Open one more table of a repeated header inside its parent. -/
def openNextTable? (key : String) (kind : TableKind) (entries : Entries) :
    Option (TableKind × Entries) :=
  match List.lookup key entries with
  | none => some (kind, (key, .tables [.table .headed []]) :: entries)
  | some (.tables items) =>
      some (kind, replace key (.tables (.table .headed [] :: items)) entries)
  | some _ => none

end Entries

/-- One line of a document. -/
inductive Line where
  | assignment (path : List String) (value : Value)
  | header (path : List String)
  | repeatedHeader (path : List String)

/-- A document as far as it has been read: the path of the table that is open,
and all entries. -/
structure Reading where
  header : List String
  entries : Entries

namespace Reading

/-- Open a table at the end of a path. -/
def openAt? (reading : Reading) (path : List String)
    (openTable : String → TableKind → Entries → Option (TableKind × Entries)) :
    Option Reading :=
  match path.getLast? with
  | some key => do
      let (_, entries) ←
        Entries.changeAt false (openTable key) path.dropLast .headed reading.entries
      return ⟨path, entries⟩
  | none => none

/-- Take one more line. -/
def step? (reading : Reading) : Line → Option Reading
  | .assignment path value => do
      let (_, entries) ←
        Entries.changeAt false (Entries.assign? path value) reading.header .headed
          reading.entries
      return { reading with entries := entries }
  | .header path => reading.openAt? path Entries.openTable?
  | .repeatedHeader path => reading.openAt? path Entries.openNextTable?

end Reading

/-- The table that the lines of a document describe. -/
def ofLines? (lines : List Line) : Option Value :=
  (lines.foldlM Reading.step? ⟨[], []⟩).map fun reading => .table .headed reading.entries

end Toml

end ClassLint
