/-!
# TOML values and tables

A document is a table.  A table remembers how it came to be, because that decides which later lines
may still add to it.  Several tables under one name that have headers of their own make up
`tables`, of which only the last one grows.  Real numbers and moments stay the texts that were read,
because nothing here computes with them.

A line of a document adds an entry to the table of the header above it, or opens a table by a header.
Each name may be given a value once only.  A dotted key makes the tables on its way and may add to
tables that were made so, but not to one with a header of its own or between braces.  A header makes
the tables on its way too.  It may open a table that until then was nothing but a step on the way of
other headers.  With doubled brackets it adds one more table to those of its name.
-/

namespace Wiring

inductive TableOrigin where
  /-- By a header of its own; the document counts as such a table. -/
  | header
  /-- As a step on the way to the table of a header. -/
  | step
  /-- As a step of a dotted key. -/
  | dotted
  /-- Between braces. -/
  | braces
  deriving DecidableEq, Repr

inductive Toml where
  | string (s : String)
  | integer (n : Int)
  | real (text : String)
  | bool (b : Bool)
  | moment (text : String)
  | array (items : List Toml)
  | table (origin : TableOrigin) (entries : List (String × Toml))
  | tables (before : List (List (String × Toml))) (last : List (String × Toml))
  deriving Inhabited

namespace Toml

/-- The entries of a table, in the order of their names' first use. -/
abbrev Entries := List (String × Toml)

/-- How many arrays and braces may be open at a time, and how many steps a key may have. -/
def maxDepth : Nat :=
  79

/-! ## Building tables -/

namespace Entries

/-- The entries with what `f` makes of the value of a name. -/
def alter? (key : String) (f : Option Toml → Option Toml) : Entries → Option Entries
  | [] => do return [(key, ← f none)]
  | e :: rest =>
    if e.1 = key then do return (key, ← f (some e.2)) :: rest
    else do return e :: (← alter? key f rest)

/-- The entries with one more at the end of a dotted key. -/
def insert? (value : Toml) : (way : List String) → (key : String) → Entries → Option Entries
  | [], key, es =>
    es.alter? key fun
      | none => some value
      | some _ => none
  | name :: way, key, es =>
    es.alter? name fun
      | none => do return .table .dotted (← insert? value way key [])
      | some (.table .dotted sub) => do return .table .dotted (← insert? value way key sub)
      | some (.table .step sub) =>
        if way.isEmpty then none else do return .table .step (← insert? value way key sub)
      | some (.tables before last) =>
        if way.isEmpty then none else do return .tables before (← insert? value way key last)
      | some _ => none

/-- The entries with a change of the table at the end of the way of a header. -/
def within? (f : Entries → Option Entries) : (way : List String) → Entries → Option Entries
  | [], es => f es
  | name :: way, es =>
    es.alter? name fun
      | none => do return .table .step (← within? f way [])
      | some (.table origin sub) =>
        if origin = .braces then none else do return .table origin (← within? f way sub)
      | some (.tables before last) => do return .tables before (← within? f way last)
      | some _ => none

/-- The entries with the table that a header opens. -/
def open? (key : String) (es : Entries) : Option Entries :=
  es.alter? key fun
    | none => some (.table .header [])
    | some (.table .step sub) => some (.table .header sub)
    | some _ => none

/-- The entries with one more table of a name. -/
def openNext? (key : String) (es : Entries) : Option Entries :=
  es.alter? key fun
    | none => some (.tables [] [])
    | some (.tables before last) => some (.tables (before ++ [last]) [])
    | some _ => none

end Entries

end Toml

end Wiring
