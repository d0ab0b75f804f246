/-!
# TOML values and tables

A document is built up statement by statement: a header opens a table or adds one to an array of
tables, and a key with a value goes into the table opened last. What may be added to a table depends
on how it came to be, so every table carries its origin. Every operation refuses by `none` to define
anything twice.
-/

namespace Depot

/-- **How a table came to be.** -/
inductive TableOrigin where
  /-- Written between braces; nothing can be added to it. -/
  | closed
  /-- Opened by a header of its own. -/
  | header
  /-- Implied by the header of a table below it. -/
  | implied
  /-- Implied by a dotted key. -/
  | dotted
  deriving DecidableEq, Repr

/-- **A TOML value.** -/
inductive Toml where
  | string (text : String)
  | integer (value : Int)
  /-- A number with a fraction or an exponent, or one of the numbers without digits, as it is
  written. -/
  | float (text : String)
  | boolean (value : Bool)
  /-- A date, a time of day, or both, as it is written. -/
  | moment (text : String)
  | array (elements : List Toml)
  | table (origin : TableOrigin) (entries : List (String × Toml))
  /-- An array of tables, each opened by a header. -/
  | tables (elements : List (List (String × Toml)))
  deriving Inhabited

namespace Toml

/-- The entries of a table, each key once. -/
abbrev Entries : Type := List (String × Toml)

/-- Put a value in place of the one that a key has. -/
def replace (key : String) (value : Toml) (entries : Entries) : Entries :=
  entries.map fun e => if e.1 = key then (key, value) else e

/-- **Put a value under a dotted key**, given as the keys that lead to the table it goes into and
the last key. Tables that are missing on the way become dotted ones. A table that has a header
cannot be extended so, and the last table must itself be dotted. -/
def insert (key : String) (value : Toml) : (path : List String) → Entries → Option Entries
  | [], entries =>
    match entries.lookup key with
    | some _ => none
    | none => some (entries ++ [(key, value)])
  | k :: ks, entries =>
    match entries.lookup k with
    | none => (insert key value ks []).map fun es => entries ++ [(k, .table .dotted es)]
    | some (.table .dotted es) =>
      (insert key value ks es).map fun es => replace k (.table .dotted es) entries
    | some (.table .implied es) =>
      if ks = [] then none
      else (insert key value ks es).map fun es => replace k (.table .implied es) entries
    | some (.tables ts) =>
      if ks = [] then none
      else
        match ts.getLast? with
        | some es =>
          (insert key value ks es).map fun es => replace k (.tables (ts.dropLast ++ [es])) entries
        | none => none
    | some _ => none

/-- **Change the table at a path of headers.** An array of tables stands for its last table, and
tables missing on the way are implied. -/
def change (f : Entries → Option Entries) : (path : List String) → Entries → Option Entries
  | [], entries => f entries
  | k :: ks, entries =>
    match entries.lookup k with
    | none => (change f ks []).map fun es => entries ++ [(k, .table .implied es)]
    | some (.table .closed _) => none
    | some (.table origin es) =>
      (change f ks es).map fun es => replace k (.table origin es) entries
    | some (.tables ts) =>
      match ts.getLast? with
      | some es =>
        (change f ks es).map fun es => replace k (.tables (ts.dropLast ++ [es])) entries
      | none => none
    | some _ => none

/-- Open a table by its header: it must be new, or implied by the header of a table below it. -/
def openTable (key : String) (entries : Entries) : Option Entries :=
  match entries.lookup key with
  | none => some (entries ++ [(key, .table .header [])])
  | some (.table .implied es) => some (replace key (.table .header es) entries)
  | some _ => none

/-- Add an empty table to an array of tables, which begins with it if it is new. -/
def openNext (key : String) (entries : Entries) : Option Entries :=
  match entries.lookup key with
  | none => some (entries ++ [(key, .tables [[]])])
  | some (.tables ts) => some (replace key (.tables (ts ++ [[]])) entries)
  | some _ => none

/-- **A statement of a document.** A key with dots is given as what leads to the last part, and that
part. -/
inductive Statement where
  /-- A key and its value. -/
  | pair (path : List String) (key : String) (value : Toml)
  /-- The header of a table. -/
  | table (path : List String) (key : String)
  /-- The header of a further table of an array. -/
  | next (path : List String) (key : String)

/-- Carry out the statements that follow, with the table at `current` opened last. -/
def assembleFrom (current : List String) (entries : Entries) : List Statement → Option Entries
  | [] => some entries
  | .pair path key value :: rest =>
    (change (insert key value path) current entries).bind (assembleFrom current · rest)
  | .table path key :: rest =>
    (change (openTable key) path entries).bind (assembleFrom (path ++ [key]) · rest)
  | .next path key :: rest =>
    (change (openNext key) path entries).bind (assembleFrom (path ++ [key]) · rest)

/-- **The table that a document describes.** -/
def assemble (statements : List Statement) : Option Toml :=
  (assembleFrom [] [] statements).map (.table .header)

/-! ## Reading records

A record is written as a table, in which unknown keys are passed over, or as an array of its fields
in order, of which those beyond the last are passed over too. A date or time is a record as well,
one without any known field. -/

/-- **The values of the fields of a record**, in the order of `names`. -/
def fields? (names : List String) : Toml → Option (List (Option Toml))
  | .table _ entries => some (names.map fun name => entries.lookup name)
  | .array elements => some ((List.range names.length).map (elements[·]?))
  | .tables elements =>
    some ((List.range names.length).map fun i => elements[i]?.map (.table .header))
  | .moment _ => some (names.map fun _ => none)
  | _ => none

/-- The text of a string. -/
def text? : Toml → Option String
  | .string text => some text
  | _ => none

/-- The value of a boolean. -/
def bool? : Toml → Option Bool
  | .boolean value => some value
  | _ => none

/-- The elements of an array. -/
def elements? : Toml → Option (List Toml)
  | .array elements => some elements
  | .tables elements => some (elements.map (.table .header))
  | _ => none

/-- The value of a field, or `fallback` if it is not given. -/
def fieldOr {α : Type} (fallback : α) (read : Toml → Option α) : Option Toml → Option α
  | none => some fallback
  | some t => read t

end Toml

end Depot
