import SqlFilter.Dictionary

/-!
This module contains TOML documents, and how headers and dotted keys build the tables of one.
-/

namespace SqlFilter

inductive Toml where
  | string (s : String)
  | integer (n : Int)
  | float
  | oversized
  | boolean (b : Bool)
  | dateTime (text : String)
  | array (items : List Toml)
  | table (entries : List (String × Toml))

namespace Toml

mutual

def fits : Toml → Bool
  | .oversized => false
  | .array items => allFit items
  | .table entries => entriesFit entries
  | _ => true

def allFit : List Toml → Bool
  | [] => true
  | v :: rest => v.fits && allFit rest

def entriesFit : List (String × Toml) → Bool
  | [] => true
  | (_, v) :: rest => v.fits && entriesFit rest

end

/-- How a table came into being, which decides what may still be added to it. -/
inductive TableOrigin where
  /-- named as a part of a longer header -/
  | implied
  | header
  /-- named as a part of a dotted key -/
  | dotted
deriving DecidableEq

/-- A part of a document that is being built. Values cannot be added to, nor can tables that are
written as values. -/
inductive Draft where
  | value (v : Toml)
  | table (origin : TableOrigin) (entries : List (String × Draft))
  /-- an array of tables, the last one first -/
  | tables (last : List (String × Draft)) (others : List (List (String × Draft)))

abbrev Drafts := List (String × Draft)

namespace Draft

mutual

def toml : Draft → Toml
  | .value v => v
  | .table _ entries => .table (tomls entries)
  | .tables last others => .array ((elements others).reverse ++ [.table (tomls last)])

def tomls : List (String × Draft) → List (String × Toml)
  | [] => []
  | (key, draft) :: rest => (key, draft.toml) :: tomls rest

def elements : List (List (String × Draft)) → List Toml
  | [] => []
  | entries :: rest => .table (tomls entries) :: elements rest

end

end Draft

namespace Drafts

/-- Changes the entries of the table that a header or a part of it names, or those of the last table
of an array. A table that is not there yet is implied. -/
def change (key : String) (f : Drafts → Option Drafts) (entries : Drafts) : Option Drafts :=
  match List.lookup key entries with
  | none => (f []).map fun inner => Dictionary.insert key (.table .implied inner) entries
  | some (.table origin inner) =>
    (f inner).map fun inner => Dictionary.insert key (.table origin inner) entries
  | some (.tables last others) =>
    (f last).map fun last => Dictionary.insert key (.tables last others) entries
  | some (.value _) => none

def changeAt : List String → (Drafts → Option Drafts) → Drafts → Option Drafts
  | [], f, entries => f entries
  | key :: path, f, entries => change key (changeAt path f) entries

def openTable (key : String) (entries : Drafts) : Option Drafts :=
  match List.lookup key entries with
  | none => some (Dictionary.insert key (.table .header []) entries)
  | some (.table .implied inner) => some (Dictionary.insert key (.table .header inner) entries)
  | some _ => none

def openElement (key : String) (entries : Drafts) : Option Drafts :=
  match List.lookup key entries with
  | none => some (Dictionary.insert key (.tables [] []) entries)
  | some (.tables last others) =>
    some (Dictionary.insert key (.tables [] (last :: others)) entries)
  | some _ => none

/-- Sets the value of a dotted key, which must not be set yet. What the key adds to is a table that
dotted keys have named. On the way to it a key may also pass through a table that was only implied,
and through the last table of an array. -/
def set : List String → Toml → Drafts → Option Drafts
  | [], _, _ => none
  | [key], v, entries =>
    match List.lookup key entries with
    | none => some (Dictionary.insert key (.value v) entries)
    | some _ => none
  | key :: path, v, entries =>
    match List.lookup key entries with
    | none => (set path v []).map fun inner => Dictionary.insert key (.table .dotted inner) entries
    | some (.table .dotted inner) =>
      (set path v inner).map fun inner => Dictionary.insert key (.table .dotted inner) entries
    | some (.table .implied inner) =>
      if path.length = 1 then none
      else
        (set path v inner).map fun inner => Dictionary.insert key (.table .implied inner) entries
    | some (.tables last others) =>
      if path.length = 1 then none
      else (set path v last).map fun last => Dictionary.insert key (.tables last others) entries
    | some _ => none

end Drafts

end Toml

end SqlFilter
