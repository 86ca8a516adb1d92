import SqlFilter.Dialect
import SqlFilter.Dictionary
import SqlFilter.Error
import SqlFilter.Filter

/-!
This module contains the schema of a table: which columns are known and how they are declared, short
names of other tables, and how identifiers are written.
-/

namespace SqlFilter

structure Schema where
  table : Option String := none
  /-- declared types by name; a name may be qualified by a table -/
  columns : Dictionary String := []
  /-- tables by their short names -/
  aliases : Dictionary String := []
  quote : QuoteStyle := .backtick
  quoteAll : Bool := false
  /-- the identifiers that are always quoted, in lower case -/
  keywords : List String := []

namespace Schema

variable (schema : Schema)

def withKeywords (keywords : List String) : Schema :=
  { schema with keywords := keywords.map Text.lowerAscii }

def isQuoted (segment : String) : Bool :=
  schema.quoteAll || schema.keywords.contains (Text.lowerAscii segment)

def segmentText (segment : String) : String :=
  if schema.isQuoted segment then
    let q := String.ofList [schema.quote.char]
    q ++ segment ++ q
  else segment

def identifierText (name : String) : String :=
  ".".intercalate ((Identifier.segments name).map schema.segmentText)

def identifier (name : String) : Except CompileError String := do
  checkField name
  .ok (schema.identifierText name)

def splitLastDot (name : String) : Option (String × String) :=
  let back := name.toList.reverse
  match back.dropWhile (· != '.') with
  | [] => none
  | _ :: front =>
    some (String.ofList front.reverse, String.ofList (back.takeWhile (· != '.')).reverse)

def beforeFirstDot (name : String) : Option String :=
  if name.toList.contains '.' then some (String.ofList (name.toList.takeWhile (· != '.')))
  else none

/-- A short name stands for its table, and a name without table is one of the schema's own. -/
def qualify (name : String) : Option String × String :=
  match splitLastDot name with
  | some (table, column) => (some ((List.lookup table schema.aliases).getD table), column)
  | none => (schema.table, name)

def declaredType? (name : String) : Option String :=
  let (table, column) := schema.qualify name
  let qualified := table.bind fun table => List.lookup (table ++ "." ++ column) schema.columns
  match qualified with
  | some declared => some declared
  | none => List.lookup column schema.columns

def isKnown (name : String) : Bool :=
  (List.lookup name schema.columns).isSome

def isAllowed (name : String) : Bool :=
  schema.isKnown name ||
    match beforeFirstDot name with
    | some qualifier => (List.lookup qualifier schema.aliases).isSome
    | none => false

def fieldsText (selection : Selection) : Except CompileError String :=
  if selection.fields.isEmpty then .ok "*"
  else do
    let fields ← selection.fields.mapM schema.identifier
    .ok (", ".intercalate fields)

def orderText (order : String × SortOrder) : Except CompileError String := do
  let field ← schema.identifier order.1
  .ok (field ++ " " ++ order.2.sql)

def orderClause (selection : Selection) : Except CompileError String := do
  let orders ← selection.orderBy.mapM schema.orderText
  .ok (if orders.isEmpty then "" else " ORDER BY " ++ ", ".intercalate orders)

end Schema

def Selection.windowClause (selection : Selection) : String :=
  if selection.window.isEmpty then "" else " " ++ selection.window.sql

end SqlFilter
