import SqlFilter.Compiler.Input

/-!
This module contains catalogs: tables with their schemas under one configuration, and the statements
that are made for them.
-/

namespace SqlFilter

structure CatalogTable where
  schema : Schema
  softDelete : Option Condition := none

structure Catalog where
  config : Config
  tables : Dictionary CatalogTable

inductive CatalogError where
  | compile (error : CompileError)
  | config (error : ConfigError)
  | notFound (table : String)
  | alreadyRegistered (table : String)

def CatalogError.message : CatalogError → String
  | .compile error => "Compile error: " ++ error.message
  | .config error => "Configuration error: " ++ error.message
  | .notFound table => "Schema not found: " ++ table
  | .alreadyRegistered table => "Schema already registered: " ++ table

namespace Catalog

def new (config : Config) : Except CatalogError Catalog := do
  config.check.mapError .config
  .ok ⟨config, []⟩

variable (catalog : Catalog)

def table (name : String) : Except CatalogError CatalogTable :=
  match List.lookup name catalog.tables with
  | some entry => .ok entry
  | none => .error (.notFound name)

def adapt (schema : Schema) : Schema :=
  { schema.withKeywords catalog.config.compiler.quotedKeywords with
    quote := catalog.config.dialect.quote
    quoteAll := catalog.config.dialect.quoteAll }

def register (name : String) (schema : Schema) : Except CatalogError Catalog :=
  match List.lookup name catalog.tables with
  | some _ => .error (.alreadyRegistered name)
  | none =>
    .ok { catalog with
          tables := Dictionary.insert name ⟨catalog.adapt schema, none⟩ catalog.tables }

def unregister (name : String) : Except CatalogError Catalog := do
  let _ ← catalog.table name
  .ok { catalog with tables := Dictionary.erase name catalog.tables }

def setSoftDelete (name : String) (condition : Condition) : Except CatalogError Catalog := do
  let entry ← catalog.table name
  .ok { catalog with
        tables :=
          Dictionary.insert name { entry with softDelete := some condition } catalog.tables }

def tableNames : List String :=
  (catalog.tables.map Prod.fst).mergeSort fun a b => decide (a ≤ b)

def compiler (name : String) : Except CatalogError Compiler := do
  let entry ← catalog.table name
  let compiler ← (Compiler.new catalog.config entry.schema).mapError .compile
  .ok { compiler with softDelete := entry.softDelete }

def compile (name : String) (input : WhereInput) : Except CatalogError Compiled := do
  let compiler ← catalog.compiler name
  (compiler.compile input).mapError .compile

def finish (sql : String) (compiled : Compiled) : Statement :=
  { compiled with sql := sql }.finish

def select (name : String) (input : WhereInput) (selection : Selection) :
    Except CatalogError Statement := do
  let compiler ← catalog.compiler name
  let slots : Except CompileError (Slots × Compiled) := do
    let compiled ← compiler.compile input
    let fields ← compiler.schema.fieldsText selection
    let table ← compiler.schema.identifier name
    let order ← compiler.schema.orderClause selection
    .ok (selectSlots fields table compiled.whereClause order selection.windowClause, compiled)
  let (slots, compiled) ← slots.mapError .compile
  .ok (finish (compiler.templates.assemble .select slots) compiled)

def delete (name : String) (input : WhereInput) : Except CatalogError Statement := do
  let compiler ← catalog.compiler name
  let slots : Except CompileError (Slots × Compiled) := do
    let compiled ← compiler.compile input
    let table ← compiler.schema.identifier name
    .ok ([("TABLE", table), ("WHERE", compiled.whereClause)], compiled)
  let (slots, compiled) ← slots.mapError .compile
  .ok (finish (compiler.templates.assemble .delete slots) compiled)

end Catalog

end SqlFilter
