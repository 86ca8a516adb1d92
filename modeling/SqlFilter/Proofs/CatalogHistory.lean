import Mathlib.Data.List.Induction
import Mathlib.Data.List.Nodup
import SqlFilter.Proofs.WholeStatement

/-!
This module contains sessions: calls on a catalog that register tables, remove them and give them
conditions. What a catalog does with a table after a session is decided by the last registration of
this table that succeeded and the last condition that was set behind it. Calls for other tables, and
calls that fail, leave it as it is.
-/

namespace SqlFilter

namespace Dictionary

variable {α : Type}

theorem isSome_lookup (d : Dictionary α) (key : String) :
    (List.lookup key d).isSome = true ↔ key ∈ d.map Prod.fst := by
  induction d with
  | nil => simp
  | cons entry rest ih => grind [lookup_cons]

theorem keys_insert (d : Dictionary α) (key : String) (value : α) :
    (insert key value d).map Prod.fst =
      if key ∈ d.map Prod.fst then d.map Prod.fst else d.map Prod.fst ++ [key] := by
  induction d with
  | nil => rfl
  | cons entry rest ih => grind [insert]

theorem nodup_insert {d : Dictionary α} (h : (d.map Prod.fst).Nodup) (key : String) (value : α) :
    ((insert key value d).map Prod.fst).Nodup := by
  rw [keys_insert]
  split
  . exact h
  . next hkey =>
    rw [List.nodup_append_comm, List.singleton_append]
    exact h.cons hkey

theorem nodup_erase {d : Dictionary α} (h : (d.map Prod.fst).Nodup) (key : String) :
    ((erase key d).map Prod.fst).Nodup :=
  h.sublist (List.filter_sublist.map _)

theorem erase_of_lookup_eq_none {d : Dictionary α} {key : String}
    (h : List.lookup key d = none) : erase key d = d := by
  apply List.filter_eq_self.2
  intro entry hm
  have hkey : key ∉ d.map Prod.fst := by simp [← isSome_lookup, h]
  have hne : entry.1 ≠ key := fun he => hkey (he ▸ List.mem_map_of_mem hm)
  exact decide_eq_true hne

end Dictionary

namespace Catalog

inductive Call where
  | register (table : String) (schema : Schema)
  | unregister (table : String)
  | setSoftDelete (table : String) (condition : Condition)

def call (catalog : Catalog) : Call → Except CatalogError Catalog
  | .register table schema => catalog.register table schema
  | .unregister table => catalog.unregister table
  | .setSoftDelete table condition => catalog.setSoftDelete table condition

def perform (catalog : Catalog) (call : Call) : Catalog :=
  (catalog.call call).toOption.getD catalog

def after (catalog : Catalog) (calls : List Call) : Catalog :=
  calls.foldl perform catalog

namespace Call

def table : Call → String
  | .register table _ | .unregister table | .setSoftDelete table _ => table

def IsRefused (names : List String) : Call → Prop
  | .register table _ => table ∈ names
  | .unregister table | .setSoftDelete table _ => table ∉ names

def error : Call → CatalogError
  | .register table _ => .alreadyRegistered table
  | .unregister table | .setSoftDelete table _ => .notFound table

def change (adapt : Schema → Schema) : Call → Option CatalogTable → Option CatalogTable
  | .register _ schema, entry => entry.or (some ⟨adapt schema, none⟩)
  | .unregister _, _ => none
  | .setSoftDelete _ condition, entry =>
    entry.map fun entry => { entry with softDelete := some condition }

def condition? (name : String) : Call → Option Condition
  | .setSoftDelete table condition => if table = name then some condition else none
  | .register .. | .unregister _ => none

theorem change_eq_some_iff {adapt : Schema → Schema} {call : Call} {name : String}
    {found : Option CatalogTable} {entry : CatalogTable} :
    (if name = call.table then call.change adapt found else found) = some entry ↔
      (∃ schema, call = .register name schema ∧ found = none ∧ entry = ⟨adapt schema, none⟩) ∨
      ∃ last, found = some last ∧ call ≠ .unregister name ∧
        entry = ⟨last.schema, (call.condition? name).or last.softDelete⟩ := by
  by_cases h : name = call.table
  . subst h
    cases call <;> cases found <;> simp [change, table, condition?, eq_comm]
  . rw [if_neg h]
    have hr (schema : Schema) : call ≠ .register name schema := by
      rintro rfl
      exact h rfl
    have hu : call ≠ .unregister name := by
      rintro rfl
      exact h rfl
    have hc : call.condition? name = none := by
      cases call <;> first | rfl | exact if_neg (Ne.symm h)
    simp [hr, hu, hc]

structure Changes (call : Call) (catalog next : Catalog) : Prop where
  config_eq : next.config = catalog.config
  lookup_eq : ∀ name, List.lookup name next.tables =
    if name = call.table then call.change catalog.adapt (List.lookup name catalog.tables)
    else List.lookup name catalog.tables
  nodup : (catalog.tables.map Prod.fst).Nodup → (next.tables.map Prod.fst).Nodup

end Call

section Step

variable (catalog : Catalog)

theorem mem_tableNames {name : String} :
    name ∈ catalog.tableNames ↔ (List.lookup name catalog.tables).isSome = true := by
  rw [tableNames, List.mem_mergeSort, Dictionary.isSome_lookup]

theorem not_mem_tableNames {name : String} :
    name ∉ catalog.tableNames ↔ List.lookup name catalog.tables = none := by
  rw [mem_tableNames, Option.not_isSome_iff_eq_none]

theorem exists_lookup_of_mem {name : String} (h : name ∈ catalog.tableNames) :
    ∃ entry, List.lookup name catalog.tables = some entry :=
  Option.isSome_iff_exists.1 (catalog.mem_tableNames.1 h)

theorem call_of_isRefused {call : Call} (h : call.IsRefused catalog.tableNames) :
    catalog.call call = .error call.error := by
  cases call with
  | register name schema =>
    obtain ⟨entry, he⟩ := catalog.exists_lookup_of_mem h
    simp only [Catalog.call, register, he, Call.error]
  | unregister name =>
    simp only [Catalog.call, unregister, table, catalog.not_mem_tableNames.1 h]
    rfl
  | setSoftDelete name condition =>
    simp only [Catalog.call, setSoftDelete, table, catalog.not_mem_tableNames.1 h]
    rfl

theorem call_of_not_isRefused {call : Call} (h : ¬call.IsRefused catalog.tableNames) :
    ∃ next, catalog.call call = .ok next ∧ call.Changes catalog next := by
  cases call with
  | register name schema =>
    have he := catalog.not_mem_tableNames.1 h
    refine ⟨{ catalog with tables := Dictionary.insert name ⟨catalog.adapt schema, none⟩ _ },
      by simp only [Catalog.call, register, he], rfl, ?_, fun h => Dictionary.nodup_insert h _ _⟩
    intro other
    rw [Dictionary.lookup_insert]
    grind [Call.table, Call.change]
  | unregister name =>
    obtain ⟨entry, he⟩ := catalog.exists_lookup_of_mem (not_not.1 h)
    refine ⟨{ catalog with tables := Dictionary.erase name _ }, ?_, rfl, ?_,
      fun h => Dictionary.nodup_erase h _⟩
    . simp only [Catalog.call, unregister, table, he]
      rfl
    . intro other
      rw [Dictionary.lookup_erase]
      rfl
  | setSoftDelete name condition =>
    obtain ⟨entry, he⟩ := catalog.exists_lookup_of_mem (not_not.1 h)
    refine ⟨{ catalog with tables := Dictionary.insert name ⟨entry.schema, some condition⟩ _ }, ?_,
      rfl, ?_, fun h => Dictionary.nodup_insert h _ _⟩
    . simp only [Catalog.call, setSoftDelete, table, he]
      rfl
    . intro other
      rw [Dictionary.lookup_insert]
      grind [Call.table, Call.change]

theorem perform_of_isRefused {call : Call} (h : call.IsRefused catalog.tableNames) :
    catalog.perform call = catalog := by
  rw [perform, catalog.call_of_isRefused h]
  rfl

theorem changes_perform (call : Call) : call.Changes catalog (catalog.perform call) := by
  by_cases h : call.IsRefused catalog.tableNames
  . rw [catalog.perform_of_isRefused h]
    refine ⟨rfl, ?_, id⟩
    intro name
    -- a call that is refused would have nothing to change
    cases call with
    | register table schema =>
      obtain ⟨entry, he⟩ := catalog.exists_lookup_of_mem h
      grind [Call.table, Call.change]
    | unregister table =>
      have he := catalog.not_mem_tableNames.1 h
      grind [Call.table, Call.change]
    | setSoftDelete table condition =>
      have he := catalog.not_mem_tableNames.1 h
      grind [Call.table, Call.change]
  . obtain ⟨next, hok, hchanges⟩ := catalog.call_of_not_isRefused h
    rw [perform, hok]
    exact hchanges

theorem tables_perform_unregister (name : String) :
    (catalog.perform (.unregister name)).tables = Dictionary.erase name catalog.tables := by
  by_cases h : name ∈ catalog.tableNames
  . obtain ⟨entry, he⟩ := catalog.exists_lookup_of_mem h
    simp only [perform, call, unregister, table, he]
    rfl
  . have hr : Call.IsRefused catalog.tableNames (.unregister name) := h
    rw [catalog.perform_of_isRefused hr]
    rw [Dictionary.erase_of_lookup_eq_none (catalog.not_mem_tableNames.1 h)]

end Step

section Run

variable (catalog : Catalog) (calls : List Call)

theorem after_append_singleton (call : Call) :
    catalog.after (calls ++ [call]) = (catalog.after calls).perform call := by
  rw [after, List.foldl_append]
  rfl

theorem config_after : (catalog.after calls).config = catalog.config := by
  induction calls using List.reverseRecOn with
  | nil => rfl
  | append_singleton calls call ih =>
    rw [after_append_singleton, ((catalog.after calls).changes_perform call).config_eq, ih]

theorem adapt_after : (catalog.after calls).adapt = catalog.adapt := by
  funext schema
  rw [adapt, adapt, config_after]

theorem nodup_after (h : (catalog.tables.map Prod.fst).Nodup) :
    ((catalog.after calls).tables.map Prod.fst).Nodup := by
  induction calls using List.reverseRecOn with
  | nil => exact h
  | append_singleton calls call ih =>
    rw [after_append_singleton]
    exact ((catalog.after calls).changes_perform call).nodup ih

theorem lookup_after_append_singleton (call : Call) (name : String) :
    List.lookup name (catalog.after (calls ++ [call])).tables =
      if name = call.table then
        call.change catalog.adapt (List.lookup name (catalog.after calls).tables)
      else List.lookup name (catalog.after calls).tables := by
  rw [after_append_singleton, ((catalog.after calls).changes_perform call).lookup_eq, adapt_after]

def naming (name : String) (calls : List Call) : List Call :=
  calls.filter fun call => name = call.table

theorem lookup_after_naming (name : String) :
    List.lookup name (catalog.after (naming name calls)).tables =
      List.lookup name (catalog.after calls).tables := by
  induction calls using List.reverseRecOn with
  | nil => rfl
  | append_singleton calls call ih =>
    rw [lookup_after_append_singleton, naming, List.filter_append, ← naming]
    by_cases h : name = call.table
    . rw [List.filter_cons_of_pos (by simpa using h), List.filter_nil,
        lookup_after_append_singleton, ih]
    . rw [List.filter_cons_of_neg (by simpa using h), List.filter_nil, List.append_nil, ih,
        if_neg h]

def Leaves (name : String) (entry : CatalogTable) : Prop :=
  ∃ earlier schema later, calls = earlier ++ .register name schema :: later ∧
    name ∉ (catalog.after earlier).tableNames ∧ .unregister name ∉ later ∧
      entry = ⟨catalog.adapt schema, (later.filterMap (Call.condition? name)).getLast?⟩

theorem getLast?_conditions (name : String) (call : Call) :
    ((calls ++ [call]).filterMap (Call.condition? name)).getLast? =
      (call.condition? name).or (calls.filterMap (Call.condition? name)).getLast? := by
  rw [List.filterMap_append, List.getLast?_append]
  cases h : call.condition? name <;> simp [h]

theorem leaves_append_singleton {call : Call} {name : String} {entry : CatalogTable} :
    catalog.Leaves (calls ++ [call]) name entry ↔
      (∃ schema, call = .register name schema ∧ name ∉ (catalog.after calls).tableNames ∧
        entry = ⟨catalog.adapt schema, none⟩) ∨
      ∃ last, catalog.Leaves calls name last ∧ call ≠ .unregister name ∧
        entry = ⟨last.schema, (call.condition? name).or last.softDelete⟩ := by
  constructor
  . rintro ⟨earlier, schema, later, hcalls, hfree, hkept, rfl⟩
    -- the call at the end is the registration itself, or stands behind it
    rcases List.eq_nil_or_concat' later with rfl | ⟨later, call', rfl⟩
    . obtain ⟨rfl, hcall⟩ := List.append_inj' hcalls rfl
      exact .inl ⟨schema, List.singleton_inj.1 hcall, hfree, rfl⟩
    . rw [← List.cons_append, ← List.append_assoc] at hcalls
      obtain ⟨rfl, hcall⟩ := List.append_inj' hcalls rfl
      obtain rfl := List.singleton_inj.1 hcall
      rw [List.mem_append, List.mem_singleton, not_or] at hkept
      refine .inr ⟨_, ⟨earlier, schema, later, rfl, hfree, hkept.1, rfl⟩, Ne.symm hkept.2, ?_⟩
      rw [getLast?_conditions]
  . rintro (⟨schema, rfl, hfree, rfl⟩ |
      ⟨_, ⟨earlier, schema, later, rfl, hfree, hkept, rfl⟩, hne, rfl⟩)
    . exact ⟨calls, schema, [], rfl, hfree, List.not_mem_nil, rfl⟩
    . refine ⟨earlier, schema, later ++ [call], by simp, hfree, ?_, ?_⟩
      . rw [List.mem_append, List.mem_singleton, not_or]
        exact ⟨hkept, hne.symm⟩
      . rw [getLast?_conditions]

variable {catalog} (hnew : catalog.tables = [])

include hnew

theorem lookup_after_eq_some_iff {name : String} {entry : CatalogTable} :
    List.lookup name (catalog.after calls).tables = some entry ↔
      catalog.Leaves calls name entry := by
  induction calls using List.reverseRecOn generalizing entry with
  | nil =>
    rw [after, List.foldl_nil, hnew]
    constructor
    . nofun
    . rintro ⟨earlier, schema, later, hcalls, -⟩
      exact absurd hcalls.symm (by simp)
  | append_singleton calls call ih =>
    rw [lookup_after_append_singleton, leaves_append_singleton, not_mem_tableNames,
      Call.change_eq_some_iff]
    simp only [ih]

end Run

structure Alike (left right : Catalog) (name : String) : Prop where
  table_eq : left.table name = right.table name
  compile_eq : ∀ input, left.compile name input = right.compile name input
  select_eq : ∀ input selection,
    left.select name input selection = right.select name input selection
  delete_eq : ∀ input, left.delete name input = right.delete name input

theorem alike_of_lookup_eq {left right : Catalog} {name : String}
    (hconfig : left.config = right.config)
    (h : List.lookup name left.tables = List.lookup name right.tables) :
    left.Alike right name := by
  have ht : left.table name = right.table name := by rw [table, table, h]
  have hc : left.compiler name = right.compiler name := by rw [compiler, compiler, ht, hconfig]
  constructor
  . exact ht
  . intro input
    rw [compile, compile, hc]
  . intro input selection
    rw [select, select, hc]
  . intro input
    rw [delete, delete, hc]

def alone (catalog : Catalog) (name : String) (entry : CatalogTable) : Catalog :=
  { catalog with tables := [(name, entry)] }

structure Isolated (catalog : Catalog) (calls : List Call) : Prop where
  config_eq : (catalog.after calls).config = catalog.config
  refused : ∀ call, (∃ error, (catalog.after calls).call call = .error error) ↔
    call.IsRefused (catalog.after calls).tableNames
  unchanged : ∀ call, call.IsRefused (catalog.after calls).tableNames →
    (catalog.after calls).call call = .error call.error ∧
      (catalog.after calls).perform call = catalog.after calls
  /-- a table could as well be removed before the look at whether it is there -/
  unregister : ∀ name, ((catalog.after calls).perform (.unregister name)).tables =
    Dictionary.erase name (catalog.after calls).tables
  nodup : (catalog.after calls).tableNames.Nodup
  mem_tableNames : ∀ name,
    name ∈ (catalog.after calls).tableNames ↔ ∃ entry, catalog.Leaves calls name entry
  naming : ∀ name, (catalog.after calls).Alike (catalog.after (naming name calls)) name
  present : ∀ name entry, catalog.Leaves calls name entry →
    (catalog.after calls).Alike (catalog.alone name entry) name
  absent : ∀ name, name ∉ (catalog.after calls).tableNames →
    (catalog.after calls).table name = .error (.notFound name) ∧
      (catalog.after calls).Alike catalog name

theorem isolated {config : Config} {catalog : Catalog} (h : Catalog.new config = .ok catalog)
    (calls : List Call) : catalog.Isolated calls := by
  obtain ⟨_, _, h⟩ := bind_eq_ok.1 h
  have hnew : catalog.tables = [] := by
    cases h
    rfl
  have hlookup {name : String} {entry : CatalogTable} :
      List.lookup name (catalog.after calls).tables = some entry ↔
        catalog.Leaves calls name entry :=
    lookup_after_eq_some_iff calls hnew
  constructor
  . exact config_after catalog calls
  . intro call
    constructor
    . rintro ⟨error, he⟩
      by_contra hr
      obtain ⟨next, hok, -⟩ := call_of_not_isRefused _ hr
      rw [hok] at he
      cases he
    . exact fun hr => ⟨_, call_of_isRefused _ hr⟩
  . exact fun call hr => ⟨call_of_isRefused _ hr, perform_of_isRefused _ hr⟩
  . exact tables_perform_unregister _
  . rw [tableNames, (List.mergeSort_perm _ _).nodup_iff]
    exact nodup_after catalog calls (by simp [hnew])
  . intro name
    rw [mem_tableNames, Option.isSome_iff_exists]
    simp only [hlookup]
  . intro name
    apply alike_of_lookup_eq
    . rw [config_after, config_after]
    . rw [lookup_after_naming]
  . intro name entry hleaves
    apply alike_of_lookup_eq
    . exact config_after catalog calls
    . rw [hlookup.2 hleaves, alone, Dictionary.lookup_cons, if_pos rfl]
  . intro name hm
    have hnone := (not_mem_tableNames _).1 hm
    refine ⟨by rw [table, hnone], ?_⟩
    apply alike_of_lookup_eq
    . exact config_after catalog calls
    . rw [hnone, hnew]
      rfl

def reregistered : List Call :=
  [.register "users" {}, .setSoftDelete "users" (.ofOperator "gone" .equal (.value (.integer 0))),
    .register "posts" {}, .unregister "users", .unregister "users", .register "users" {},
    .setSoftDelete "posts" (.ofOperator "hidden" .equal (.value (.integer 0)))]

theorem isolated_reregistered : Catalog.new {} = .ok ⟨{}, []⟩ ∧
    ∃ entry, ((⟨{}, []⟩ : Catalog).after reregistered).table "users" = .ok entry ∧
      entry.softDelete = none := by
  have h := isolated (rfl : Catalog.new {} = .ok ⟨{}, []⟩) reregistered
  have hfree : "users" ∉ ((⟨{}, []⟩ : Catalog).after (reregistered.take 5)).tableNames :=
    (not_mem_tableNames _).2 rfl
  have hkept : Call.unregister "users" ∉ reregistered.drop 6 := by simp [reregistered]
  exact ⟨rfl, _, (h.present _ _ ⟨_, {}, _, rfl, hfree, hkept, rfl⟩).table_eq, rfl⟩

end Catalog

end SqlFilter
