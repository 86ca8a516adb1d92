import Mathlib.Data.List.Induction
import SqlFilter.Proofs.FreeNumber

/-!
This module contains runs of calls on a table of binds. Whatever the calls are, names stay apart and
no bind is lost or changed, an index from names to positions finds every bind again, and the numbers
of generated names increase.
-/

namespace SqlFilter

def Bind.index (binds : List Bind) : Dictionary Nat :=
  binds.zipIdx.foldl (fun index (bind, i) => Dictionary.insert bind.name i index) []

namespace Bind

theorem index_append_singleton (binds : List Bind) (bind : Bind) :
    index (binds ++ [bind]) = Dictionary.insert bind.name binds.length (index binds) := by
  simp [index, List.zipIdx_append]

theorem lookup_index {binds : List Bind} (h : (binds.map Bind.name).Nodup) {name : String}
    {i : Nat} :
    List.lookup name (index binds) = some i ↔
      ∃ bind, binds[i]? = some bind ∧ bind.name = name := by
  induction binds using List.reverseRecOn with
  | nil => simp [index]
  | append_singleton binds last ih =>
    rw [List.map_append, List.map_singleton, List.nodup_append_comm, List.singleton_append,
      List.nodup_cons] at h
    rw [index_append_singleton, Dictionary.lookup_insert]
    split
    . next he =>
      rw [Option.some.injEq]
      constructor
      . rintro rfl
        exact ⟨last, by simp, he.symm⟩
      . rintro ⟨bind, hb, hn⟩
        by_contra hne
        -- another bind of this name would stand before the last one
        have hm : bind ∈ binds := by
          rw [List.getElem?_append] at hb
          split at hb
          . exact List.mem_of_getElem? hb
          . next hge => simp [show i - binds.length ≠ 0 by omega] at hb
        exact h.1 (he ▸ hn ▸ List.mem_map_of_mem hm)
    . next hne =>
      rw [ih h.2]
      constructor
      . rintro ⟨bind, hb, hn⟩
        obtain ⟨hi, -⟩ := List.getElem?_eq_some_iff.1 hb
        exact ⟨bind, by rwa [List.getElem?_append_left hi], hn⟩
      . rintro ⟨bind, hb, hn⟩
        rw [List.getElem?_append] at hb
        split at hb
        . exact ⟨bind, hb, hn⟩
        . obtain rfl : bind = last := by
            have := List.mem_of_getElem? hb
            simpa using this
          exact absurd hn.symm hne

end Bind

namespace BindTable

inductive Call where
  | register (value : Value) (type : BindType)
  | registerNamed (bind : Bind)

def perform (table : BindTable) : Call → BindTable
  | .register value type => (table.register value type).2
  | .registerNamed bind => (table.registerNamed bind).toOption.getD table

def run (stem : String) (calls : List Call) : BindTable :=
  calls.foldl perform (.empty stem)

def generatedNumbers (table : BindTable) : List Call → List Nat
  | [] => []
  | .register value type :: calls =>
    table.freeNumber (table.counter + 1) ::
      generatedNumbers (table.perform (.register value type)) calls
  | .registerNamed bind :: calls => generatedNumbers (table.perform (.registerNamed bind)) calls

section Step

variable (table : BindTable)

theorem registerNamed_eq_error_iff (bind : Bind) :
    table.registerNamed bind = .error (.duplicateBind bind.name) ↔
      bind.name ∈ table.binds.map Bind.name := by
  rw [← isRegistered_iff, registerNamed]
  split <;> simp_all

theorem registerNamed_of_not_mem {bind : Bind} (h : bind.name ∉ table.binds.map Bind.name) :
    table.registerNamed bind = .ok { table with binds := table.binds ++ [bind] } := by
  rw [← isRegistered_iff, Bool.not_eq_true] at h
  rw [registerNamed, h]
  rfl

theorem perform_of_mem {bind : Bind} (h : bind.name ∈ table.binds.map Bind.name) :
    table.perform (.registerNamed bind) = table := by
  rw [perform, (table.registerNamed_eq_error_iff bind).2 h]
  rfl

theorem perform_of_not_mem {bind : Bind} (h : bind.name ∉ table.binds.map Bind.name) :
    table.perform (.registerNamed bind) = { table with binds := table.binds ++ [bind] } := by
  rw [perform, table.registerNamed_of_not_mem h]
  rfl

theorem perform_cases (call : Call) :
    (∃ value type, call = .register value type ∧
      table.IsLeastFree (table.counter + 1) (table.freeNumber (table.counter + 1)) ∧
        table.perform call = ⟨table.stem, table.freeNumber (table.counter + 1), table.binds ++
          [⟨table.generated (table.freeNumber (table.counter + 1)), value, type⟩]⟩) ∨
    (∃ bind, call = .registerNamed bind ∧ bind.name ∉ table.binds.map Bind.name ∧
      table.perform call = { table with binds := table.binds ++ [bind] }) ∨
    ∃ bind, call = .registerNamed bind ∧ bind.name ∈ table.binds.map Bind.name ∧
      table.perform call = table := by
  cases call with
  | register value type =>
    exact .inl ⟨value, type, rfl, isLeastFree_freeNumber _, rfl⟩
  | registerNamed bind =>
    by_cases h : bind.name ∈ table.binds.map Bind.name
    . exact .inr (.inr ⟨bind, rfl, h, table.perform_of_mem h⟩)
    . exact .inr (.inl ⟨bind, rfl, h, table.perform_of_not_mem h⟩)

theorem stem_perform (call : Call) : (table.perform call).stem = table.stem := by
  rcases table.perform_cases call with ⟨_, _, _, _, h⟩ | ⟨_, _, _, h⟩ | ⟨_, _, _, h⟩ <;> rw [h]

theorem binds_perform (call : Call) : table.binds <+: (table.perform call).binds := by
  rcases table.perform_cases call with ⟨_, _, _, _, h⟩ | ⟨_, _, _, h⟩ | ⟨_, _, _, h⟩
  . rw [h]
    exact List.prefix_append _ _
  . rw [h]
    exact List.prefix_append _ _
  . exact ⟨[], by rw [h, List.append_nil]⟩

variable {table}

theorem nodup_perform (h : (table.binds.map Bind.name).Nodup) (call : Call) :
    ((table.perform call).binds.map Bind.name).Nodup := by
  have append {bind : Bind} (hn : bind.name ∉ table.binds.map Bind.name) :
      ((table.binds ++ [bind]).map Bind.name).Nodup := by
    rw [List.map_append, List.map_singleton, List.nodup_append_comm, List.singleton_append]
    exact h.cons hn
  rcases table.perform_cases call with ⟨_, _, _, hleast, he⟩ | ⟨_, _, hn, he⟩ | ⟨_, _, _, he⟩
  . rw [he]
    apply append
    rw [← isRegistered_iff, hleast.free]
    exact Bool.false_ne_true
  . rw [he]
    exact append hn
  . rw [he]
    exact h

end Step

section Run

theorem foldl_induction {P : BindTable → Prop}
    (step : ∀ table call, P table → P (table.perform call)) {table : BindTable} (h : P table)
    (calls : List Call) : P (calls.foldl perform table) := by
  induction calls generalizing table with
  | nil => exact h
  | cons call calls ih => exact ih (step table call h)

variable (table : BindTable) (calls : List Call)

theorem stem_run (stem : String) : (run stem calls).stem = stem := by
  apply foldl_induction (P := fun table => table.stem = stem)
  . intro table call h
    rw [stem_perform, h]
  . rfl

theorem nodup_run (stem : String) : ((run stem calls).binds.map Bind.name).Nodup := by
  apply foldl_induction (P := fun table => (table.binds.map Bind.name).Nodup)
  . intro table call h
    exact nodup_perform h call
  . exact List.nodup_nil

theorem binds_foldl : table.binds <+: (calls.foldl perform table).binds := by
  apply foldl_induction (P := fun next => table.binds <+: next.binds)
  . intro next call h
    exact h.trans (next.binds_perform call)
  . exact List.prefix_refl _

theorem generatedNumbers_spec :
    (table.counter :: table.generatedNumbers calls).Pairwise (· < ·) ∧
      (calls.foldl perform table).counter =
        (table.generatedNumbers calls).getLast?.getD table.counter := by
  induction calls generalizing table with
  | nil => simp [generatedNumbers]
  | cons call calls ih =>
    obtain ⟨hpairwise, hlast⟩ := ih (table.perform call)
    rw [List.foldl_cons, hlast]
    rcases table.perform_cases call with ⟨value, type, rfl, hleast, he⟩ | ⟨bind, rfl, _, he⟩ |
      ⟨bind, rfl, _, he⟩
    . have hlt := hleast.le
      rw [generatedNumbers]
      rw [he] at hpairwise ⊢
      refine ⟨hpairwise.cons ?_, by rw [List.getLast?_cons, Option.getD_some]⟩
      intro number hm
      rcases List.mem_cons.1 hm with rfl | hm
      . exact hlt
      . exact Nat.lt_trans hlt ((List.pairwise_cons.1 hpairwise).1 number hm)
    . rw [generatedNumbers]
      rw [he] at hpairwise ⊢
      exact ⟨hpairwise, rfl⟩
    . rw [generatedNumbers]
      rw [he] at hpairwise ⊢
      exact ⟨hpairwise, rfl⟩

end Run

structure Generates (table : BindTable) (value : Value) (type : BindType) (number : Nat) :
    Prop where
  lt : table.counter < number
  free : table.generated number ∉ table.binds.map Bind.name
  least : ∀ m, table.counter < m → m < number → table.generated m ∈ table.binds.map Bind.name
  tries : number - table.counter ≤ table.binds.length + 1
  register_eq : table.register value type = (table.generated number,
    ⟨table.stem, number, table.binds ++ [⟨table.generated number, value, type⟩]⟩)

structure Accounts (stem : String) (calls : List Call) (table : BindTable) : Prop where
  stem_eq : table.stem = stem
  nodup : (table.binds.map Bind.name).Nodup
  isRegistered_iff : ∀ name,
    table.isRegistered name = true ↔ name ∈ table.binds.map Bind.name
  find?_eq_some_iff : ∀ name bind,
    table.find? name = some bind ↔ bind ∈ table.binds ∧ bind.name = name
  isSome_index : ∀ name,
    (List.lookup name (Bind.index table.binds)).isSome = table.isRegistered name
  find?_eq_index : ∀ name, table.find? name =
    (List.lookup name (Bind.index table.binds)).bind fun i => table.binds[i]?
  prefix_run : ∀ more, table.binds <+: (run stem (calls ++ more)).binds
  taken : ∀ bind : Bind, bind.name ∈ table.binds.map Bind.name →
    table.registerNamed bind = .error (.duplicateBind bind.name) ∧
      table.perform (.registerNamed bind) = table
  free : ∀ bind : Bind, bind.name ∉ table.binds.map Bind.name →
    table.registerNamed bind = .ok { table with binds := table.binds ++ [bind] }
  generates : ∀ value type, ∃ number, table.Generates value type number
  /-- the search for a number would end in the same way without its bound -/
  unbounded : ∀ fuel, table.binds.length ≤ fuel →
    freeNumber.go table fuel (table.counter + 1) = table.freeNumber (table.counter + 1)
  increasing : (generatedNumbers (.empty stem) calls).Pairwise (· < ·)
  counter : table.counter = (generatedNumbers (.empty stem) calls).getLast?.getD 0

section Accounts

variable {table : BindTable}

theorem generates_freeNumber (table : BindTable) (value : Value) (type : BindType) :
    table.Generates value type (table.freeNumber (table.counter + 1)) := by
  obtain ⟨hle, hfree, hleast⟩ := table.isLeastFree_freeNumber (table.counter + 1)
  have hbound := table.freeNumber_le (table.counter + 1)
  refine ⟨hle, ?_, ?_, by omega, rfl⟩
  . rw [← isRegistered_iff, hfree]
    exact Bool.false_ne_true
  . intro m hl hu
    exact isRegistered_iff.1 (hleast m hl hu)

variable (h : (table.binds.map Bind.name).Nodup)

include h

theorem find?_eq_some_iff_of_nodup {name : String} {bind : Bind} :
    table.find? name = some bind ↔ bind ∈ table.binds ∧ bind.name = name := by
  unfold find?
  constructor
  . intro hf
    exact ⟨List.mem_of_find?_eq_some hf, by simpa using List.find?_some hf⟩
  . rintro ⟨hm, rfl⟩
    cases hf : table.binds.find? fun b => b.name == bind.name with
    | none => exact absurd (List.find?_eq_none.1 hf bind hm) (by simp)
    | some other =>
      have hname : other.name = bind.name := by simpa using List.find?_some hf
      rw [List.inj_on_of_nodup_map h (List.mem_of_find?_eq_some hf) hm hname]

theorem isSome_lookup_index (name : String) :
    (List.lookup name (Bind.index table.binds)).isSome = table.isRegistered name := by
  rw [Bool.eq_iff_iff, isRegistered_iff, Option.isSome_iff_exists, List.mem_map]
  constructor
  . rintro ⟨i, hi⟩
    obtain ⟨bind, hb, hn⟩ := (Bind.lookup_index h).1 hi
    exact ⟨bind, List.mem_of_getElem? hb, hn⟩
  . rintro ⟨bind, hm, hn⟩
    obtain ⟨i, hi⟩ := List.mem_iff_getElem?.1 hm
    exact ⟨i, (Bind.lookup_index h).2 ⟨bind, hi, hn⟩⟩

theorem find?_eq_lookup_index (name : String) : table.find? name =
    (List.lookup name (Bind.index table.binds)).bind fun i => table.binds[i]? := by
  ext bind
  rw [find?_eq_some_iff_of_nodup h, Option.bind_eq_some_iff]
  constructor
  . rintro ⟨hm, hn⟩
    obtain ⟨i, hi⟩ := List.mem_iff_getElem?.1 hm
    exact ⟨i, (Bind.lookup_index h).2 ⟨bind, hi, hn⟩, hi⟩
  . rintro ⟨i, hl, hi⟩
    obtain ⟨other, ho, hn⟩ := (Bind.lookup_index h).1 hl
    rw [hi] at ho
    cases ho
    exact ⟨List.mem_of_getElem? hi, hn⟩

end Accounts

theorem accounts_run (stem : String) (calls : List Call) :
    Accounts stem calls (run stem calls) := by
  have hnodup := nodup_run calls stem
  obtain ⟨hpairwise, hlast⟩ := (empty stem).generatedNumbers_spec calls
  constructor
  . exact stem_run calls stem
  . exact hnodup
  . exact fun name => isRegistered_iff
  . exact fun name bind => find?_eq_some_iff_of_nodup hnodup
  . exact isSome_lookup_index hnodup
  . exact find?_eq_lookup_index hnodup
  . intro more
    rw [run, run, List.foldl_append]
    exact binds_foldl _ more
  . intro bind hm
    exact ⟨(registerNamed_eq_error_iff _ bind).2 hm, perform_of_mem _ hm⟩
  . intro bind hm
    exact registerNamed_of_not_mem _ hm
  . intro value type
    exact ⟨_, generates_freeNumber _ value type⟩
  . intro fuel hf
    exact (isLeastFree_go hf _).unique (isLeastFree_freeNumber _)
  . exact hpairwise.of_cons
  . exact hlast

-- a name that is taken is skipped by the generated ones, and refused when it is given again
example : (run "p" [.registerNamed ⟨"p1", .null, .str⟩, .register (.boolean true) .bool,
    .registerNamed ⟨"p2", .null, .str⟩, .register .null .str]).binds.map Bind.name =
      ["p1", "p2", "p3"] := by
  decide +kernel

end BindTable

end SqlFilter
