import SqlFilter.Filter

/-!
This module contains the table of the values that a statement binds. Generated names are a stem and
a number; a name that is taken is skipped, and no entry is ever changed.
-/

namespace SqlFilter

structure BindTable where
  stem : String
  counter : Nat
  binds : List Bind

namespace BindTable

def empty (stem : String) : BindTable :=
  ⟨stem, 0, []⟩

variable (table : BindTable)

def find? (name : String) : Option Bind :=
  table.binds.find? fun b => b.name == name

def isRegistered (name : String) : Bool :=
  table.binds.any fun b => b.name == name

def generated (number : Nat) : String :=
  table.stem ++ Decimal.natText number

/-- The least number from the given one on whose name is free. One of as many numbers as there are
binds, and one more, is free. -/
def freeNumber (start : Nat) : Nat :=
  go table.binds.length start
where
  go : Nat → Nat → Nat
  | 0, number => number
  | fuel + 1, number =>
    if table.isRegistered (table.generated number) then go fuel (number + 1) else number

def register (value : Value) (type : BindType) : String × BindTable :=
  let number := table.freeNumber (table.counter + 1)
  let name := table.generated number
  (name, { table with counter := number, binds := table.binds ++ [⟨name, value, type⟩] })

def registerNamed (bind : Bind) : Except CompileError BindTable :=
  if table.isRegistered bind.name then .error (.duplicateBind bind.name)
  else .ok { table with binds := table.binds ++ [bind] }

theorem binds_register (value : Value) (type : BindType) :
    (table.register value type).2.binds =
      table.binds ++ [⟨(table.register value type).1, value, type⟩] := rfl

theorem binds_registerNamed {bind : Bind} {table' : BindTable}
    (h : table.registerNamed bind = .ok table') : table'.binds = table.binds ++ [bind] := by
  simp only [registerNamed] at h
  split at h
  . cases h
  . cases h
    rfl

end BindTable

end SqlFilter
