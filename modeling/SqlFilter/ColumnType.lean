import SqlFilter.Text.Ascii
import SqlFilter.Text.Blank

/-!
This module contains what the declared type of a column, such as `int(11)`, decides: the type with
which its values are bound, and the format of its date literals.
-/

namespace SqlFilter

inductive BindType where
  | str
  | int
  | float
  | bool
  | null
deriving DecidableEq

inductive TemporalFamily where
  | dateTime
  | date
deriving DecidableEq

namespace BindType

def ofDeclared (declared : String) : BindType :=
  let name := Text.lowerAscii (Text.trim declared)
  if Text.beginsWith name "bool" || name == "tinyint(1)" then .bool
  else if ["float", "double", "decimal", "real", "numeric"].any (Text.contains name) then .float
  else if ["int", "serial", "bit"].any (Text.contains name) &&
      !(["interval", "point"].any (Text.contains name)) then .int
  else .str

example : ofDeclared "BIGINT" = .int := by decide +kernel
example : ofDeclared "interval" = .str := by decide +kernel

end BindType

namespace TemporalFamily

def ofDeclared? (declared : String) : Option TemporalFamily :=
  let name := Text.lowerAscii declared
  if Text.contains name "datetime" || Text.contains name "timestamp" then some .dateTime
  else if Text.contains name "date" then some .date
  else none

example : ofDeclared? "TIMESTAMP WITH TIME ZONE" = some .dateTime := by decide +kernel
example : ofDeclared? "int(10)" = none := by decide +kernel

end TemporalFamily

end SqlFilter
