import SqlFilter.Binary64
import SqlFilter.Dictionary

/-!
This module contains JSON documents. The members of an object keep their order, and whole numbers
are kept apart from floating point numbers.
-/

namespace SqlFilter

inductive Json where
  | null
  | bool (b : Bool)
  | int (n : Int)
  | float (x : Binary64)
  | string (s : String)
  | array (items : List Json)
  | object (members : List (String × Json))
deriving Inhabited

namespace Json

mutual

/--
Equality of documents: the order of an object's members does not count, and a whole number differs
from a floating point number of the same value.
-/
def equals : Json → Json → Bool
  | .null, .null => true
  | .bool a, .bool b => a == b
  | .int a, .int b => a == b
  | .float a, .float b => a.equals b
  | .string a, .string b => a == b
  | .array as, .array bs => equalItems as bs
  | .object as, .object bs => as.length == bs.length && equalMembers as bs
  | _, _ => false

def equalItems : List Json → List Json → Bool
  | [], [] => true
  | a :: as, b :: bs => equals a b && equalItems as bs
  | _, _ => false

def equalMembers : List (String × Json) → List (String × Json) → Bool
  | [], _ => true
  | (name, a) :: as, bs =>
    (match List.lookup name bs with
      | some b => equals a b
      | none => false) && equalMembers as bs

end

def member? (name : String) : Json → Option Json
  | .object members => List.lookup name members
  | _ => none

end Json

end SqlFilter
