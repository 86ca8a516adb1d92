/-!
This module contains the operators of conditions: their tokens, the text between field and operand,
and the families that share a shape of operand.
-/

namespace SqlFilter

inductive Operator where
  | equal
  | notEqual
  | greater
  | greaterEqual
  | less
  | lessEqual
  | like
  | notLike
  | between
  | notBetween
  | oneOf
  | notOneOf
  | isNull
  | isNotNull
  | existing
  | notExisting
  | expression
  | column
  | timeLess
  | timeGreater
  | timeLessEqual
  | timeGreaterEqual
  | betweenTime
  | notBetweenTime
deriving DecidableEq

inductive OperatorFamily where
  | compare
  | like
  | between
  | oneOf
  | isNull
  | existing
  | expression
  | column
  | time
  | betweenTime
deriving DecidableEq

namespace Operator

def all : List Operator :=
  [.equal, .notEqual, .greater, .greaterEqual, .less, .lessEqual, .like, .notLike, .between,
   .notBetween, .oneOf, .notOneOf, .isNull, .isNotNull, .existing, .notExisting, .expression,
   .column, .timeLess, .timeGreater, .timeLessEqual, .timeGreaterEqual, .betweenTime,
   .notBetweenTime]

def token : Operator → String
  | .equal => "="
  | .notEqual => "<>"
  | .greater => ">"
  | .greaterEqual => ">="
  | .less => "<"
  | .lessEqual => "<="
  | .like => "LIKE"
  | .notLike => "NOT LIKE"
  | .between => "BETWEEN"
  | .notBetween => "NOT BETWEEN"
  | .oneOf => "IN"
  | .notOneOf => "NOT IN"
  | .isNull => "NULL"
  | .isNotNull => "NOT NULL"
  | .existing => "EXISTS"
  | .notExisting => "NOT EXISTS"
  | .expression => "EXP"
  | .column => "COLUMN"
  | .timeLess => "< TIME"
  | .timeGreater => "> TIME"
  | .timeLessEqual => "<= TIME"
  | .timeGreaterEqual => ">= TIME"
  | .betweenTime => "BETWEEN TIME"
  | .notBetweenTime => "NOT BETWEEN TIME"

def sql : Operator → String
  | .isNull => "IS NULL"
  | .isNotNull => "IS NOT NULL"
  | .timeLess => "<"
  | .timeGreater => ">"
  | .timeLessEqual => "<="
  | .timeGreaterEqual => ">="
  | .betweenTime => "BETWEEN"
  | .notBetweenTime => "NOT BETWEEN"
  | op => op.token

def family : Operator → OperatorFamily
  | .equal | .notEqual | .greater | .greaterEqual | .less | .lessEqual => .compare
  | .like | .notLike => .like
  | .between | .notBetween => .between
  | .oneOf | .notOneOf => .oneOf
  | .isNull | .isNotNull => .isNull
  | .existing | .notExisting => .existing
  | .expression => .expression
  | .column => .column
  | .timeLess | .timeGreater | .timeLessEqual | .timeGreaterEqual => .time
  | .betweenTime | .notBetweenTime => .betweenTime

def isComparison (op : Operator) : Bool :=
  op.family == .compare

def ofToken? (token : String) : Option Operator :=
  all.find? fun op => op.token == token

theorem ofToken?_token (op : Operator) : ofToken? op.token = some op := by
  cases op <;> decide +kernel

end Operator

end SqlFilter
