import SqlFilter.Identifier
import SqlFilter.Json.Printer

/-!
This module contains the reasons why a filter cannot be compiled, and their messages.
-/

namespace SqlFilter

inductive ExpressionFault where
  | noField
  | unsupportedOperand (description : String)
  | notComparison (token : String)
  | boundCount (found : Nat)
  | nullBound
  | endOutOfRange
  | literalFalse
  | perFieldCount (operands fields : Nat)
  | emptyConditionList
  | unknownConnective (word : String)
  | emptyValueList (field : String)
  | objectValue (field : String)
  | rawDisabled
  | expectedSql (found : Json)
  | expectedColumnPair (found : Json)
  | expectedFieldName (found : Json)
  | blankRange
  | noConditions (field : String)
  | expectedPair (found : Json)
  | expectedConnective (found : Json)
  | perFieldValues (values fields : Nat) (key : String)
  | expectedObject (found : Json)

def ExpressionFault.message : ExpressionFault → String
  | .noField => "condition has no field"
  | .unsupportedOperand description => "unsupported operand: " ++ description
  | .notComparison token => "'" ++ token ++ "' is not a comparison operator"
  | .boundCount found => "expected 2 bounds, got " ++ Decimal.natText found
  | .nullBound => "NULL range bound"
  | .endOutOfRange => "end bound out of range"
  | .literalFalse => "literal false is not a condition"
  | .perFieldCount operands fields =>
    Decimal.natText operands ++ " per-field operands for " ++ Decimal.natText fields ++ " fields"
  | .emptyConditionList => "empty condition list"
  | .unknownConnective word => "unknown connective '" ++ word ++ "'"
  | .emptyValueList field => "empty value list for '" ++ field ++ "'"
  | .objectValue field => "object value for '" ++ field ++ "'"
  | .rawDisabled => "raw expressions are disabled"
  | .expectedSql found => "expected SQL text, got " ++ found.render
  | .expectedColumnPair found => "expected [operator, field], got " ++ found.render
  | .expectedFieldName found => "expected a field name, got " ++ found.render
  | .blankRange => "both range bounds are empty"
  | .noConditions field => "no conditions for '" ++ field ++ "'"
  | .expectedPair found => "expected [operator, value], got " ++ found.render
  | .expectedConnective found => "expected a connective, got " ++ found.render
  | .perFieldValues values fields key =>
    Decimal.natText values ++ " values for " ++ Decimal.natText fields ++ " fields in '" ++ key ++ "'"
  | .expectedObject found => "expected a JSON object, got " ++ found.render

inductive BracketFault where
  | tooDeep (levels : Nat)
  | unbalancedOpen (text : String)
  | unbalancedClose (text : String)
  | emptyGroup (text : String)
  | noLeftOperand (text : String)
  | danglingConnective (text : String)
  | missingConnective (offset : Nat) (text : String)
  | emptyExpression
  | mixedConnectives (text : String)
  | valueCount (terminals values : Nat)
  | outOfValues
  | expectedArray (key : String) (found : Json)

def BracketFault.message : BracketFault → String
  | .tooDeep levels => "nesting deeper than " ++ Decimal.natText levels ++ " levels"
  | .unbalancedOpen text => "unbalanced '(' in '" ++ text ++ "'"
  | .unbalancedClose text => "unbalanced ')' in '" ++ text ++ "'"
  | .emptyGroup text => "empty group in '" ++ text ++ "'"
  | .noLeftOperand text => "connective without left operand in '" ++ text ++ "'"
  | .danglingConnective text => "dangling connective at end of '" ++ text ++ "'"
  | .missingConnective offset text =>
    "missing connective at offset " ++ Decimal.natText offset ++ " in '" ++ text ++ "'"
  | .emptyExpression => "empty expression"
  | .mixedConnectives text => "mixed '&' and '|' between fields in '" ++ text ++ "'"
  | .valueCount terminals values =>
    Decimal.natText terminals ++ " terminal fields but " ++ Decimal.natText values ++ " values"
  | .outOfValues => "ran out of values"
  | .expectedArray key found =>
    "'" ++ key ++ "' needs an array of values, got " ++ found.render

inductive CompileError where
  | unknownOperator (token : String)
  | expression (subject : String) (fault : ExpressionFault)
  | identifier (error : IdentifierError)
  | bracket (fault : BracketFault)
  | strictField (name : String)
  | duplicateBind (name : String)

def CompileError.message : CompileError → String
  | .unknownOperator token => "Unknown operator: " ++ token
  | .expression subject fault => "Where expression error: " ++ subject ++ " " ++ fault.message
  | .identifier error => "Invalid identifier: " ++ error.message
  | .bracket fault => "Bracket structure error: " ++ fault.message
  | .strictField name => "Field not allowed in strict mode: " ++ name
  | .duplicateBind name => "Bind name already registered: " ++ name

def checkField (name : String) : Except CompileError Unit :=
  (Identifier.check name).mapError .identifier

end SqlFilter
