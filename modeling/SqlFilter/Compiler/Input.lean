import SqlFilter.Bracket
import SqlFilter.Compiler.JsonCondition
import SqlFilter.Compiler.Text

/-!
This module contains the ways in which a filter is written, and the compiling of each of them: a
group, a bracket key with one value for each of its fields, and a map from keys to values.
-/

namespace SqlFilter

inductive WhereInput where
  | group (group : Group)
  | bracket (key : String) (values : List Json)
  | map (entries : Dictionary Json)

namespace WhereMap

def connectiveKey : String := "_op"

def perFieldKey : String := "_multi"

def isReserved (key : String) : Bool :=
  key.toList.head? == some '_'

def connective (entries : Dictionary Json) : Except CompileError Connective :=
  match List.lookup connectiveKey entries with
  | some (.string word) => Connective.ofWord word
  | some other => .error (.expression connectiveKey (.expectedConnective other))
  | none => .ok .and

end WhereMap

namespace Compiler

variable (c : Compiler)

mutual

def entryOfNode (c : Compiler) : BracketNode → List Json → Except CompileError (Entry × List Json)
  | .field name _, value :: values => do
    let condition ← c.conditionOfJson name value
    .ok (.condition condition, values)
  | .field _ _, [] => .error (.bracket .outOfValues)
  | .group nodes _, values => do
    let (group, values) ← c.groupOfNodes .and nodes values
    .ok (.group group, values)

def groupOfNodes (c : Compiler) (connective : Connective) :
    List BracketNode → List Json → Except CompileError (Group × List Json)
  | [], values => .ok ([], values)
  | node :: nodes, values => do
    let (entry, values) ← c.entryOfNode node values
    let (group, values) ← c.groupOfNodes (node.trailing.getD .and) nodes values
    .ok ((connective, entry) :: group, values)

end

def groupOfBracket (nodes : List BracketNode) (values : List Json) :
    Except CompileError Group := do
  let terminals := BracketNode.terminalCounts nodes
  if terminals = values.length then
    let (group, _) ← c.groupOfNodes .and nodes values
    .ok group
  else .error (.bracket (.valueCount terminals values.length))

def groupOfBracketKey (key : String) (values : List Json) : Except CompileError Group := do
  let nodes ← Bracket.parse c.config.maxBracketDepth key
  c.groupOfBracket nodes values

def entryOfBracketKey (key : String) (value : Json) : Except CompileError Entry := do
  let nodes ← Bracket.parse c.config.maxBracketDepth key
  match value with
  | .array values => do
    let group ← c.groupOfBracket nodes values
    .ok (.group group)
  | other => .error (.bracket (.expectedArray key other))

/-- The entry of field names in a map, which is always a group of its own: a simple condition is
wrapped, the others are groups already. -/
def entryOfKey (key : String) (value : Json) : Except CompileError Entry :=
  match (FieldRef.ofName key).multiple?, value.member? WhereMap.perFieldKey with
  | some (connective, names), some (.array values) => do
    let names := FieldTree.present names
    if names.length = values.length then
      let conditions ← (names.zip values).mapM fun (name, value) => c.conditionOfJson name value
      .ok (.group (Group.joined connective (conditions.map .condition)))
    else
      .error (.expression WhereMap.perFieldKey (.perFieldValues values.length names.length key))
  | _, _ => do
    let condition ← c.conditionOfJson key value
    .ok (if condition.isSimple then .group [(.and, .condition condition)]
      else .condition condition)

def entryOfMember (key : String) (value : Json) : Except CompileError Entry := do
  if key.toList.contains '(' then c.entryOfBracketKey key value
  else
    (Identifier.checkKey key).mapError .identifier
    c.entryOfKey key value

def groupOfMap (entries : Dictionary Json) : Except CompileError Group := do
  let connective ← WhereMap.connective entries
  let members := entries.filter fun member => !WhereMap.isReserved member.1
  let parts ← members.mapM fun (key, value) => c.entryOfMember key value
  .ok (Group.joined connective parts)

def groupOf : WhereInput → Except CompileError Group
  | .group group => .ok group
  | .bracket key values => c.groupOfBracketKey key values
  | .map entries => c.groupOfMap entries

def compile (input : WhereInput) : Except CompileError Compiled := do
  let group ← c.groupOf input
  c.compileGroup group

def compileJson : Json → Except CompileError Compiled
  | .object members => c.compile (.map members)
  | other => .error (.expression "where" (.expectedObject other))

end Compiler

end SqlFilter
