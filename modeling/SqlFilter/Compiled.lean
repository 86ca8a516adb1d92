import SqlFilter.Dialect
import SqlFilter.Filter

/-!
This module contains compiled filters and statements, and their forms with positional instead of
named placeholders. `Compiled.tokens` cuts the text into characters and references to binds; both
positional styles are written from this one list.
-/

namespace SqlFilter

def whereClause (sql : String) : String :=
  if sql.isEmpty then "" else " WHERE " ++ sql

structure Compiled where
  sql : String
  binds : List Bind
  style : PlaceholderStyle

structure Statement where
  sql : String
  values : List Value

def Statement.argumentCount (statement : Statement) : Nat :=
  statement.values.length

inductive SqlToken where
  | char (c : Char)
  | reference (name : String)
deriving DecidableEq

namespace SqlToken

def name? : SqlToken → Option String
  | .char _ => none
  | .reference name => some name

def spelling : SqlToken → List Char
  | .char c => [c]
  | .reference name => ':' :: name.toList

def write (reference : String → String) : SqlToken → List Char
  | .char c => [c]
  | .reference name => (reference name).toList

/--
A colon and the letters, digits and underscores behind it refer to a bind if they are its name; not
so in a literal between single quotes, nor behind a second colon.
-/
def scan (isBound : String → Bool) (inLiteral : Bool) : List Char → List SqlToken
  | [] => []
  | c :: rest =>
    if inLiteral then .char c :: scan isBound (c != '\'') rest
    else if c = '\'' then .char c :: scan isBound true rest
    else if c = ':' then
      -- two colons are a cast
      if rest.head? = some ':' then .char ':' :: .char ':' :: scan isBound false rest.tail
      else
        let name := rest.takeWhile Text.isWordChar
        (if isBound (String.ofList name) then [.reference (String.ofList name)]
          else (':' :: name).map .char) ++
          scan isBound false (rest.dropWhile Text.isWordChar)
    else .char c :: scan isBound false rest
termination_by cs => cs.length
decreasing_by
  . simp
  . simp
  . simp [Nat.lt_succ_of_le (Nat.sub_le _ _)]
  . exact Nat.lt_succ_of_le (List.dropWhile_sublist _).length_le
  . simp

end SqlToken

namespace Compiled

variable (compiled : Compiled)

def isEmpty : Bool :=
  compiled.sql.isEmpty

def whereClause : String :=
  SqlFilter.whereClause compiled.sql

def value? (name : String) : Option Value :=
  (compiled.binds.reverse.find? fun b => b.name == name).map Bind.value

def tokens : List SqlToken :=
  SqlToken.scan (fun name => (compiled.value? name).isSome) false compiled.sql.toList

def references : List String :=
  compiled.tokens.filterMap SqlToken.name?

def distinctReferences : List String :=
  compiled.references.eraseDups

def textWith (reference : String → String) : String :=
  String.ofList (compiled.tokens.flatMap (SqlToken.write reference))

def inStyle : PlaceholderStyle → Statement
  | .named => ⟨compiled.sql, compiled.binds.map Bind.value⟩
  | .dollar =>
    let names := compiled.distinctReferences
    ⟨compiled.textWith fun name => "$" ++ Decimal.natText (names.idxOf name + 1),
      names.filterMap compiled.value?⟩
  | .question =>
    ⟨compiled.textWith fun _ => "?", compiled.references.filterMap compiled.value?⟩

def finish : Statement :=
  compiled.inStyle compiled.style

end Compiled

end SqlFilter
