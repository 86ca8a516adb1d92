/-!
This module contains the character classes and the case folding that concern ASCII letters only:
identifiers, declared column types and keywords know no others.
-/

namespace SqlFilter.Text

def isWordChar (c : Char) : Bool :=
  c.isAlphanum || c == '_'

def lowerAscii (s : String) : String :=
  String.ofList (s.toList.map Char.toLower)

def occursIn (part : List Char) : List Char → Bool
  | [] => part.isEmpty
  | c :: cs => part.isPrefixOf (c :: cs) || occursIn part cs

def contains (s part : String) : Bool :=
  occursIn part.toList s.toList

def beginsWith (s start : String) : Bool :=
  start.toList.isPrefixOf s.toList

def splitAt (sep : Char) (s : String) : List String :=
  (s.toList.splitOn sep).map String.ofList

end SqlFilter.Text
