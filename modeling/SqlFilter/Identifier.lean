import SqlFilter.Decimal.Digits
import SqlFilter.Text.Ascii

/-!
This module contains the checks that a name passes before it becomes part of a statement: its
length and its characters, and for dotted names that no segment is empty.
-/

namespace SqlFilter

inductive IdentifierError where
  | empty
  | tooLong (name : String)
  | badCharacters (name : String)
  | emptySegment (name : String)
deriving DecidableEq

namespace Identifier

/-- The greatest length of a name, in bytes of its UTF-8 form. -/
def maxLength : Nat := 192

end Identifier

def IdentifierError.message : IdentifierError → String
  | .empty => "Name cannot be empty"
  | .tooLong name =>
    "Name '" ++ name ++ "' is too long: " ++ Decimal.natText name.utf8ByteSize ++ " characters (max " ++
      Decimal.natText Identifier.maxLength ++ ")"
  | .badCharacters name => "Invalid characters in name '" ++ name ++ "'"
  | .emptySegment name => "Name '" ++ name ++ "' has an empty dotted segment"

namespace Identifier

def checkCharacters (allowed : Char → Bool) (name : String) : Except IdentifierError Unit :=
  if name.isEmpty then .error .empty
  else if maxLength < name.utf8ByteSize then .error (.tooLong name)
  else if !name.toList.all allowed then .error (.badCharacters name)
  else .ok ()

def segments (name : String) : List String :=
  Text.splitAt '.' name

def check (name : String) : Except IdentifierError Unit := do
  checkCharacters (fun c => Text.isWordChar c || c == '.') name
  if (segments name).any String.isEmpty then .error (.emptySegment name)

def checkKey (key : String) : Except IdentifierError Unit :=
  checkCharacters (fun c => Text.isWordChar c || ['.', '&', '|', '-'].contains c) key

def checkGroupedKey (key : String) : Except IdentifierError Unit :=
  checkCharacters (fun c => Text.isWordChar c || ['.', '&', '|', '-', '(', ')'].contains c) key

end Identifier

end SqlFilter
