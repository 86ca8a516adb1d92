import SqlFilter.Dictionary
import SqlFilter.Text.Blank

/-!
This module contains templates of statements: texts with slots between percent signs. What is put
into a slot is not looked at again.
-/

namespace SqlFilter

inductive StatementKind where
  | select
  | insert
  | update
  | delete
deriving DecidableEq

abbrev Slots := Dictionary String

def Slots.text (slots : Slots) (name : String) : String :=
  (List.lookup name slots).getD ""

namespace Template

/--
A template with its slots filled. The first argument is `none` outside of a slot, and inside of one
the part of its name that has been read, backwards. A last percent sign without partner stays.
-/
def fill (slots : Slots) : Option (List Char) → List Char → List Char
  | none, [] => []
  | none, c :: rest => if c = '%' then fill slots (some []) rest else c :: fill slots none rest
  | some name, [] => '%' :: name.reverse
  | some name, c :: rest =>
    if c = '%' then
      (slots.text (String.ofList name.reverse)).toList ++ fill slots none rest
    else fill slots (some (c :: name)) rest

end Template

structure Templates where
  select : String
  insert : String
  update : String
  delete : String

namespace Templates

def standard : Templates where
  select := "SELECT%DISTINCT% %FIELD% FROM %TABLE%%JOIN%%WHERE%%GROUP%%HAVING%%ORDER%%LIMIT%" ++
    "%LOCK%%COMMENT%"
  insert := "INSERT INTO %TABLE% (%FIELD%) VALUES (%VALUES%)%COMMENT%"
  update := "UPDATE %TABLE%%JOIN% SET %SET%%WHERE%%ORDER%%LIMIT%%LOCK%%COMMENT%"
  delete := "DELETE FROM %TABLE%%JOIN%%WHERE%%ORDER%%LIMIT%%LOCK%%COMMENT%"

variable (templates : Templates)

def get : StatementKind → String
  | .select => templates.select
  | .insert => templates.insert
  | .update => templates.update
  | .delete => templates.delete

def set (kind : StatementKind) (template : String) : Templates :=
  match kind with
  | .select => { templates with select := template }
  | .insert => { templates with insert := template }
  | .update => { templates with update := template }
  | .delete => { templates with delete := template }

def assemble (kind : StatementKind) (slots : Slots) : String :=
  String.ofList (Text.trimChars (Template.fill slots none (templates.get kind).toList))

end Templates

end SqlFilter
