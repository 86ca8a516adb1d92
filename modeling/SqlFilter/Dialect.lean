/-!
This module contains what differs between databases: how placeholders and quoted identifiers look.
-/

namespace SqlFilter

inductive PlaceholderStyle where
  | named
  | dollar
  | question
deriving DecidableEq

inductive QuoteStyle where
  | backtick
  | doubleQuote
deriving DecidableEq

def QuoteStyle.char : QuoteStyle → Char
  | .backtick => '\x60'
  | .doubleQuote => '"'

structure Dialect where
  placeholder : PlaceholderStyle := .named
  quote : QuoteStyle := .backtick
  quoteAll : Bool := false
deriving DecidableEq

end SqlFilter
