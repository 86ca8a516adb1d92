import SqlFilter.Config
import SqlFilter.Toml.Parser

/-!
This module contains the reading of configurations from TOML texts. A setting that is missing keeps
its usual value, and one that is unknown is passed over.
-/

namespace SqlFilter

namespace Toml

def text? : Toml → Option String
  | .string s => some s
  | _ => none

def choice? : Toml → Option String
  | .string s => some s
  | .table [(name, .table [])] => some name
  | .table [(name, .array [])] => some name
  | _ => none

def flag? : Toml → Option Bool
  | .boolean b => some b
  | _ => none

def size? : Toml → Option Nat
  | .integer n => if 0 ≤ n ∧ n < UInt64.size then some n.toNat else none
  | _ => none

def texts? : Toml → Option (List String)
  | .array items => items.mapM text?
  | _ => none

/-- A point in time counts as a table with one entry. -/
def entries? : Toml → Option (Dictionary Toml)
  | .table entries => some entries
  | .dateTime text => some [("$__toml_private_datetime", .string text)]
  | _ => none

def textsByName? (v : Toml) : Option (Dictionary String) :=
  v.entries?.bind fun entries => entries.mapM fun (name, v) => v.text?.map fun s => (name, s)

/--
An array holds the settings in the order of their names, and what it has beyond them is not looked
at; an unknown setting of a table must still fit.
-/
def settings? (names : List String) : Toml → Option (Dictionary Toml)
  | .array items => some (names.zip items)
  | v => v.entries?.bind fun entries =>
    if entries.all fun (name, v) => names.contains name || v.fits then some entries else none

def setting? (settings : Dictionary Toml) (name : String) (read : Toml → Option α) (usual : α) :
    Option α :=
  match List.lookup name settings with
  | some v => read v
  | none => some usual

end Toml

def PlaceholderStyle.ofName? : String → Option PlaceholderStyle
  | "named" => some .named
  | "dollar" => some .dollar
  | "question" => some .question
  | _ => none

def QuoteStyle.ofName? : String → Option QuoteStyle
  | "backtick" => some .backtick
  | "double_quote" => some .doubleQuote
  | _ => none

def PlaceholderStyle.ofToml? (v : Toml) : Option PlaceholderStyle :=
  v.choice?.bind ofName?

def QuoteStyle.ofToml? (v : Toml) : Option QuoteStyle :=
  v.choice?.bind ofName?

def Dialect.ofToml? (v : Toml) : Option Dialect := do
  let usual : Dialect := {}
  let settings ← v.settings? ["placeholder", "quote", "quote_all"]
  let placeholder ←
    Toml.setting? settings "placeholder" PlaceholderStyle.ofToml? usual.placeholder
  let quote ← Toml.setting? settings "quote" QuoteStyle.ofToml? usual.quote
  let quoteAll ← Toml.setting? settings "quote_all" Toml.flag? usual.quoteAll
  some ⟨placeholder, quote, quoteAll⟩

def CompilerConfig.ofToml? (v : Toml) : Option CompilerConfig := do
  let usual : CompilerConfig := {}
  let settings ← v.settings?
    ["bind_prefix", "strict_fields", "max_bracket_depth", "allow_raw_expressions",
     "quoted_keywords", "operator_aliases"]
  let stem ← Toml.setting? settings "bind_prefix" Toml.text? usual.bindStem
  let strict ← Toml.setting? settings "strict_fields" Toml.flag? usual.strictFields
  let depth ← Toml.setting? settings "max_bracket_depth" Toml.size? usual.maxBracketDepth
  let raw ← Toml.setting? settings "allow_raw_expressions" Toml.flag? usual.allowRawExpressions
  let keywords ← Toml.setting? settings "quoted_keywords" Toml.texts? usual.quotedKeywords
  let aliases ←
    Toml.setting? settings "operator_aliases" Toml.textsByName? usual.operatorAliases
  some ⟨stem, strict, depth, raw, keywords, aliases⟩

namespace Config

def ofToml? (v : Toml) : Option Config := do
  let usual : Config := {}
  let settings ← v.settings? ["dialect", "compiler"]
  let dialect ← Toml.setting? settings "dialect" Dialect.ofToml? usual.dialect
  let compiler ← Toml.setting? settings "compiler" CompilerConfig.ofToml? usual.compiler
  some ⟨dialect, compiler⟩

def parse (text : String) : Except ConfigError Config := do
  match (Toml.parse? text).bind ofToml? with
  | none => .error .malformed
  | some config => do
    config.check
    .ok config

end Config

end SqlFilter
