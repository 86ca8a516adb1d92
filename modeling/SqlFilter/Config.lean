import SqlFilter.Dialect
import SqlFilter.Dictionary
import SqlFilter.Text.Ascii
import SqlFilter.Text.Blank
import SqlFilter.Decimal.Digits

/-!
This module contains the configuration of a compiler and the check of its values.
-/

namespace SqlFilter

structure CompilerConfig where
  bindStem : String := "p"
  strictFields : Bool := false
  maxBracketDepth : Nat := 32
  allowRawExpressions : Bool := false
  quotedKeywords : List String := ["key", "exp"]
  operatorAliases : Dictionary String := []

structure Config where
  dialect : Dialect := {}
  compiler : CompilerConfig := {}

inductive ConfigFault where
  | emptyStem
  | badStem (stem : String)
  | zeroDepth
  | deepDepth
  | blankAlias (name : String)
deriving DecidableEq

namespace CompilerConfig

def depthLimit : Nat := 256

def isStem (stem : String) : Bool :=
  match stem.toList with
  | [] => false
  | c :: cs => (c.isAlpha || c == '_') && cs.all Text.isWordChar

def fault? (config : CompilerConfig) : Option ConfigFault :=
  if config.bindStem.isEmpty then some .emptyStem
  else if !isStem config.bindStem then some (.badStem config.bindStem)
  else if config.maxBracketDepth = 0 then some .zeroDepth
  else if depthLimit < config.maxBracketDepth then some .deepDepth
  else
    let blank := config.operatorAliases.find? fun entry =>
      Text.isAllBlank entry.1 || Text.isAllBlank entry.2
    blank.map fun entry => .blankAlias entry.1

end CompilerConfig

def ConfigFault.message : ConfigFault → String
  | .emptyStem => "Compiler bind_prefix cannot be empty"
  | .badStem stem => "Compiler bind_prefix '" ++ stem ++ "' must be an identifier"
  | .zeroDepth => "Compiler max_bracket_depth must be greater than 0"
  | .deepDepth =>
    "Compiler max_bracket_depth cannot exceed " ++ Decimal.natText CompilerConfig.depthLimit
  | .blankAlias name =>
    "Operator alias '" ++ name ++ "' must map a non-empty token to a non-empty operator"

inductive ConfigError where
  | malformed
  | invalid (fault : ConfigFault)
deriving DecidableEq

def ConfigError.message : ConfigError → String
  | .malformed => "TOML parsing error"
  | .invalid fault => "Invalid configuration: " ++ fault.message

def Config.check (config : Config) : Except ConfigError Unit :=
  match config.compiler.fault? with
  | some fault => .error (.invalid fault)
  | none => .ok ()

end SqlFilter
