import SqlFilter.Json.Parser
import SqlFilter.Toml
import SqlFilter.Toml.DateTime

/-!
This module contains the reading of TOML texts: first the pieces of a line, from characters to
values, then lines and whole documents.
-/

namespace SqlFilter.Toml

def skipBlanks (cs : List Char) : List Char :=
  cs.dropWhile fun c => c == ' ' || c == '\t'

def isPlain (c : Char) : Bool :=
  c == '\t' || (0x20 ≤ c.toNat && c.toNat != 0x7F)

def newline? : List Char → Option (List Char)
  | '\n' :: rest => some rest
  | '\r' :: '\n' :: rest => some rest
  | _ => none

def skipComment : List Char → List Char
  | '#' :: rest => rest.dropWhile isPlain
  | cs => cs

def lineEnd? (cs : List Char) : Option (List Char) :=
  match skipComment (skipBlanks cs) with
  | [] => some []
  | cs => newline? cs

/-- Without the blanks, comments and line ends in front; the flag says that a comment is open. -/
def skipSpace? : Bool → List Char → Option (List Char)
  | _, [] => some []
  | _, '\n' :: rest => skipSpace? false rest
  | _, '\r' :: '\n' :: rest => skipSpace? false rest
  | true, c :: rest => if isPlain c then skipSpace? true rest else none
  | false, c :: rest =>
    if c = ' ' ∨ c = '\t' then skipSpace? false rest
    else if c = '#' then skipSpace? true rest
    else some (c :: rest)

def unescape? (c : Char) : Option Char :=
  match c with
  | 'b' => some '\x08'
  | 't' => some '\t'
  | 'n' => some '\n'
  | 'f' => some '\x0c'
  | 'r' => some '\r'
  | 'e' => some '\x1b'
  | '"' => some '"'
  | '\\' => some '\\'
  | _ => none

def codePoint? (ds : List Char) : Option Char :=
  (Json.hexValue? ds).bind Json.scalar?

def consMap (c : Option Char) (tail : Option (List Char × List Char)) :
    Option (List Char × List Char) :=
  c.bind fun c => tail.map fun (s, rest) => (c :: s, rest)

def basicTail? : List Char → Option (List Char × List Char)
  | [] => none
  | '"' :: rest => some ([], rest)
  | '\\' :: 'x' :: a :: b :: rest => consMap (codePoint? [a, b]) (basicTail? rest)
  | '\\' :: 'u' :: a :: b :: c :: d :: rest => consMap (codePoint? [a, b, c, d]) (basicTail? rest)
  | '\\' :: 'U' :: a :: b :: c :: d :: e :: f :: g :: h :: rest =>
    consMap (codePoint? [a, b, c, d, e, f, g, h]) (basicTail? rest)
  | '\\' :: c :: rest => consMap (unescape? c) (basicTail? rest)
  | c :: rest => if isPlain c then consMap (some c) (basicTail? rest) else none

def literalTail? : List Char → Option (List Char × List Char)
  | [] => none
  | '\'' :: rest => some ([], rest)
  | c :: rest => if isPlain c then consMap (some c) (literalTail? rest) else none

/-- What a backslash at the end of a line swallows: the blanks up to the line end, and then all
blanks and line ends up to the next character. -/
inductive Fold where
  | off
  | line
  | space

/-- Up to two quotes may stand before the three that close the string. -/
def multilineTail? : Fold → List Char → Option (List Char × List Char)
  | _, [] => none
  | .line, '\n' :: rest => multilineTail? .space rest
  | .line, '\r' :: '\n' :: rest => multilineTail? .space rest
  | .line, c :: rest => if c = ' ' ∨ c = '\t' then multilineTail? .line rest else none
  | .space, ' ' :: rest => multilineTail? .space rest
  | .space, '\t' :: rest => multilineTail? .space rest
  | .space, '\n' :: rest => multilineTail? .space rest
  | .space, '\r' :: '\n' :: rest => multilineTail? .space rest
  | _, '"' :: '"' :: '"' :: '"' :: '"' :: rest => some (['"', '"'], rest)
  | _, '"' :: '"' :: '"' :: '"' :: rest => some (['"'], rest)
  | _, '"' :: '"' :: '"' :: rest => some ([], rest)
  | _, '\\' :: 'x' :: a :: b :: rest => consMap (codePoint? [a, b]) (multilineTail? .off rest)
  | _, '\\' :: 'u' :: a :: b :: c :: d :: rest =>
    consMap (codePoint? [a, b, c, d]) (multilineTail? .off rest)
  | _, '\\' :: 'U' :: a :: b :: c :: d :: e :: f :: g :: h :: rest =>
    consMap (codePoint? [a, b, c, d, e, f, g, h]) (multilineTail? .off rest)
  | _, '\\' :: '\n' :: rest => multilineTail? .space rest
  | _, '\\' :: '\r' :: '\n' :: rest => multilineTail? .space rest
  | _, '\\' :: ' ' :: rest => multilineTail? .line rest
  | _, '\\' :: '\t' :: rest => multilineTail? .line rest
  | _, '\\' :: c :: rest => consMap (unescape? c) (multilineTail? .off rest)
  | _, '\r' :: '\n' :: rest =>
    consMap (some '\r') (consMap (some '\n') (multilineTail? .off rest))
  | _, c :: rest =>
    if isPlain c || c == '\n' then consMap (some c) (multilineTail? .off rest) else none

def multilineLiteralTail? : List Char → Option (List Char × List Char)
  | [] => none
  | '\'' :: '\'' :: '\'' :: '\'' :: '\'' :: rest => some (['\'', '\''], rest)
  | '\'' :: '\'' :: '\'' :: '\'' :: rest => some (['\''], rest)
  | '\'' :: '\'' :: '\'' :: rest => some ([], rest)
  | '\r' :: '\n' :: rest =>
    consMap (some '\r') (consMap (some '\n') (multilineLiteralTail? rest))
  | c :: rest =>
    if isPlain c || c == '\n' then consMap (some c) (multilineLiteralTail? rest) else none

def skipNewline (cs : List Char) : List Char :=
  (newline? cs).getD cs

def string? : List Char → Option (List Char × List Char)
  | '"' :: '"' :: '"' :: rest => multilineTail? .off (skipNewline rest)
  | '\'' :: '\'' :: '\'' :: rest => multilineLiteralTail? (skipNewline rest)
  | '"' :: rest => basicTail? rest
  | '\'' :: rest => literalTail? rest
  | _ => none

def isBareChar (c : Char) : Bool :=
  c.isAlphanum || c == '_' || c == '-'

def simpleKey? : List Char → Option (String × List Char)
  | '"' :: rest => (basicTail? rest).map fun (s, r) => (String.ofList s, r)
  | '\'' :: rest => (literalTail? rest).map fun (s, r) => (String.ofList s, r)
  | cs =>
    let key := cs.takeWhile isBareChar
    if key.isEmpty then none else some (String.ofList key, cs.dropWhile isBareChar)

/-- The number of parts that a dotted key may have, and of arrays and tables that may be written one
within the other. -/
def depthLimit : Nat := 80

def keyUpTo? : Nat → List Char → Option (List String × List Char)
  | 0, _ => none
  | parts + 1, cs =>
    match simpleKey? (skipBlanks cs) with
    | none => none
    | some (part, rest) =>
      match skipBlanks rest with
      | '.' :: rest => (keyUpTo? parts rest).map fun (key, rest) => (part :: key, rest)
      | rest => some ([part], rest)

def key? (cs : List Char) : Option (List String × List Char) :=
  keyUpTo? depthLimit cs

def digits? (isDigit : Char → Bool) : List Char → Option (List Char)
  | [] => none
  | [c] => if isDigit c then some [c] else none
  | c :: '_' :: rest => if isDigit c then (digits? isDigit rest).map (c :: ·) else none
  | c :: rest => if isDigit c then (digits? isDigit rest).map (c :: ·) else none

def unsigned : List Char → Bool × List Char
  | '-' :: cs => (true, cs)
  | '+' :: cs => (false, cs)
  | cs => (false, cs)

def decimal? (cs : List Char) : Option Nat :=
  (digits? Char.isDigit cs).bind fun ds =>
    if ds.length > 1 ∧ ds.head? = some '0' then none else some (Decimal.digitsValue 0 ds)

def inBase? (base : Nat) (cs : List Char) : Option Nat :=
  let isDigit (c : Char) : Bool := (Json.hexDigit? c).any (· < base)
  (digits? isDigit cs).bind fun ds =>
    ds.foldlM (fun n c => (Json.hexDigit? c).map (base * n + ·)) 0

def integer? (token : List Char) : Option Int :=
  match token with
  | '0' :: 'x' :: ds => (inBase? 16 ds).map Int.ofNat
  | '0' :: 'o' :: ds => (inBase? 8 ds).map Int.ofNat
  | '0' :: 'b' :: ds => (inBase? 2 ds).map Int.ofNat
  | _ =>
    let (negative, ds) := unsigned token
    (decimal? ds).map fun n => if negative then -(n : Int) else n

def isFloat (token : List Char) : Bool :=
  let cs := (unsigned token).2
  if cs = ['i', 'n', 'f'] ∨ cs = ['n', 'a', 'n'] then true
  else
    let isExponent (c : Char) : Bool := c == 'e' || c == 'E'
    let mantissa := cs.takeWhile fun c => !isExponent c
    let power := cs.dropWhile fun c => !isExponent c
    let whole := mantissa.takeWhile (· != '.')
    let fraction := mantissa.dropWhile (· != '.')
    let powerOk := match power with
      | [] => true
      | _ :: ds => (digits? Char.isDigit (unsigned ds).2).isSome
    let fractionOk := match fraction with
      | [] => !power.isEmpty
      | _ :: ds => (digits? Char.isDigit ds).isSome
    (decimal? whole).isSome && fractionOk && powerOk

def isOverflow (token : List Char) : Bool :=
  let (negative, cs) := unsigned token
  match Decimal.scaled? (cs.filter (· != '_')) with
  | some d => (Binary64.ofDecimal negative d.digits d.exponent).isInfinite
  | none => false

def isTokenChar (c : Char) : Bool :=
  c.isAlphanum || c == '+' || c == '-' || c == '_' || c == '.' || c == ':'

/-- A blank belongs to the token where it stands between a date and a time of day. -/
def token (cs : List Char) : List Char × List Char :=
  let first := cs.takeWhile isTokenChar
  match cs.dropWhile isTokenChar with
  | ' ' :: rest =>
    let second := rest.takeWhile isTokenChar
    if (date? first).any (·.2.isEmpty) ∧ second.head?.any Char.isDigit then
      (first ++ ' ' :: second, rest.dropWhile isTokenChar)
    else (first, ' ' :: rest)
  | rest => (first, rest)

def scalar? (token : List Char) : Option Toml :=
  if token = "true".toList then some (.boolean true)
  else if token = "false".toList then some (.boolean false)
  else
    match integer? token with
    | some n => if -(1 <<< 127) ≤ n ∧ n < 1 <<< 128 then some (.integer n) else some .oversized
    | none =>
      if isFloat token then if isOverflow token then some .oversized else some .float
      else (dateTime? token).map .dateTime

mutual

/-- Up to `depth` arrays and tables stand one within the other; `fuel` bounds the steps. -/
def value? : Nat → Nat → List Char → Option (Toml × List Char)
  | 0, _, _ => none
  | fuel + 1, depth, cs =>
    match cs, depth with
    | '[' :: _, 0 => none
    | '\x7b' :: _, 0 => none
    | '[' :: rest, depth + 1 => (items? fuel depth rest).map fun (vs, r) => (.array vs, r)
    | '\x7b' :: rest, depth + 1 =>
      (members? fuel depth [] rest).map fun (entries, r) => (.table (Draft.tomls entries), r)
    | '"' :: _, _ => (string? cs).map fun (s, r) => (.string (String.ofList s), r)
    | '\'' :: _, _ => (string? cs).map fun (s, r) => (.string (String.ofList s), r)
    | _, _ => (scalar? (token cs).1).map fun v => (v, (token cs).2)

def items? : Nat → Nat → List Char → Option (List Toml × List Char)
  | 0, _, _ => none
  | fuel + 1, depth, cs =>
    match skipSpace? false cs with
    | none => none
    | some (']' :: rest) => some ([], rest)
    | some cs =>
      match value? fuel depth cs with
      | none => none
      | some (v, rest) =>
        match skipSpace? false rest with
        | some (',' :: rest) => (items? fuel depth rest).map fun (vs, r) => (v :: vs, r)
        | some (']' :: rest) => some ([v], rest)
        | _ => none

/--
A comma may follow the last member. Lines may end between all pieces of a member but the parts of
its key.
-/
def members? : Nat → Nat → Drafts → List Char → Option (Drafts × List Char)
  | 0, _, _, _ => none
  | fuel + 1, depth, entries, cs =>
    match skipSpace? false cs with
    | none => none
    | some ('\x7d' :: rest) => some (entries, rest)
    | some cs =>
      match key? cs with
      | none => none
      | some (key, rest) =>
        match skipSpace? false rest with
        | some ('=' :: rest) =>
          match (skipSpace? false rest).bind (value? fuel depth) with
          | none => none
          | some (v, rest) =>
            match Drafts.set key v entries, skipSpace? false rest with
            | some entries, some (',' :: rest) => members? fuel depth entries rest
            | some entries, some ('\x7d' :: rest) => some (entries, rest)
            | _, _ => none
        | _ => none

end

inductive Line where
  | blank
  | header (path : List String) (key : String)
  | elementHeader (path : List String) (key : String)
  | member (key : List String) (value : Toml)

def splitKey? (key : List String) : Option (List String × String) :=
  key.getLast?.map fun last => (key.dropLast, last)

def line? (cs : List Char) : Option (Line × List Char) := do
  match skipBlanks cs with
  | '[' :: '[' :: rest =>
    match ← key? rest with
    | (key, ']' :: ']' :: rest) =>
      let (path, last) ← splitKey? key
      let rest ← lineEnd? rest
      some (.elementHeader path last, rest)
    | _ => none
  | '[' :: rest =>
    match ← key? rest with
    | (key, ']' :: rest) =>
      let (path, last) ← splitKey? key
      let rest ← lineEnd? rest
      some (.header path last, rest)
    | _ => none
  | rest =>
    match lineEnd? rest with
    | some rest => some (.blank, rest)
    | none =>
      match ← key? rest with
      | (key, '=' :: rest) =>
        let (v, rest) ← value? (2 * rest.length + 2) depthLimit (skipBlanks rest)
        let rest ← lineEnd? rest
        some (.member key v, rest)
      | _ => none

def lines? : Nat → List Char → Option (List Line)
  | _, [] => some []
  | 0, _ => none
  | fuel + 1, cs =>
    match line? cs with
    | some (line, rest) => (lines? fuel rest).map (line :: ·)
    | none => none

def build? : List String → Drafts → List Line → Option Drafts
  | _, entries, [] => some entries
  | current, entries, .blank :: lines => build? current entries lines
  | _, entries, .header path key :: lines =>
    (Drafts.changeAt path (Drafts.openTable key) entries).bind fun entries =>
      build? (path ++ [key]) entries lines
  | _, entries, .elementHeader path key :: lines =>
    (Drafts.changeAt path (Drafts.openElement key) entries).bind fun entries =>
      build? (path ++ [key]) entries lines
  | current, entries, .member key v :: lines =>
    (Drafts.changeAt current (Drafts.set key v) entries).bind fun entries =>
      build? current entries lines

def parse? (text : String) : Option Toml :=
  let cs := match text.toList with
    | '\ufeff' :: cs => cs
    | cs => cs
  match lines? (cs.length + 1) cs with
  | some lines => (build? [] [] lines).map fun entries => .table (Draft.tomls entries)
  | none => none

end SqlFilter.Toml
