import SqlFilter.Json
import SqlFilter.Decimal.Style

/-!
This module contains the reading of JSON texts. A name that an object repeats keeps its first place
and takes the last value.
-/

namespace SqlFilter.Json

def skipSpace (cs : List Char) : List Char :=
  cs.dropWhile fun c => c == ' ' || c == '\t' || c == '\n' || c == '\r'

def hexDigit? (c : Char) : Option Nat :=
  if c.isDigit then some (c.toNat - '0'.toNat)
  else if 'a' ≤ c && c ≤ 'f' then some (c.toNat - 'a'.toNat + 10)
  else if 'A' ≤ c && c ≤ 'F' then some (c.toNat - 'A'.toNat + 10)
  else none

def hexValue? (ds : List Char) : Option Nat :=
  ds.foldlM (fun n c => (hexDigit? c).map (16 * n + ·)) 0

def scalar? (n : Nat) : Option Char :=
  if h : n.isValidChar then some (Char.ofNatAux n h) else none

def surrogates? (high low : Nat) : Option Char :=
  if 0xD800 ≤ high && high < 0xDC00 && 0xDC00 ≤ low && low < 0xE000 then
    scalar? (0x10000 + (high - 0xD800) * 0x400 + (low - 0xDC00))
  else none

def unescape? (c : Char) : Option Char :=
  match c with
  | '"' => some '"'
  | '\\' => some '\\'
  | '/' => some '/'
  | 'b' => some '\x08'
  | 'f' => some '\x0c'
  | 'n' => some '\n'
  | 'r' => some '\r'
  | 't' => some '\t'
  | _ => none

def stringTail? : List Char → Option (List Char × List Char)
  | [] => none
  | '"' :: rest => some ([], rest)
  | '\\' :: 'u' :: a :: b :: c :: d :: '\\' :: 'u' :: e :: f :: g :: h :: rest =>
    match hexValue? [a, b, c, d] with
    | none => none
    | some n =>
      match scalar? n with
      | some char =>
        (stringTail? ('\\' :: 'u' :: e :: f :: g :: h :: rest)).map fun (s, r) => (char :: s, r)
      | none =>
        match (hexValue? [e, f, g, h]).bind (surrogates? n) with
        | some char => (stringTail? rest).map fun (s, r) => (char :: s, r)
        | none => none
  | '\\' :: 'u' :: a :: b :: c :: d :: rest =>
    match (hexValue? [a, b, c, d]).bind scalar? with
    | some char => (stringTail? rest).map fun (s, r) => (char :: s, r)
    | none => none
  | '\\' :: c :: rest =>
    match unescape? c with
    | some char => (stringTail? rest).map fun (s, r) => (char :: s, r)
    | none => none
  | c :: rest =>
    if c.toNat < 0x20 then none else (stringTail? rest).map fun (s, r) => (c :: s, r)

def plainWhole (ds : List Char) : Bool :=
  match ds with
  | [] => false
  | '0' :: rest => rest.isEmpty
  | _ => true

/--
Without point and exponent a number is whole if it fits 64 bits, with or without sign; the token
`-0` and all others are floating point numbers, and must be finite.
-/
def number? (token : List Char) : Option Json :=
  let (negative, cs) := match token with
    | '-' :: cs => (true, cs)
    | cs => (false, cs)
  let whole := cs.takeWhile Char.isDigit
  let rest := cs.dropWhile Char.isDigit
  let n := Decimal.digitsValue 0 whole
  let float (d : Decimal.Scaled) : Option Json :=
    let x := Binary64.ofDecimal negative d.digits d.exponent
    if x.isInfinite then none else some (.float x)
  if !plainWhole whole then none
  else if rest.isEmpty then
    if negative && 0 < n && n ≤ 1 <<< 63 then some (.int (-n))
    else if !negative && n < UInt64.size then some (.int n)
    else float ⟨n, 0⟩
  else
    match rest with
    | '.' :: c :: _ => if c.isDigit then (Decimal.scaled? cs).bind float else none
    | '.' :: [] => none
    | _ => (Decimal.scaled? cs).bind float

def isNumberChar (c : Char) : Bool :=
  c.isDigit || c == '-' || c == '+' || c == '.' || c == 'e' || c == 'E'

mutual

def value? : Nat → List Char → Option (Json × List Char)
  | 0, _ => none
  | fuel + 1, cs =>
    match skipSpace cs with
    | 'n' :: 'u' :: 'l' :: 'l' :: rest => some (.null, rest)
    | 't' :: 'r' :: 'u' :: 'e' :: rest => some (.bool true, rest)
    | 'f' :: 'a' :: 'l' :: 's' :: 'e' :: rest => some (.bool false, rest)
    | '"' :: rest => (stringTail? rest).map fun (s, r) => (.string (String.ofList s), r)
    | '[' :: rest =>
      match skipSpace rest with
      | ']' :: rest => some (.array [], rest)
      | rest => (items? fuel rest).map fun (js, r) => (.array js, r)
    | '\x7b' :: rest =>
      match skipSpace rest with
      | '\x7d' :: rest => some (.object [], rest)
      | rest => (members? fuel rest).map fun (ms, r) => (.object (Dictionary.ofEntries ms), r)
    | cs =>
      (number? (cs.takeWhile isNumberChar)).map fun j => (j, cs.dropWhile isNumberChar)

def items? : Nat → List Char → Option (List Json × List Char)
  | 0, _ => none
  | fuel + 1, cs =>
    match value? fuel cs with
    | none => none
    | some (j, rest) =>
      match skipSpace rest with
      | ',' :: rest => (items? fuel rest).map fun (js, r) => (j :: js, r)
      | ']' :: rest => some ([j], rest)
      | _ => none

def members? : Nat → List Char → Option (List (String × Json) × List Char)
  | 0, _ => none
  | fuel + 1, cs =>
    match skipSpace cs with
    | '"' :: rest =>
      match stringTail? rest with
      | none => none
      | some (name, rest) =>
        match skipSpace rest with
        | ':' :: rest =>
          match value? fuel rest with
          | none => none
          | some (j, rest) =>
            match skipSpace rest with
            | ',' :: rest =>
              (members? fuel rest).map fun (ms, r) => ((String.ofList name, j) :: ms, r)
            | '\x7d' :: rest => some ([(String.ofList name, j)], rest)
            | _ => none
        | _ => none
    | _ => none

end

def parse? (text : String) : Option Json :=
  match value? (2 * text.length + 2) text.toList with
  | some (j, rest) => if (skipSpace rest).isEmpty then some j else none
  | none => none

end SqlFilter.Json
