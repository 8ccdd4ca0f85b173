import VhdlDesign.Number.Numeral

/-!
JSON documents as they are written, with members in order and numerals with all their digits, and a
reader for their texts. Each function of the reader takes a value off the front of the text and
returns what is left.
-/
namespace VhdlDesign

/-- A JSON value. A string whose escapes name half a surrogate pair stands for no text; it is
well formed all the same. -/
inductive Json
  | null
  | bool (value : Bool)
  | number (value : Numeral)
  | string (value : Option String)
  | array (elements : List Json)
  | object (members : List (Option String × Json))

namespace Json

namespace Reader

def isSeparator (c : Char) : Bool := c == ' ' || c == '\t' || c == '\n' || c == '\r'

def skipBlanks (cs : List Char) : List Char := cs.dropWhile isSeparator

/-! ### Numbers -/

def digitValue (c : Char) : Nat := c.toNat - '0'.toNat

def digits (cs : List Char) : List Nat × List Char :=
  ((cs.takeWhile Char.isDigit).map digitValue, cs.dropWhile Char.isDigit)

def someDigits (cs : List Char) : Option (List Nat × List Char) :=
  match digits cs with
  | ([], _) => none
  | read => some read

def sign : List Char → Bool × List Char
  | '-' :: rest => (true, rest)
  | cs => (false, cs)

/-- Digits before the point: zero only by itself. -/
def whole (cs : List Char) : Option (List Nat × List Char) :=
  match digits cs with
  | ([], _) => none
  | (0 :: _ :: _, _) => none
  | read => some read

def fraction : List Char → Option (Option (List Nat) × List Char)
  | '.' :: rest => do
    let (ds, rest) ← someDigits rest
    some (some ds, rest)
  | cs => some (none, cs)

def exponentSign : List Char → Bool × List Char
  | '+' :: rest => (false, rest)
  | cs => sign cs

def exponent : List Char → Option (Option (Bool × List Nat) × List Char)
  | c :: rest =>
    if c = 'e' ∨ c = 'E' then do
      let (negative, rest) := exponentSign rest
      let (ds, rest) ← someDigits rest
      some (some (negative, ds), rest)
    else some (none, c :: rest)
  | [] => some (none, [])

def numeral (cs : List Char) : Option (Numeral × List Char) := do
  let (negative, cs) := sign cs
  let (whole, cs) ← whole cs
  let (fraction, cs) ← fraction cs
  let (exponent, cs) ← exponent cs
  some ({ negative, whole, fraction, exponent }, cs)

/-! ### Strings -/

/-- A piece of a string: a character, or the 16-bit unit that a numeric escape gives. -/
inductive Piece
  | char (c : Char)
  | unit (n : Nat)

def hexValue (c : Char) : Option Nat :=
  if '0' ≤ c ∧ c ≤ '9' then some (c.toNat - '0'.toNat)
  else if 'a' ≤ c ∧ c ≤ 'f' then some (c.toNat - 'a'.toNat + 10)
  else if 'A' ≤ c ∧ c ≤ 'F' then some (c.toNat - 'A'.toNat + 10)
  else none

def shortEscape (c : Char) : Option Char :=
  if c = '\x22' then some c
  else if c = '\\' then some c
  else if c = '/' then some c
  else if c = 'b' then some '\x08'
  else if c = 'f' then some '\x0c'
  else if c = 'n' then some '\n'
  else if c = 'r' then some '\r'
  else if c = 't' then some '\t'
  else none

def pieces : List Char → Option (List Piece × List Char)
  | [] => none
  | '\\' :: 'u' :: a :: b :: c :: d :: rest => do
    let a ← hexValue a
    let b ← hexValue b
    let c ← hexValue c
    let d ← hexValue d
    let (ps, rest) ← pieces rest
    some (.unit (((a * 16 + b) * 16 + c) * 16 + d) :: ps, rest)
  | '\\' :: c :: rest => do
    let c ← shortEscape c
    let (ps, rest) ← pieces rest
    some (.char c :: ps, rest)
  | c :: rest =>
    if c = '\x22' then some ([], rest)
    else if c.toNat < 0x20 ∨ c = '\\' then none
    else do
      let (ps, rest) ← pieces rest
      some (.char c :: ps, rest)

def isLeading (n : Nat) : Bool := 0xd800 ≤ n && n < 0xdc00

def isTrailing (n : Nat) : Bool := 0xdc00 ≤ n && n < 0xe000

/-- The characters of a string. A leading surrogate has to be followed by a trailing one, and
neither stands alone. -/
def characters : List Piece → Option (List Char)
  | [] => some []
  | .char c :: rest => (characters rest).map (c :: ·)
  | .unit n :: .unit m :: rest =>
    if isLeading n then
      if isTrailing m then
        (characters rest).map (Char.ofNat (0x10000 + (n - 0xd800) * 0x400 + (m - 0xdc00)) :: ·)
      else none
    else if isTrailing n then none
    else (characters (.unit m :: rest)).map (Char.ofNat n :: ·)
  | .unit n :: rest =>
    if isLeading n ∨ isTrailing n then none else (characters rest).map (Char.ofNat n :: ·)

def string (cs : List Char) : Option (Option String × List Char) := do
  let (ps, rest) ← pieces cs
  some ((characters ps).map String.ofList, rest)

/-! ### Values -/

def keyword : (word cs : List Char) → Option (List Char)
  | [], cs => some cs
  | w :: word, c :: cs => if w = c then keyword word cs else none
  | _ :: _, [] => none

mutual
def value : (fuel : Nat) → List Char → Option (Json × List Char)
  | 0, _ => none
  | fuel + 1, cs =>
    match skipBlanks cs with
    | [] => none
    | c :: rest =>
      if c = 'n' then (keyword "ull".toList rest).map (.null, ·)
      else if c = 't' then (keyword "rue".toList rest).map (.bool true, ·)
      else if c = 'f' then (keyword "alse".toList rest).map (.bool false, ·)
      else if c = '\x22' then do
        let (s, rest) ← string rest
        some (.string s, rest)
      else if c = '[' then
        match skipBlanks rest with
        | ']' :: rest => some (.array [], rest)
        | rest => do
          let (vs, rest) ← elements fuel rest
          some (.array vs, rest)
      else if c = '\x7b' then
        match skipBlanks rest with
        | '\x7d' :: rest => some (.object [], rest)
        | rest => do
          let (ms, rest) ← members fuel rest
          some (.object ms, rest)
      else do
        let (n, rest) ← numeral (c :: rest)
        some (.number n, rest)

def elements : (fuel : Nat) → List Char → Option (List Json × List Char)
  | 0, _ => none
  | fuel + 1, cs => do
    let (v, rest) ← value fuel cs
    match skipBlanks rest with
    | ',' :: rest =>
      let (vs, rest) ← elements fuel rest
      some (v :: vs, rest)
    | ']' :: rest => some ([v], rest)
    | _ => none

def members : (fuel : Nat) → List Char → Option (List (Option String × Json) × List Char)
  | 0, _ => none
  | fuel + 1, cs =>
    match skipBlanks cs with
    | '\x22' :: rest => do
      let (key, rest) ← string rest
      match skipBlanks rest with
      | ':' :: rest =>
        let (v, rest) ← value fuel rest
        match skipBlanks rest with
        | ',' :: rest =>
          let (ms, rest) ← members fuel rest
          some ((key, v) :: ms, rest)
        | '\x7d' :: rest => some ([(key, v)], rest)
        | _ => none
      | _ => none
    | _ => none
end

end Reader

open Reader in
def read? (text : String) : Option Json :=
  let cs := text.toList
  match value (2 * cs.length + 2) cs with
  | some (j, rest) => if (skipBlanks rest).isEmpty then some j else none
  | none => none

end Json

end VhdlDesign
