import ServiceBus.Toml.Basic
import ServiceBus.Text.Hex

/-!
# TOML scalars

Readers for the parts of a TOML document that have no parts: blanks and comments, keys, texts in
four notations, numbers in four bases, and points in time. Each takes the characters from its place
on and gives what it read with the characters after it.
-/

namespace ServiceBus.Toml

/-- Reads something at the front of a document. -/
abbrev Reader (α : Type) := List Char → Option (α × List Char)

/-! ### Blanks, comments and line ends -/

def isBlank (c : Char) : Bool := c = ' ' || c = '\t'

/-- Any character but a control character; a tab is allowed. -/
def isPlain (c : Char) : Bool := c = '\t' || (decide (32 ≤ c.toNat) && decide (c.toNat ≠ 127))

def skipBlanks (cs : List Char) : List Char := cs.dropWhile isBlank

def newline? : List Char → Option (List Char)
  | '\n' :: rest => some rest
  | '\r' :: '\n' :: rest => some rest
  | _ => none

/-- Skips a comment, if one starts here, up to the line end. -/
def skipComment : List Char → List Char
  | '#' :: rest => rest.dropWhile isPlain
  | cs => cs

/-- The end of a line: blanks, perhaps a comment, and a line end or the end of the document. -/
def lineEnd? (cs : List Char) : Option (List Char) :=
  match skipComment (skipBlanks cs) with
  | [] => some []
  | rest => newline? rest

/-- Skips blanks, comments and line ends, starting inside a comment or not. -/
def skipLines : Bool → List Char → List Char
  | _, [] => []
  | _, '\n' :: cs => skipLines false cs
  | _, '\r' :: '\n' :: cs => skipLines false cs
  | true, c :: cs => if isPlain c then skipLines true cs else c :: cs
  | false, c :: cs =>
    if isBlank c then skipLines false cs
    else if c = '#' then skipLines true cs
    else c :: cs

/-- Skips blanks, comments and line ends. -/
def skipSpace (cs : List Char) : List Char := skipLines false cs

/-! ### Texts -/

def hexDigits? : Nat → Nat → Reader Nat
  | 0, acc, cs => some (acc, cs)
  | n + 1, acc, c :: cs => do
    let d ← Hex.value? c
    hexDigits? n (acc * 16 + d) cs
  | _ + 1, _, [] => none

def scalar? (n : Nat) : Option Char :=
  if n < 0xD800 ∨ (0xDFFF < n ∧ n ≤ 0x10FFFF) then some (Char.ofNat n) else none

/-- The character an escape stands for, after its backslash. -/
def escape? : Reader Char
  | 'b' :: cs => some (Char.ofNat 8, cs)
  | 'f' :: cs => some (Char.ofNat 12, cs)
  | 'n' :: cs => some ('\n', cs)
  | 'r' :: cs => some ('\r', cs)
  | 't' :: cs => some ('\t', cs)
  | '"' :: cs => some ('"', cs)
  | '\\' :: cs => some ('\\', cs)
  | 'u' :: cs => do
    let (n, rest) ← hexDigits? 4 0 cs
    some (← scalar? n, rest)
  | 'U' :: cs => do
    let (n, rest) ← hexDigits? 8 0 cs
    some (← scalar? n, rest)
  | _ => none

/-- A text on one line up to its closing quote; so many characters at most. -/
def quoted? (quote : Char) (escapes : Bool) : Nat → List Char → Reader String
  | 0, _, _ => none
  | _ + 1, _, [] => none
  | n + 1, acc, c :: cs =>
    if c = quote then some (String.ofList acc.reverse, cs)
    else if c = '\\' ∧ escapes then do
      let (d, rest) ← escape? cs
      quoted? quote escapes n (d :: acc) rest
    else if isPlain c then quoted? quote escapes n (c :: acc) cs
    else none

/-- Skips what a backslash at the end of a line joins: blanks, a line end, and all blanks and line
ends after it. -/
def joinedLines? (cs : List Char) : Option (List Char) :=
  (newline? (skipBlanks cs)).map (skip cs.length)
where
  /-- Skips blanks and line ends. -/
  skip : Nat → List Char → List Char
    | 0, cs => cs
    | n + 1, cs =>
      let after := skipBlanks cs
      match newline? after with
      | some rest => skip n rest
      | none => after

/-- A text over several lines up to its three closing quotes, before which one or two more quotes
belong to the text; so many characters at most. -/
def block? (quote : Char) (escapes : Bool) : Nat → List Char → Reader String
  | 0, _, _ => none
  | _ + 1, _, [] => none
  | n + 1, acc, c :: cs =>
    if c = quote then
      let more := (cs.takeWhile (· = quote)).length
      if more < 2 then block? quote escapes n (c :: acc) cs
      else
        let own := min (more - 2) 2
        some (String.ofList (acc.reverse ++ List.replicate own quote), cs.drop (own + 2))
    else if c = '\\' ∧ escapes then
      match joinedLines? cs with
      | some rest => block? quote escapes n acc rest
      | none => do
        let (d, rest) ← escape? cs
        block? quote escapes n (d :: acc) rest
    else if isPlain c then block? quote escapes n (c :: acc) cs
    else do
      let rest ← newline? (c :: cs)
      block? quote escapes n ('\n' :: acc) rest

/-- A text over several lines, after its opening quotes; a line end right after them is skipped. -/
def afterOpening? (quote : Char) (escapes : Bool) (cs : List Char) : Option (String × List Char) :=
  block? quote escapes (cs.length + 1) [] ((newline? cs).getD cs)

def text? : Reader String
  | '"' :: '"' :: '"' :: cs => afterOpening? '"' true cs
  | '\'' :: '\'' :: '\'' :: cs => afterOpening? '\'' false cs
  | '"' :: cs => quoted? '"' true (cs.length + 1) [] cs
  | '\'' :: cs => quoted? '\'' false (cs.length + 1) [] cs
  | _ => none

/-! ### Keys -/

def isKeyChar (c : Char) : Bool :=
  ('a' ≤ c && c ≤ 'z') || ('A' ≤ c && c ≤ 'Z') || ('0' ≤ c && c ≤ '9') || c = '_' || c = '-'

/-- One part of a key: bare, or a text on one line. -/
def keyPart? : Reader String
  | '"' :: cs => quoted? '"' true (cs.length + 1) [] cs
  | '\'' :: cs => quoted? '\'' false (cs.length + 1) [] cs
  | cs =>
    match cs.takeWhile isKeyChar with
    | [] => none
    | k => some (String.ofList k, cs.dropWhile isKeyChar)

/-- A dotted key of at most so many parts, with blanks around each part. -/
def key? : Nat → Reader (List String)
  | 0, _ => none
  | n + 1, cs => do
    let (k, rest) ← keyPart? (skipBlanks cs)
    match skipBlanks rest with
    | '.' :: more =>
      let (ks, rest) ← key? n more
      some (k :: ks, rest)
    | rest => some ([k], rest)

/-- How many parts a key may have, and how many arrays and inline tables a value may nest. -/
def nesting : Nat := 79

/-- A dotted key: the parts before the last, and the last. -/
def pathAndName? (cs : List Char) : Option ((List String × String) × List Char) := do
  let (ks, rest) ← key? nesting cs
  let name ← ks.getLast?
  some ((ks.dropLast, name), rest)

/-! ### Numbers -/

def digitIn? (base : Nat) (c : Char) : Option Nat := (Hex.value? c).filter (· < base)

/-- Digits in a base; an underscore may stand between two of them. -/
def digitsIn (base : Nat) : List Char → List Nat × List Char
  | [] => ([], [])
  | '_' :: c :: cs =>
    match digitIn? base c with
    | some d => let (ds, rest) := digitsIn base cs; (d :: ds, rest)
    | none => ([], '_' :: c :: cs)
  | c :: cs =>
    match digitIn? base c with
    | some d => let (ds, rest) := digitsIn base cs; (d :: ds, rest)
    | none => ([], c :: cs)

/-- Digits in a base, the first of them not after an underscore. -/
def someDigitsIn (base : Nat) : Reader (List Nat)
  | '_' :: _ => none
  | cs =>
    match digitsIn base cs with
    | ([], _) => none
    | r => some r

def ofDigits (base : Nat) (ds : List Nat) : Nat := ds.foldl (fun n d => n * base + d) 0

/-- One more than the greatest whole number of 64 bits with a sign. -/
def signedLimit : Nat := 0x8000000000000000

/-- A whole number that fits in 64 bits with a sign. -/
def int? (negative : Bool) (n : Nat) : Option Toml :=
  if negative then if n ≤ signedLimit then some (.int (-(n : Int))) else none
  else if n < signedLimit then some (.int n) else none

/-- A sign, if there is one; `true` for a minus. -/
def sign : List Char → Bool × List Char
  | '+' :: cs => (false, cs)
  | '-' :: cs => (true, cs)
  | cs => (false, cs)

/-- Decimal digits without a leading zero, or a zero alone. -/
def decimal? : Reader (List Nat)
  | '0' :: cs => some ([0], cs)
  | cs => someDigitsIn 10 cs

def fraction? : Reader (Option (List Nat))
  | '.' :: cs => (someDigitsIn 10 cs).map fun (ds, rest) => (some ds, rest)
  | cs => some (none, cs)

/-- The digits of an exponent, after its letter. -/
def exponentValue? (cs : List Char) : Option (Int × List Char) :=
  let (negative, cs) := sign cs
  (someDigitsIn 10 cs).map fun (ds, rest) =>
    (if negative then -(ofDigits 10 ds : Int) else ofDigits 10 ds, rest)

def exponent? : Reader (Option Int)
  | 'e' :: cs => (exponentValue? cs).map fun (e, rest) => (some e, rest)
  | 'E' :: cs => (exponentValue? cs).map fun (e, rest) => (some e, rest)
  | cs => some (none, cs)

/-- The least whole number that no finite double is nearest to. -/
def tooLarge : Nat := Nat.pow 2 1024 - Nat.pow 2 970

/-- Whether `n · 10 ^ e` is too large for a double. -/
def overflows (n : Nat) (e : Int) : Bool :=
  let lead := ((Nat.toDigits 10 n).length : Int) + e
  if n = 0 then false
  else if lead < 300 then false
  else if 320 < lead then true
  else decide (tooLarge * Nat.pow 10 (-e).toNat ≤ n * Nat.pow 10 e.toNat)

/-- A number in decimal notation. One with a fraction or an exponent is a double, and must not be
too large for one. -/
def decimalNumber? (cs : List Char) : Option (Toml × List Char) := do
  let (negative, cs) := sign cs
  let (whole, cs) ← decimal? cs
  let (fraction, cs) ← fraction? cs
  let (exponent, cs) ← exponent? cs
  if fraction.isNone ∧ exponent.isNone then
    some (← int? negative (ofDigits 10 whole), cs)
  else
    let ds := fraction.getD []
    if !negative && overflows (ofDigits 10 (whole ++ ds)) (exponent.getD 0 - ds.length) then none
    else some (.float, cs)

def special? (cs : List Char) : Option (Toml × List Char) :=
  match (sign cs).2 with
  | 'i' :: 'n' :: 'f' :: rest => some (.float, rest)
  | 'n' :: 'a' :: 'n' :: rest => some (.float, rest)
  | _ => none

/-- A whole number in a base, after its two-character mark. -/
def based? (base : Nat) (cs : List Char) : Option (Toml × List Char) := do
  let (ds, rest) ← someDigitsIn base cs
  some (← int? false (ofDigits base ds), rest)

def number? : Reader Toml
  | '0' :: 'x' :: cs => based? 16 cs
  | '0' :: 'o' :: cs => based? 8 cs
  | '0' :: 'b' :: cs => based? 2 cs
  | cs => (decimalNumber? cs).orElse fun _ => special? cs

/-! ### Points in time -/

/-- So many decimal digits, spelling a number within bounds. -/
def field? (width low high : Nat) (cs : List Char) : Option (Nat × List Char) := do
  let ds ← (cs.take width).mapM (digitIn? 10)
  let n := ofDigits 10 ds
  if ds.length = width ∧ low ≤ n ∧ n ≤ high then some (n, cs.drop width) else none

def mark? (c : Char) : List Char → Option (List Char)
  | d :: cs => if d = c then some cs else none
  | [] => none

def daysIn (year month : Nat) : Nat :=
  if month = 2 then
    if (year % 4 = 0 ∧ year % 100 ≠ 0) ∨ year % 400 = 0 then 29 else 28
  else if month = 4 ∨ month = 6 ∨ month = 9 ∨ month = 11 then 30
  else 31

def date? (cs : List Char) : Option (List Char) := do
  let (year, cs) ← field? 4 0 9999 cs
  let cs ← mark? '-' cs
  let (month, cs) ← field? 2 1 12 cs
  let cs ← mark? '-' cs
  let (_, cs) ← field? 2 1 (daysIn year month) cs
  some cs

/-- A time of day, with or without a fraction of a second. -/
def time? (cs : List Char) : Option (List Char) := do
  let (_, cs) ← field? 2 0 23 cs
  let cs ← mark? ':' cs
  let (_, cs) ← field? 2 0 59 cs
  let cs ← mark? ':' cs
  let (_, cs) ← field? 2 0 60 cs
  match cs with
  | '.' :: rest =>
    match rest.takeWhile (fun c => (digitIn? 10 c).isSome) with
    | [] => none
    | ds => some (rest.drop ds.length)
  | cs => some cs

/-- An offset from universal time, if there is one. -/
def offset? : List Char → Option (List Char)
  | 'Z' :: cs | 'z' :: cs => some cs
  | '+' :: cs | '-' :: cs => do
    let (_, cs) ← field? 2 0 23 cs
    let cs ← mark? ':' cs
    let (_, cs) ← field? 2 0 59 cs
    some cs
  | cs => some cs

def isTimeMark (c : Char) : Bool := c = 'T' || c = 't' || c = ' '

def datetime? (cs : List Char) : Option (Toml × List Char) :=
  match date? cs with
  | some after =>
    match after with
    | c :: rest =>
      if isTimeMark c then
        match time? rest with
        | some rest => (offset? rest).map fun rest => (.datetime, rest)
        | none => some (.datetime, after)
      else some (.datetime, after)
    | [] => some (.datetime, [])
  | none => (time? cs).map fun rest => (.datetime, rest)

def scalarValue? : Reader Toml
  | 't' :: 'r' :: 'u' :: 'e' :: cs => some (.bool true, cs)
  | 'f' :: 'a' :: 'l' :: 's' :: 'e' :: cs => some (.bool false, cs)
  | cs =>
    match cs with
    | '"' :: _ | '\'' :: _ => (text? cs).map fun (s, rest) => (.text s, rest)
    | _ => (datetime? cs).orElse fun _ => number? cs

end ServiceBus.Toml
