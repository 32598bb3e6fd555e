import ServiceBus.Json.Basic
import ServiceBus.Decimal.Shortest
import ServiceBus.Text.Hex

/-!
# Written JSON

`Json.render` writes a value without blanks. Only quotes, backslashes and control characters of a
text are escaped; a double-precision number is written with the fewest digits that read back,
positionally when its first digit stands between `10 ^ -5` and `10 ^ 15`.
-/

namespace ServiceBus.Json

/-- Numbers keep `.0` when they are whole and put a plus before an exponent. -/
def layout : Decimal.Layout := ⟨-5, 15, ".0", "+"⟩

/-- A number that is not finite has no written form and stands as `null`. -/
def renderNumber : Number → String
  | .int i => toString i
  | .float x => if x.isFinite then Decimal.write layout x else "null"

/-- The written form of one character of a text. -/
def escape (c : Char) : List Char :=
  if c = '"' then ['\\', '"']
  else if c = '\\' then ['\\', '\\']
  else if c = '\n' then ['\\', 'n']
  else if c = '\r' then ['\\', 'r']
  else if c = '\t' then ['\\', 't']
  else if c.toNat = 8 then ['\\', 'b']
  else if c.toNat = 12 then ['\\', 'f']
  else if c.toNat < 32 then '\\' :: 'u' :: Hex.digits 4 c.toNat
  else [c]

def renderText (s : String) : String :=
  "\"" ++ String.ofList (s.toList.flatMap escape) ++ "\""

mutual

def render : Json → String
  | .null => "null"
  | .bool b => if b then "true" else "false"
  | .number n => renderNumber n
  | .text s => renderText s
  | .array xs => "[" ++ renderItems xs ++ "]"
  | .object ms => "\x7b" ++ renderMembers ms ++ "\x7d"

/-- The items of an array, with commas between them. -/
def renderItems : List Json → String
  | [] => ""
  | [x] => render x
  | x :: y :: rest => render x ++ "," ++ renderItems (y :: rest)

/-- The members of an object, with commas between them. -/
def renderMembers : List (String × Json) → String
  | [] => ""
  | [(k, x)] => renderText k ++ ":" ++ render x
  | (k, x) :: m :: rest => renderText k ++ ":" ++ render x ++ "," ++ renderMembers (m :: rest)

end

end ServiceBus.Json
