import ServiceBus.Text.Printable
import ServiceBus.Text.Hex

/-!
# Quoted text in diagnostics

A text in a diagnostic stands between double quotes. Quotes and backslashes get a backslash, four
control characters a letter, and every other character that is not shown as it is stands as its
code point in braces. In a path an apostrophe gets a backslash, too.
-/

namespace ServiceBus.Quoted

def escape (c : Char) : List Char :=
  if c = '"' then ['\\', '"']
  else if c = '\\' then ['\\', '\\']
  else if c = '\n' then ['\\', 'n']
  else if c = '\r' then ['\\', 'r']
  else if c = '\t' then ['\\', 't']
  else if c.toNat = 0 then ['\\', '0']
  else if Printable.shown c then [c]
  else ['\\', 'u', '\x7b'] ++ Hex.plain c.toNat ++ ['\x7d']

def write (s : String) : String := "\"" ++ String.ofList (s.toList.flatMap escape) ++ "\""

def path (s : String) : String :=
  let escaped := s.toList.flatMap fun c => if c = '\x27' then ['\\', c] else escape c
  "\"" ++ String.ofList escaped ++ "\""

end ServiceBus.Quoted
