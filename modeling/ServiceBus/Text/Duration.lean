/-!
# Durations

A duration in whole milliseconds is written in seconds from one second on, in milliseconds below,
with as many decimals as it needs; no time at all is `0ns`.
-/

namespace ServiceBus.Duration

/-- Drops the zeros at the end. -/
def trimZeros (ds : List Char) : List Char := (ds.reverse.dropWhile (· = '0')).reverse

def display (ms : Nat) : String :=
  if ms = 0 then "0ns"
  else if ms < 1000 then toString ms ++ "ms"
  else
    let digits := (Nat.toDigits 10 (1000 + ms % 1000)).drop 1
    match trimZeros digits with
    | [] => toString (ms / 1000) ++ "s"
    | ds => toString (ms / 1000) ++ "." ++ String.ofList ds ++ "s"

end ServiceBus.Duration
