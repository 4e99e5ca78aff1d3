namespace MarkSweep

def nanosPerSecond : Nat := 1000000000

/-- An exact span of time. Sums are checked against that limit. -/
structure Duration where
  nanos : Nat
  /-- Whole seconds fit 64 bits. -/
  nanos_lt : nanos < UInt64.size * nanosPerSecond
deriving DecidableEq

namespace Duration

def zero : Duration := ⟨0, by decide⟩

instance : Inhabited Duration := ⟨zero⟩

/-- The span of `seconds` and `nanos`, or nothing if its seconds do not fit 64 bits. -/
def ofParts? (seconds nanos : Nat) : Option Duration :=
  if h : seconds * nanosPerSecond + nanos < UInt64.size * nanosPerSecond then some ⟨_, h⟩ else none

def seconds (d : Duration) : Nat := d.nanos / nanosPerSecond

/-- What is left of the span after its whole seconds, in nanoseconds. -/
def subsecond (d : Duration) : Nat := d.nanos % nanosPerSecond

/-- The sum, unless its seconds do not fit 64 bits. -/
def add? (d e : Duration) : Option Duration :=
  if h : d.nanos + e.nanos < UInt64.size * nanosPerSecond then some ⟨_, h⟩ else none

/-- The last second of the clock, which counts seconds in a signed 64-bit word. -/
def lastClockSecond : Nat := 9223372036854775807

/-- Whether a clock that reads `now` can show the time that is `limit` later. -/
def reachesDeadline (now limit : Duration) : Bool :=
  (now.nanos + limit.nanos) / nanosPerSecond ≤ lastClockSecond

/-- `n` in decimal with leading zeros up to `width` digits. -/
private def padded (width n : Nat) : List Char :=
  let digits := Nat.toDigits 10 n
  List.replicate (width - digits.length) '0' ++ digits

/-- The value `whole + part / 10 ^ width`, exactly and without trailing zeros. -/
private def decimal (whole part width : Nat) : String :=
  let fraction := ((padded width part).reverse.dropWhile (· == '0')).reverse
  if fraction.isEmpty then toString whole
  else toString whole ++ "." ++ String.ofList fraction

/-- The exact value in the largest unit with a non-zero integer part; the empty span in
nanoseconds. -/
def render (d : Duration) : String :=
  if nanosPerSecond ≤ d.nanos then
    decimal (d.nanos / nanosPerSecond) (d.nanos % nanosPerSecond) 9 ++ "s"
  else if 1000000 ≤ d.nanos then
    decimal (d.nanos / 1000000) (d.nanos % 1000000) 6 ++ "ms"
  else if 1000 ≤ d.nanos then
    decimal (d.nanos / 1000) (d.nanos % 1000) 3 ++ "µs"
  else
    decimal d.nanos 0 0 ++ "ns"

end Duration

end MarkSweep
