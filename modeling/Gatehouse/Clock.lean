import Gatehouse.Text.Chars

/-!
# Time

Moments and spans are whole numbers of nanoseconds. A moment counts from the start of the clock, and
the span from a later moment to an earlier one is zero.

* `Span.seconds`, `Span.wholeMillis` : spans in seconds and milliseconds;
* `Span.text` : a span in the greatest unit that it fills, with the fraction it needs;
* `deadline`, `isDue` : when a timer runs out, and whether it has.
-/

namespace Gatehouse

open Gatehouse.Text

abbrev Moment := Nat

abbrev Span := Nat

def nanosPerSecond : Nat := 1000000000

def elapsed (now earlier : Moment) : Span := now - earlier

theorem le_elapsed {earlier now : Moment} {span : Span} (h : earlier + span ≤ now) :
    span ≤ elapsed now earlier :=
  Nat.le_sub_of_add_le' h

namespace Span

def seconds (n : Nat) : Span := n * nanosPerSecond

def millis (n : Nat) : Span := n * 1000000

/-- The whole milliseconds of a span, in sixty-four bits. -/
def wholeMillis (s : Span) : Nat := s / 1000000 % UInt64.size

/-- A span in units of `unit` nanoseconds: the whole units, and the rest as a fraction of
`places` digits without the zeros at its end. -/
def inUnit (unit places : Nat) (name : List Char) (s : Span) : List Char :=
  let fraction := dropEnd '0' (padZero places (decimal (s % unit)))
  decimal (s / unit) ++ (if fraction.isEmpty then [] else '.' :: fraction) ++ name

/-- A span in the greatest unit that it fills. -/
def text (s : Span) : List Char :=
  if nanosPerSecond ≤ s then inUnit nanosPerSecond 9 ['s'] s
  else if 1000000 ≤ s then inUnit 1000000 6 ['m', 's'] s
  else if 1000 ≤ s then inUnit 1000 3 ['µ', 's'] s
  else decimal s ++ ['n', 's']

/-- A span in seconds as a machine number: the whole seconds and the rest, each rounded. -/
def toFloat (s : Span) : Float :=
  (s / nanosPerSecond).toUInt64.toFloat + (s % nanosPerSecond).toUInt64.toFloat / 1e9

end Span

/-! ## Timers -/

/-- The last moment of the clock, which counts its seconds in sixty-four bits with a sign. -/
def lastMoment : Moment := Span.seconds 0x7fffffffffffffff

/-- The moment at which a timer runs out that is set at `now`. One that would run beyond the clock
runs out after thirty years. -/
def deadline (now : Moment) (span : Span) : Moment :=
  if now + span < lastMoment then now + span else now + Span.seconds (86400 * 365 * 30)

/-- The last moment up to `now` at which the clock wakes anyone, which it does on whole
milliseconds. -/
def tick (now : Moment) : Moment := now / 1000000 * 1000000

def isDue (deadline now : Moment) : Bool := deadline ≤ tick now

end Gatehouse
