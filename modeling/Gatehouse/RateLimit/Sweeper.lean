import Gatehouse.RateLimit.Limiter

/-!
# The sweeper

The sweeper sweeps a limiter at fixed intervals. The clock wakes it on whole milliseconds; a jump of
the clock over several of its moments wakes it once, at the end of the jump.

* `Sweeper.start?` : a sweeper, unless its interval is zero or beyond the clock;
* `Sweeper.wake` : what it does when the clock has moved.
-/

namespace Gatehouse

/-- A sweeper: the moment of its next sweep and the interval between sweeps. -/
structure Sweeper where
  next : Moment
  interval : Span
  deriving DecidableEq, Repr, Inhabited

namespace Sweeper

def start? (interval : Span) (now : Moment) : Option Sweeper :=
  if 0 < interval ∧ now + interval < lastMoment then some ⟨now + interval, interval⟩ else none

/-- The first of the moments of a sweeper that is still to come. -/
def advance (s : Sweeper) (now : Moment) : Sweeper :=
  { s with next := s.next + ((tick now - s.next) / s.interval + 1) * s.interval }

/-- What a sweeper does when the clock has moved to `now`. -/
def wake {α : Type} (s : Sweeper) (l : Limiter α) (now : Moment) :
    Sweeper × Limiter α × List Event :=
  if isDue s.next now then
    let (removed, l, events) := l.sweep now
    (s.advance now, l, events ++ if 0 < removed then [.notice .bucketsEvicted] else [])
  else (s, l, [])

end Sweeper

end Gatehouse
