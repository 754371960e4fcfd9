/-!
# Circuits

A circuit is closed while the backend behind it works, open while the backend is taken to be down,
and half-open while calls are let through to find out.
-/

namespace Gatehouse

inductive Circuit where
  | closed
  | opened
  | halfOpen
  deriving DecidableEq, Repr, Inhabited

namespace Circuit

def name : Circuit → String
  | closed => "closed"
  | opened => "open"
  | halfOpen => "half_open"

def gauge : Circuit → Nat
  | closed => 0
  | halfOpen => 1
  | opened => 2

end Circuit

end Gatehouse
