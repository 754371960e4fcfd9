import Gatehouse.Number.Binary64
import Gatehouse.Telemetry.Metrics

/-!
# The metrics page

The metrics are shown as lines of text: a line for each counter and gauge, and for each series of
spans the number of spans up to each bound, their sum and their number.

* `Exposition.lines` : the lines of a series;
* `Exposition.page` : the lines of all series, in order of their text.
-/

namespace Gatehouse.Exposition

open Gatehouse.Number Gatehouse.Text

/-- The bounds that spans are counted by, in seconds. -/
def latencyBounds : List Float :=
  [0.001, 0.005, 0.01, 0.025, 0.05, 0.1, 0.25, 0.5, 1, 2.5, 5, 10, 30]

/-- A number with as many digits as it needs, and no point when it is whole. -/
def numberText (f : Float) : List Char :=
  let s := Binary64.positional ⟨f.toBits⟩
  if ['.', '0'].isSuffixOf s then s.take (s.length - 2) else s

def escape (c : Char) : List Char :=
  if c = '\\' then ['\\', '\\']
  else if c = '"' then ['\\', '"']
  else if c = '\n' then ['\\', 'n']
  else [c]

def labelText (label : String × String) : List Char :=
  label.1.toList ++ ['=', '"'] ++ label.2.toList.flatMap escape ++ ['"']

def labelsText (labels : List (String × String)) : List Char :=
  match labels with
  | [] => []
  | l :: ls => '{' :: labelText l ++ (ls.flatMap fun l => ',' :: labelText l) ++ ['}']

def line (name : String) (labels : List (String × String)) (value : List Char) : String :=
  .ofList (name.toList ++ labelsText labels ++ ' ' :: value)

def countUpTo (bound : Float) (spans : List Span) : Nat :=
  (spans.filter fun s => Span.toFloat s ≤ bound).length

def spanLines (name : String) (labels : List (String × String)) (spans : List Span) : List String :=
  let bucket (bound : List Char) (count : Nat) : String :=
    line (name ++ "_bucket") (labels ++ [("le", .ofList bound)]) (decimal count)
  latencyBounds.map (fun b => bucket (numberText b) (countUpTo b spans))
    ++ [bucket "+Inf".toList spans.length,
      line (name ++ "_sum") labels (numberText ((spans.map Span.toFloat).foldl (· + ·) 0)),
      line (name ++ "_count") labels (decimal spans.length)]

def lines (s : Series) : List String :=
  match s.value with
  | .counter n => [line s.name s.labels (decimal n)]
  | .gauge n => [line s.name s.labels (decimal n)]
  | .spans ss => spanLines s.name s.labels ss

/-- The lines of all series, in order of their text. -/
def page (m : Metrics) : List String := (m.flatMap lines).mergeSort

end Gatehouse.Exposition
