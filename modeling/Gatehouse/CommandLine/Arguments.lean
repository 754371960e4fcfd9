import Gatehouse.Text.Chars

/-!
# Command-line arguments

Options have a long name, `--url VALUE` or `--url=VALUE`, and a letter, `-u VALUE`, `-uVALUE` or
`-u=VALUE`. They stand in front of the first argument that is not an option. Nothing is abbreviated
and no option comes twice.

* `Option.find?` : the option that an argument names, and the value in it;
* `read` : the options in front of some arguments, and the rest.
-/

namespace Gatehouse.CommandLine

open Gatehouse.Text

/-- An option that takes a value. -/
structure Flag where
  name : String
  letter : Char
  deriving DecidableEq, Repr

inductive UsageError where
  | unknown (argument : String)
  | missingValue (option : String)
  | repeated (option : String)
  | missing (what : String)
  deriving DecidableEq, Repr

inductive Reading (α : Type) where
  | understood (value : α)
  | helpWanted
  | misunderstood (error : UsageError)
  deriving Repr

namespace Reading

variable {α β : Type}

/-- What is understood goes on to the next step. -/
def andThen (r : Reading α) (f : α → Reading β) : Reading β :=
  match r with
  | understood a => f a
  | helpWanted => helpWanted
  | misunderstood e => misunderstood e

instance : Monad Reading where
  pure := understood
  bind := andThen

end Reading

def isFlagLike (s : List Char) : Bool := s.head? = some '-' && s ≠ ['-']

/-- The option that an argument names, with the value when the argument holds one. -/
def Flag.matched? (f : Flag) (s : List Char) : Option (Option (List Char)) :=
  match afterPrefix? ('-' :: '-' :: f.name.toList) s with
  | some [] => some none
  | some ('=' :: value) => some (some value)
  | _ =>
    match afterPrefix? ['-', f.letter] s with
    | some [] => some none
    | some ('=' :: value) => some (some value)
    | some value => some (some value)
    | none => none

def matched? (flags : List Flag) (s : List Char) : Option (Flag × Option (List Char)) :=
  flags.findSome? fun f => (f.matched? s).map fun v => (f, v)

/-- The values of the options that were given. -/
abbrev Values := List (String × String)

/-- The options in front of some arguments, and the arguments after them. -/
def read (flags : List Flag) (values : Values) : List String → Reading (Values × List String)
  | [] => .understood (values, [])
  | arg :: rest =>
    let s := arg.toList
    if s = "--".toList then .understood (values, rest)
    else if !isFlagLike s then .understood (values, arg :: rest)
    else if s = "-h".toList ∨ s = "--help".toList then .helpWanted
    else
      match matched? flags s with
      | none => .misunderstood (.unknown arg)
      | some (f, value) =>
        if (values.lookup f.name).isSome then .misunderstood (.repeated f.name)
        else
          match value, rest with
          | some v, rest => read flags ((f.name, .ofList v) :: values) rest
          | none, v :: rest =>
            if isFlagLike v.toList then .misunderstood (.missingValue f.name)
            else read flags ((f.name, v) :: values) rest
          | none, [] => .misunderstood (.missingValue f.name)

/-- The value of an option: as given, or from the environment. -/
def valueOf? (values : Values) (name : String) (fromEnvironment : Option String) : Option String :=
  (values.lookup name).or fromEnvironment

end Gatehouse.CommandLine
