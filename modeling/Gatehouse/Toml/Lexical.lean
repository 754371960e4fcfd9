import Gatehouse.Text.Chars

/-!
# Blanks, line ends and strings of TOML

* `lineEnd?` : the end of a line, with the comment in front of it;
* `skipLines` : blanks, comments and line ends between the items of an array;
* `string?` : a string in any of its four notations;
* `key?` : a dotted key as its parts.
-/

namespace Gatehouse.Toml

open Gatehouse.Text

/-! ## Blanks and lines -/

def isBlank (c : Char) : Bool := c = ' ' || c = '\t'

/-- A character that may stand in a comment or a string: no control character but the tab. -/
def isPlain (c : Char) : Bool := c = '\t' || (0x20 ≤ c.toNat && c.toNat ≠ 0x7f)

def skipBlank (s : List Char) : List Char := s.dropWhile isBlank

/-- What follows the line end in front of `s`. -/
def newLine? : List Char → Option (List Char)
  | '\n' :: s => some s
  | '\r' :: '\n' :: s => some s
  | _ => none

def skipComment : List Char → List Char
  | '#' :: s => s.dropWhile isPlain
  | s => s

/-- What follows when nothing but blanks and a comment is left of the line. -/
def lineEnd? (s : List Char) : Option (List Char) :=
  match skipComment (skipBlank s) with
  | [] => some []
  | c :: s => newLine? (c :: s)

/-- `s` without up to `n` lines that hold nothing, and without the blanks in front. -/
def skipLines : Nat → List Char → List Char
  | 0, s => skipBlank s
  | n + 1, s =>
    match newLine? (skipComment (skipBlank s)) with
    | some rest => skipLines n rest
    | none => skipBlank s

/-- `s` without the blanks, comments and line ends in front. -/
def skipFiller (s : List Char) : List Char := skipLines s.length s

/-! ## Escapes -/

def shortEscape? (c : Char) : Option Char :=
  if c = 'b' then some '\x08'
  else if c = 't' then some '\t'
  else if c = 'n' then some '\n'
  else if c = 'f' then some '\x0c'
  else if c = 'r' then some '\r'
  else if c = '"' then some '"'
  else if c = '\\' then some '\\'
  else none

/-- The character of a code point, unless that is a surrogate or too large. -/
def scalar? (n : Nat) : Option Char :=
  if n < 0xd800 ∨ (0xe000 ≤ n ∧ n < 0x110000) then some (.ofNat n) else none

/-- How many digits the code point after `c` has. -/
def codeWidth? (c : Char) : Option Nat :=
  if c = 'u' then some 4 else if c = 'U' then some 8 else none

/-- The character that is escaped at the front of `s`, the backslash being behind. -/
def escape? : List Char → Option (Char × List Char)
  | [] => none
  | c :: s =>
    match codeWidth? c with
    | some width =>
      if width ≤ s.length then
        ((number? 16 (s.take width)).bind scalar?).map fun x => (x, s.drop width)
      else none
    | none => (shortEscape? c).map fun x => (x, s)

theorem length_of_escape? {s r : List Char} {x : Char} (h : escape? s = some (x, r)) :
    r.length < s.length := by
  unfold escape? at h
  split at h
  · simp at h
  · split at h
    · split at h
      · simp only [Option.map_eq_some_iff, Prod.mk.injEq] at h
        obtain ⟨_, _, _, rfl⟩ := h
        simp only [List.length_drop, List.length_cons]
        omega
      · simp at h
    · simp only [Option.map_eq_some_iff, Prod.mk.injEq] at h
      obtain ⟨_, _, _, rfl⟩ := h
      simp

/-! ## Strings on one line -/

/-- The rest of a string between double quotes; `acc` holds what has been read, in reverse. -/
def basicRest? (acc s : List Char) : Option (List Char × List Char) :=
  match s with
  | [] => none
  | c :: s =>
    if c = '"' then some (acc.reverse, s)
    else if c = '\\' then
      match _h : escape? s with
      | some (x, r) => basicRest? (x :: acc) r
      | none => none
    else if isPlain c then basicRest? (c :: acc) s
    else none
termination_by s.length
decreasing_by
  · have := length_of_escape? _h
    simp only [List.length_cons]
    omega
  · simp

/-- The rest of a string between single quotes, in which nothing is escaped. -/
def literalRest? : List Char → Option (List Char × List Char)
  | [] => none
  | c :: s =>
    if c = '\x27' then some ([], s)
    else if isPlain c then (literalRest? s).map fun (t, r) => (c :: t, r)
    else none

/-! ## Strings on several lines -/

/-- `s` without the line end in front. -/
def skipNewLine (s : List Char) : List Char := (newLine? s).getD s

/-- `s` without blanks and line ends in front. -/
def skipBlankLines : List Char → List Char
  | '\r' :: '\n' :: s => skipBlankLines s
  | c :: s => if isBlank c ∨ c = '\n' then skipBlankLines s else c :: s
  | [] => []

/-- What follows a backslash at the end of a line: the next character that is not blank. -/
def continued? (s : List Char) : Option (List Char) := (newLine? (skipBlank s)).map skipBlankLines

/-- The end of a string on several lines, three quotes being behind. Up to two quotes more belong to
the string. -/
def closeMultiline? (q : Char) (acc s : List Char) : Option (List Char × List Char) :=
  let extra := (s.takeWhile (· = q)).length
  if extra ≤ 2 then some (acc.reverse ++ List.replicate extra q, s.drop extra) else none

theorem length_skipBlankLines (s : List Char) : (skipBlankLines s).length ≤ s.length := by
  fun_induction skipBlankLines s with
  | case1 s ih => simp only [List.length_cons]; omega
  | case2 c s _ _ ih => simp only [List.length_cons]; omega
  | case3 => simp
  | case4 => simp

theorem length_of_newLine? {s r : List Char} (h : newLine? s = some r) : r.length < s.length := by
  unfold newLine? at h
  split at h <;> cases h <;> simp only [List.length_cons] <;> omega

theorem length_of_continued? {s r : List Char} (h : continued? s = some r) :
    r.length < s.length := by
  simp only [continued?, Option.map_eq_some_iff] at h
  obtain ⟨t, ht, rfl⟩ := h
  have h1 := length_of_newLine? ht
  have h2 := length_skipBlankLines t
  have h3 : (skipBlank s).length ≤ s.length := (List.dropWhile_sublist _).length_le
  omega

/-- The rest of a string between three quotes `q`. Every line end counts as a line feed. -/
def multilineRest? (q : Char) (escapes : Bool) (acc s : List Char) :
    Option (List Char × List Char) :=
  match s with
  | [] => none
  | c :: s =>
    if c = q then
      match s with
      | a :: b :: r =>
        if a = q ∧ b = q then closeMultiline? q acc r
        else multilineRest? q escapes (c :: acc) (a :: b :: r)
      | _ => none
    else if escapes ∧ c = '\\' then
      match _h : continued? s with
      | some r => multilineRest? q escapes acc r
      | none =>
        match _h : escape? s with
        | some (x, r) => multilineRest? q escapes (x :: acc) r
        | none => none
    else
      match _h : newLine? (c :: s) with
      | some r => multilineRest? q escapes ('\n' :: acc) r
      | none => if isPlain c then multilineRest? q escapes (c :: acc) s else none
termination_by s.length
decreasing_by
  · simp
  · have := length_of_continued? _h
    simp only [List.length_cons]
    omega
  · have := length_of_escape? _h
    simp only [List.length_cons]
    omega
  · exact length_of_newLine? _h
  · simp

def string? (s : List Char) : Option (List Char × List Char) :=
  match s with
  | '"' :: '"' :: '"' :: s => multilineRest? '"' true [] (skipNewLine s)
  | '\x27' :: '\x27' :: '\x27' :: s => multilineRest? '\x27' false [] (skipNewLine s)
  | '"' :: s => basicRest? [] s
  | '\x27' :: s => literalRest? s
  | _ => none

/-! ## Keys -/

def isBareKeyChar (c : Char) : Bool := c.isAlphanum || c = '_' || c = '-'

/-- One part of a key in front of `s`, with the blanks around it. -/
def keyPart? (s : List Char) : Option (String × List Char) := do
  let s := skipBlank s
  let (part, rest) ←
    match s with
    | '"' :: s => basicRest? [] s
    | '\x27' :: s => literalRest? s
    | s =>
      let (part, rest) := s.span isBareKeyChar
      if part.isEmpty then none else some (part, rest)
  return (.ofList part, skipBlank rest)

def maxKeyParts : Nat := 79

/-- A key of up to `n` parts in front of `s`, with the blanks around it. -/
def keyParts? : Nat → List Char → Option (List String × List Char)
  | 0, _ => none
  | n + 1, s =>
    match keyPart? s with
    | none => none
    | some (part, '.' :: rest) => (keyParts? n rest).map fun (parts, rest) => (part :: parts, rest)
    | some (part, rest) => some ([part], rest)

/-- A dotted key in front of `s`, with the blanks around it. -/
def key? (s : List Char) : Option (List String × List Char) := keyParts? maxKeyParts s

end Gatehouse.Toml
