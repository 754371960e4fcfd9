import Gatehouse.Text.Quoted

/-!
# Values in short

A value is shown in short as a tag with its parts: by position in parentheses, or by name in braces.
A list stands in brackets.
-/

namespace Gatehouse.Text

def listed (items : List (List Char)) : List Char := [',', ' '].intercalate items

def shown (s : String) : List Char := quote s.toList

/-- A tag with its parts by position. -/
def tuple (tag : String) (parts : List (List Char)) : List Char :=
  tag.toList ++ '(' :: listed parts ++ [')']

/-- A tag with its parts by name. -/
def record (tag : String) (parts : List (String × List Char)) : List Char :=
  tag.toList ++ [' ', '{', ' '] ++ listed (parts.map fun p => p.1.toList ++ [':', ' '] ++ p.2)
    ++ [' ', '}']

def bracketed (items : List (List Char)) : List Char := '[' :: listed items ++ [']']

end Gatehouse.Text
