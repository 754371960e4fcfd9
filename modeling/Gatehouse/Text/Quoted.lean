import Gatehouse.Text.Unprintable

/-!
# Quoted text

Text inside a message stands between double quotes. Quotes and backslashes are escaped by a
backslash, the usual control characters by a letter, and every other unprintable character by its
code point in braces.
-/

namespace Gatehouse.Text

def quoteChar (c : Char) : List Char :=
  if c = '"' then ['\\', '"']
  else if c = '\\' then ['\\', '\\']
  else if c = '\n' then ['\\', 'n']
  else if c = '\r' then ['\\', 'r']
  else if c = '\t' then ['\\', 't']
  else if c.toNat = 0 then ['\\', '0']
  else if isPrintable c then [c]
  else ['\\', 'u', '{'] ++ hexText c.toNat ++ ['}']

def quote (s : List Char) : List Char := '"' :: s.flatMap quoteChar ++ ['"']

end Gatehouse.Text
