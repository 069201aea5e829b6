import KernelProbe.Text.Digits
import KernelProbe.Text.Visible

/-!
# Quoted texts

A quoted text shows every character that is visible by itself as it is, and all others by an
escape: a letter behind a backslash where there is one, else the number of the character in
hexadecimal digits between braces. Of the two kinds of quotes, only the one around the text
needs an escape in it.
-/

namespace KernelProbe.Text

/-- The escape of a character by its number. -/
def escapeByNumber (c : Char) : List Char :=
  "\\u\x7b".toList ++ digits 16 c.toNat ++ ['\x7d']

/-- The spelling of a character between a given kind of quotes. -/
def escapeChar (quote c : Char) : List Char :=
  if c = '\x00' then ['\\', '0']
  else if c = '\t' then ['\\', 't']
  else if c = '\r' then ['\\', 'r']
  else if c = '\n' then ['\\', 'n']
  else if c = '\\' || c = quote then ['\\', c]
  else if isCombining c || !isPrintable c then escapeByNumber c
  else [c]

/-- A text between quotes of a given kind. -/
def quotedBy (quote : Char) (text : List Char) : List Char :=
  quote :: text.flatMap (escapeChar quote) ++ [quote]

/-- A text between double quotes. -/
def quoted (s : String) : String :=
  String.ofList (quotedBy '"' s.toList)

end KernelProbe.Text
