import KernelProbe.Text.Blank
import KernelProbe.Text.Digits
import KernelProbe.Text.Search

/-!
# Numbers as the debugger displays them

The debugger displays a value as a number or truth value, with the type in parentheses before
it where the type is not obvious, and with a symbol or text behind it where it has one.
-/

namespace KernelProbe.Gdb

open Text

/-- The text behind the parenthesis that closes the `depth` ones that are open. -/
def afterClosing? : (depth : Nat) → List Char → Option (List Char)
  | _, [] => none
  | depth, '(' :: r => afterClosing? (depth + 1) r
  | depth, ')' :: r => if depth ≤ 1 then some r else afterClosing? (depth - 1) r
  | depth, _ :: r => afterClosing? depth r

/-- The text without the type in parentheses at its start. -/
def afterType? : List Char → Option (List Char)
  | '(' :: r => afterClosing? 1 r
  | s => some s

/-- The number that a word stands for: hexadecimal behind `0x`, else decimal, with a minus sign
    for a number of 64 bits with a sign. -/
def readNumber? : List Char → Option UInt64
  | '0' :: 'x' :: ds => (readWord64 16 ds).toOption
  | '-' :: ds => (readNegative64 ds).toOption
  | ds => (readWord64 10 ds).toOption

/-- The number that a displayed value stands for. -/
def readValue? (text : String) : Option UInt64 :=
  let s := trim text.toList
  if s = "true".toList then some 1
  else if s = "false".toList then some 0
  else do
    let word ← firstWord? (← afterType? s)
    readNumber? word

end KernelProbe.Gdb
