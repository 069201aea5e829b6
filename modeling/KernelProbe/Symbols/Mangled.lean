import KernelProbe.Text.Digits
import KernelProbe.Text.Utf8

/-!
# Words of the newer mangling

The newer scheme is a grammar over ASCII characters. This module reads its words: numbers in
base 62, bytes in hexadecimal digits, and identifiers, from where a `Reader` stands in a name.
-/

namespace KernelProbe.Symbols

open Text

/-- Why a name cannot be read on. -/
inductive ReadError
  | invalid
  | tooDeep
  deriving DecidableEq, Repr

/-- The mark that stands for the rest of a name that cannot be read on. -/
def ReadError.message : ReadError → String
  | .invalid => "\x7binvalid syntax\x7d"
  | .tooDeep => "\x7brecursion limit reached\x7d"

/-- A place in a name, and how deep the reading is nested there. -/
structure Reader where
  /-- The whole name. -/
  name : List Char
  /-- What is left of it. -/
  rest : List Char
  depth : Nat

/-- A step of reading. -/
abbrev Read (α : Type) := StateT Reader (Except ReadError) α

namespace Reader

/-- The start of a name. -/
def start (name : List Char) : Reader := ⟨name, name, 0⟩

/-- How much of the name is read. -/
def position (r : Reader) : Nat :=
  r.name.length - r.rest.length

/-- The deepest nesting. -/
def maxDepth : Nat := 500

/-- Goes one level deeper. -/
def enter : Read Unit := fun r =>
  if r.depth < maxDepth then .ok ((), { r with depth := r.depth + 1 }) else .error .tooDeep

/-- The next character. -/
def next : Read Char := fun r =>
  match r.rest with
  | [] => .error .invalid
  | c :: rest => .ok (c, { r with rest })

/-- Reads with a function on what is left. -/
def word {α : Type} (f : List Char → Option (α × List Char)) : Read α := fun r =>
  match f r.rest with
  | none => .error .invalid
  | some (a, rest) => .ok (a, { r with rest })

end Reader

/-- The value of a digit of base 62. -/
def digit62? (c : Char) : Option Nat :=
  if '0' ≤ c ∧ c ≤ '9' then some (c.toNat - '0'.toNat)
  else if 'a' ≤ c ∧ c ≤ 'z' then some (c.toNat - 'a'.toNat + 10)
  else if 'A' ≤ c ∧ c ≤ 'Z' then some (c.toNat - 'A'.toNat + 36)
  else none

/-- A number if it fits in 64 bits. -/
def word64? (n : Nat) : Option Nat :=
  if n < UInt64.size then some n else none

/-- The number whose digits follow up to an underscore, where `value` was read so far. -/
def digits62? : (value : Nat) → List Char → Option (Nat × List Char)
  | _, [] => none
  | value, c :: r =>
    if c = '_' then some (value, r)
    else do digits62? (← word64? (value * 62 + (← digit62? c))) r

/-- A number: nothing but an underscore is zero, and digits are one less than the number. -/
def number62? : List Char → Option (Nat × List Char)
  | '_' :: r => some (0, r)
  | s => do
    let (n, r) ← digits62? 0 s
    some (← word64? (n + 1), r)

/-- A number behind a tag, counted from 1; zero without the tag. -/
def tagged62? (tag : Char) : List Char → Option (Nat × List Char)
  | [] => some (0, [])
  | c :: r =>
    if c = tag then do
      let (n, r) ← number62? r
      some (← word64? (n + 1), r)
    else some (0, c :: r)

/-- Whether a character is a digit of a constant. -/
def isNibble (c : Char) : Bool :=
  isDecimalDigit c || ('a' ≤ c && c ≤ 'f')

/-- The digits of a constant, up to an underscore. -/
def nibbles? (s : List Char) : Option (List Char × List Char) :=
  match s.dropWhile isNibble with
  | '_' :: r => some (s.takeWhile isNibble, r)
  | _ => none

/-- The number that the digits of a constant stand for, if it fits in 64 bits. -/
def nibbleNumber? (ds : List Char) : Option Nat :=
  if ds.isEmpty then some 0 else (readNumber 16 UInt64.size ds).toOption

/-- The bytes that pairs of digits stand for. -/
def nibbleBytes? : List Char → Option (List UInt8)
  | [] => some []
  | [_] => none
  | a :: b :: r => do
    let n := (← digitValue? a) * 16 + (← digitValue? b)
    some (n.toUInt8 :: (← nibbleBytes? r))

/-- The text that the digits of a constant stand for. -/
def nibbleText? (ds : List Char) : Option (List Char) :=
  (nibbleBytes? ds).bind Utf8.decode?

/-- An identifier. -/
structure Identifier where
  /-- Its ASCII characters. -/
  ascii : List Char
  /-- The code for its other characters; empty if it has none. -/
  code : List Char

/-- Whether an identifier is empty. -/
def Identifier.isEmpty (i : Identifier) : Bool :=
  i.ascii.isEmpty && i.code.isEmpty

/-- The length in front of an identifier; a zero is no leading digit. -/
def identifierLength? (s : List Char) : Option (Nat × List Char) :=
  match s with
  | '0' :: r => some (0, r)
  | _ =>
    match s.takeWhile isDecimalDigit with
    | [] => none
    | ds => do
      let n ← (readNumber 10 UInt64.size ds).toOption
      some (n, s.dropWhile isDecimalDigit)

/-- The part before the last underscore and the one behind it; nothing and all without one. -/
def splitAtLastUnderscore (s : List Char) : List Char × List Char :=
  let code := (s.reverse.takeWhile (· ≠ '_')).reverse
  (s.take (s.length - code.length - 1), code)

/-- An identifier, with its length in front. -/
def identifier? (s : List Char) : Option (Identifier × List Char) := do
  let (coded, s) := match s with
    | 'u' :: r => (true, r)
    | s => (false, s)
  let (n, s) ← identifierLength? s
  let s := match s with
    | '_' :: r => r
    | s => s
  if s.length < n then none
  else if coded then
    let (ascii, code) := splitAtLastUnderscore (s.take n)
    if code.isEmpty then none else some (⟨ascii, code⟩, s.drop n)
  else some (⟨s.take n, []⟩, s.drop n)

namespace Reader

/-- The character of a namespace, if it is one that is shown. -/
def namespaceTag : Read (Option Char) := do
  let c ← next
  if 'A' ≤ c && c ≤ 'Z' then pure (some c)
  else if 'a' ≤ c && c ≤ 'z' then pure none
  else throw .invalid

/-- The place that a reference to an earlier part points to, one level deeper. -/
def reference : Read Reader := do
  let here := (← get).position - 1
  let i ← word number62?
  if i < here then
    let r ← get
    if r.depth < maxDepth then
      pure { r with rest := r.name.drop i, depth := r.depth + 1 }
    else throw .tooDeep
  else throw .invalid

end Reader

end KernelProbe.Symbols
