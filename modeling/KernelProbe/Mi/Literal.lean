import KernelProbe.Text.Rest
import KernelProbe.Text.Utf8

/-!
# String literals

A literal stands between double quotes. Inside, a backslash starts an escape: of a control
character by `n`, `t` or `r`, of a byte by one to three octal digits, and of any other character
by itself. The bytes of a literal are read as UTF-8, with U+FFFD for what is none. `quote`
writes a text with the fewest escapes.
-/

namespace KernelProbe.Mi.Literal

open Text

/-- The value of an octal digit. -/
def octalDigit? (c : Char) : Option Nat :=
  if '0' ≤ c ∧ c ≤ '7' then some (c.toNat - '0'.toNat) else none

/-- Appends at most `count` octal digits to a value; gives the value and the rest. -/
def appendOctal : (count value : Nat) → List Char → Nat × List Char
  | 0, value, s => (value, s)
  | _ + 1, value, [] => (value, [])
  | count + 1, value, c :: r =>
    match octalDigit? c with
    | some d => appendOctal count (value * 8 + d) r
    | none => (value, c :: r)

theorem length_appendOctal (count value : Nat) (s : List Char) :
    (appendOctal count value s).2.length ≤ s.length := by
  induction count generalizing value s with
  | zero => simp [appendOctal]
  | succ count ih =>
    cases s with
    | nil => simp [appendOctal]
    | cons c r =>
      simp only [appendOctal]
      split
      · exact Nat.le_succ_of_le (ih ..)
      · exact Nat.le_refl _

/-- The bytes of an escape, given the text behind its backslash, and the text behind it. -/
def escaped? (s : List Char) : Option (List UInt8 × Rest s) :=
  match s with
  | [] => none
  | e :: r =>
    if e = 'n' then some ([10], Rest.tail e r)
    else if e = 't' then some ([9], Rest.tail e r)
    else if e = 'r' then some ([13], Rest.tail e r)
    else
      match octalDigit? e with
      | some d =>
        some ([(appendOctal 2 d r).1.toUInt8],
          ⟨(appendOctal 2 d r).2, Nat.lt_succ_of_le (length_appendOctal ..)⟩)
      | none => some (Utf8.encodeChar e, Rest.tail e r)

/-- The bytes of the first unit of a literal's inside, and the text behind it; nothing at a
    quote and where the text ends. -/
def unit? (s : List Char) : Option (List UInt8 × Rest s) :=
  match s with
  | [] => none
  | c :: r =>
    if c = '"' then none
    else if c = '\\' then
      (escaped? r).map fun (bytes, rest) => (bytes, rest.within (Nat.le_succ _))
    else some (Utf8.encodeChar c, Rest.tail c r)

/-- The bytes up to the closing quote, and the text behind it. -/
def body? (s : List Char) : Option (List UInt8 × Rest s) :=
  match s with
  | [] => none
  | c :: r =>
    if c = '"' then some ([], Rest.tail c r)
    else
      match unit? (c :: r) with
      | none => none
      | some (bytes, ⟨t, shorter⟩) =>
        match body? t with
        | none => none
        | some (more, rest) => some (bytes ++ more, rest.within (Nat.le_of_lt shorter))
  termination_by s.length
  decreasing_by exact shorter

/-- The text of a literal, and the text behind it. -/
def read? (s : List Char) : Option (String × Rest s) :=
  match s with
  | '"' :: r =>
    (body? r).map fun (bytes, rest) =>
      (String.ofList (Utf8.decodeLossy bytes), rest.within (Nat.le_succ _))
  | _ => none

/-- The spelling of a character inside a literal. -/
def escape (c : Char) : List Char :=
  if c = '"' then ['\\', '"']
  else if c = '\\' then ['\\', '\\']
  else if c = '\n' then ['\\', 'n']
  else if c = '\t' then ['\\', 't']
  else if c = '\r' then ['\\', 'r']
  else [c]

/-- A text as a literal. -/
def quote (s : String) : String :=
  String.ofList ('"' :: s.toList.flatMap escape ++ ['"'])

end KernelProbe.Mi.Literal
