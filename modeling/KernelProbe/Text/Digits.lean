/-!
# Numbers in digits

Whole numbers are read from digits of a base with an optional plus sign, below a limit, and a
failure says which of three things is wrong first: no text, a character that is no digit, or a
value that reaches the limit. They are printed in a base without sign or padding, in lower
case.
-/

namespace KernelProbe.Text

/-- Why a text is no number. -/
inductive NumberError
  | empty
  | invalidDigit
  | tooLarge
  deriving DecidableEq, Repr

/-- The wording of a number error. -/
def NumberError.message : NumberError → String
  | .empty => "cannot parse integer from empty string"
  | .invalidDigit => "invalid digit found in string"
  | .tooLarge => "number too large to fit in target type"

/-- The value of a digit or letter as a digit of base 16, both cases alike. -/
def digitValue? (c : Char) : Option Nat :=
  if '0' ≤ c ∧ c ≤ '9' then some (c.toNat - '0'.toNat)
  else if 'a' ≤ c ∧ c ≤ 'f' then some (c.toNat - 'a'.toNat + 10)
  else if 'A' ≤ c ∧ c ≤ 'F' then some (c.toNat - 'A'.toNat + 10)
  else none

/-- The value of a digit of the given base (at most 16). -/
def digit? (base : Nat) (c : Char) : Option Nat :=
  (digitValue? c).filter (· < base)

/-- Whether a character is a digit of base 16. -/
def isHexDigit (c : Char) : Bool :=
  (digitValue? c).isSome

/-- Whether a character is a digit of base 10. -/
def isDecimalDigit (c : Char) : Bool :=
  '0' ≤ c && c ≤ '9'

/-- The number below `limit` that `value` becomes when the digits are appended to it. -/
def appendDigits (base limit : Nat) (value : Nat) : List Char → Except NumberError Nat
  | [] => .ok value
  | c :: r =>
    match digit? base c with
    | none => .error .invalidDigit
    | some d =>
      if value * base + d < limit then appendDigits base limit (value * base + d) r
      else .error .tooLarge

/-- Reads a number below `limit`, with an optional plus sign. -/
def readNumber (base limit : Nat) : List Char → Except NumberError Nat
  | [] => .error .empty
  | '+' :: c :: r => appendDigits base limit 0 (c :: r)
  | s => appendDigits base limit 0 s

/-- Reads an address or another unsigned number of 64 bits. -/
def readWord64 (base : Nat) (s : List Char) : Except NumberError UInt64 :=
  (readNumber base UInt64.size s).map UInt64.ofNat

/-- Reads an unsigned number of 32 bits. -/
def readWord32 (base : Nat) (s : List Char) : Except NumberError UInt32 :=
  (readNumber base UInt32.size s).map UInt32.ofNat

/-- Reads the digits behind a minus sign as a negative number of 64 bits, and gives its two's
    complement. -/
def readNegative64 : List Char → Except NumberError UInt64
  | [] => .error .invalidDigit
  | s => (appendDigits 10 (UInt64.size / 2 + 1) 0 s).map fun n => 0 - UInt64.ofNat n

/-- The digit of a value below 16. -/
def digitChar (d : Nat) : Char :=
  if d < 10 then Char.ofNat ('0'.toNat + d) else Char.ofNat ('a'.toNat + d - 10)

/-- The digits of a number in a base of at least 2. -/
def digits (base n : Nat) : List Char :=
  if base < 2 ∨ n < base then [digitChar n]
  else digits base (n / base) ++ [digitChar (n % base)]
  termination_by n
  decreasing_by exact Nat.div_lt_self (by omega) (by omega)

/-- A number in decimal digits. -/
def decimal (n : Nat) : String :=
  String.ofList (digits 10 n)

/-- A number in hexadecimal digits, after `0x`. -/
def hex (n : Nat) : String :=
  "0x" ++ String.ofList (digits 16 n)

/-- A number in hexadecimal digits, filled up to `width` digits, after `0x`. -/
def paddedHex (width n : Nat) : String :=
  let ds := digits 16 n
  "0x" ++ String.ofList (List.replicate (width - ds.length) '0' ++ ds)

theorem digitValue?_digitChar {d : Nat} (h : d < 16) : digitValue? (digitChar d) = some d := by
  have all : ∀ d < 16, digitValue? (digitChar d) = some d := by decide
  exact all d h

theorem digit?_digitChar {base d : Nat} (hb : base ≤ 16) (h : d < base) :
    digit? base (digitChar d) = some d := by
  simp [digit?, digitValue?_digitChar (Nat.lt_of_lt_of_le h hb), h]

end KernelProbe.Text
