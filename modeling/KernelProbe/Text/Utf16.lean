/-!
# UTF-16

`encode` writes a text as code units; `decode?` reads code units in which every surrogate
belongs to a pair of a high and a low one.
-/

namespace KernelProbe.Text.Utf16

/-- The code units of a character. -/
def encodeChar (c : Char) : List UInt16 :=
  let n := c.toNat
  if n < 0x10000 then [n.toUInt16]
  else
    [(0xD800 + (n - 0x10000) / 0x400).toUInt16, (0xDC00 + (n - 0x10000) % 0x400).toUInt16]

/-- The code units of a text. -/
def encode (s : List Char) : List UInt16 :=
  s.flatMap encodeChar

/-- Whether a unit is the first half of a pair. -/
def isHigh (u : UInt16) : Bool :=
  0xD800 ≤ u.toNat && u.toNat < 0xDC00

/-- Whether a unit is the second half of a pair. -/
def isLow (u : UInt16) : Bool :=
  0xDC00 ≤ u.toNat && u.toNat < 0xE000

/-- The character of a pair. -/
def pair (high low : UInt16) : Char :=
  Char.ofNat (0x10000 + (high.toNat - 0xD800) * 0x400 + (low.toNat - 0xDC00))

/-- The text of code units in which every surrogate is paired. -/
def decode? : List UInt16 → Option (List Char)
  | [] => some []
  | u :: r =>
    if isHigh u then
      match r with
      | [] => none
      | v :: r' => if isLow v then (decode? r').map (pair u v :: ·) else none
    else if isLow u then none
    else (decode? r).map (Char.ofNat u.toNat :: ·)

end KernelProbe.Text.Utf16
