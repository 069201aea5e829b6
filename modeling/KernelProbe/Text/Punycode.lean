import KernelProbe.Text.Digits

/-!
# Punycode

A text with characters outside ASCII as its ASCII characters and a code, which says where the
other characters go in, in the order of their numbers. The code is a sequence of numbers in a
base of 36 digits, lowest digit first, each with its own mark for the last digit.
-/

namespace KernelProbe.Text.Punycode

/-- The value of a digit. -/
def digit? (c : Char) : Option Nat :=
  if 'a' ≤ c ∧ c ≤ 'z' then some (c.toNat - 'a'.toNat)
  else if '0' ≤ c ∧ c ≤ '9' then some (c.toNat - '0'.toNat + 26)
  else none

/-- The value below which a digit is the last one, at `place` digits before it. -/
def threshold (bias place : Nat) : Nat :=
  min (max ((place + 1) * 36 - bias) 1) 26

/-- The number at the start of a code, whose first digits made up `value` so far and whose next
    digit counts `weight`, and the code behind it. -/
def number? (bias : Nat) : (place weight value : Nat) → List Char → Option (Nat × List Char)
  | _, _, _, [] => none
  | place, weight, value, c :: r =>
    match digit? c with
    | none => none
    | some d =>
      let t := threshold bias place
      if d < t then some (value + d * weight, r)
      else number? bias (place + 1) (weight * (36 - t)) (value + d * weight) r

theorem length_of_number? {bias place weight value n : Nat} {s r : List Char}
    (h : number? bias place weight value s = some (n, r)) : r.length < s.length := by
  induction s generalizing place weight value with
  | nil => simp [number?] at h
  | cons c t ih =>
    simp only [number?] at h
    split at h
    · contradiction
    · split at h
      · cases h
        simp
      · exact Nat.lt_succ_of_lt (ih h)

/-- Divides a number until it is small, and counts 36 for each division. -/
def shrink (delta : Nat) : Nat × Nat :=
  if delta ≤ 455 then (0, delta)
  else
    let (k, rest) := shrink (delta / 35)
    (k + 36, rest)
  termination_by delta
  decreasing_by omega

/-- The bias after a number, when the text has `length` characters. -/
def adapt (isFirst : Bool) (delta length : Nat) : Nat :=
  let delta := if isFirst then delta / 700 else delta / 2
  let (k, rest) := shrink (delta + delta / length)
  k + 36 * rest / (rest + 38)

/-- Puts characters into a text: the next one comes at the place and with the number that the
    next delta leads to. -/
def insertAll (limit : Nat) (isFirst : Bool) (bias place point : Nat) (text code : List Char) :
    Option (List Char) :=
  match _h : number? bias 0 1 0 code with
  | none => none
  | some (delta, r) =>
    let length := text.length + 1
    let point := point + (place + delta) / length
    let place := (place + delta) % length
    let c := Char.ofNat point
    if c.toNat ≠ point ∨ limit < length then none
    else
      let text := text.take place ++ c :: text.drop place
      if r.isEmpty then some text
      else insertAll limit false (adapt isFirst delta length) (place + 1) point text r
  termination_by code.length
  decreasing_by exact length_of_number? _h

/-- The text of an ASCII part and a code, if it has at most `limit` characters. -/
def decode? (limit : Nat) (ascii code : List Char) : Option (List Char) :=
  if limit < ascii.length then none else insertAll limit true 72 0 0x80 ascii code

end KernelProbe.Text.Punycode
