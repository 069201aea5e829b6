import KernelProbe.Text.Blank
import KernelProbe.Text.Digits
import KernelProbe.Text.Search

/-!
# Names of the older mangling

The older scheme writes a path as `_ZN`, its elements with their lengths in front, and `E`. An
element spells characters that no linker name may have by codes between dollar signs and a
double colon by two dots. The last element may be a hash, which is not shown.
-/

namespace KernelProbe.Symbols.Legacy

open Text

/-- What stands behind the leading mark of the scheme. -/
def body? (s : List Char) : Option (List Char) :=
  (afterStart? "_ZN".toList s <|> afterStart? "ZN".toList s)
    <|> afterStart? "__ZN".toList s

/-- The element at the start of a text, with its length in front, and the text behind it. -/
def element? (s : List Char) : Option (List Char × List Char) :=
  match readNumber 10 (s.length + 1) (s.takeWhile isDecimalDigit) with
  | .error _ => none
  | .ok n =>
    let r := s.dropWhile isDecimalDigit
    if n < r.length then some (r.take n, r.drop n) else none

theorem length_of_element? {s e r : List Char} (h : element? s = some (e, r)) :
    r.length < s.length := by
  unfold element? at h
  split at h
  · contradiction
  · rename_i n hn
    have hd := length_dropWhile_le isDecimalDigit s
    have hne : s.takeWhile isDecimalDigit ≠ [] := by
      intro he
      rw [he] at hn
      simp [readNumber] at hn
    have hsplit := congrArg List.length
      (@List.takeWhile_append_dropWhile _ isDecimalDigit s)
    have hpos := List.length_pos_iff.mpr hne
    simp only [List.length_append] at hsplit
    dsimp only at h
    split at h
    · cases h
      simp only [List.length_drop]
      omega
    · contradiction

/-- The elements up to the closing `E`, and the text behind it. -/
def elements? (s : List Char) : Option (List (List Char) × List Char) :=
  match s with
  | [] => none
  | 'E' :: r => some ([], r)
  | c :: r =>
    match _h : element? (c :: r) with
    | none => none
    | some (e, r') => (elements? r').map fun (es, rest) => (e :: es, rest)
  termination_by s.length
  decreasing_by exact length_of_element? _h

/-- Whether an element is a hash. -/
def isHash : List Char → Bool
  | 'h' :: r => r.all isHexDigit
  | _ => false

/-- The elements that are shown. -/
def withoutHash (es : List (List Char)) : List (List Char) :=
  match es.getLast? with
  | some e => if isHash e then es.dropLast else es
  | none => es

/-- Whether a digit is one of the lower-case ones of base 16. -/
def isLowerHexDigit (c : Char) : Bool :=
  isDecimalDigit c || ('a' ≤ c && c ≤ 'f')

/-- Whether a character is a control character. -/
def isControl (c : Char) : Bool :=
  c.toNat < 0x20 || (0x7F ≤ c.toNat && c.toNat < 0xA0)

/-- The character with a number, given in lower-case hexadecimal digits; no control character
    has one. -/
def numbered? (ds : List Char) : Option Char :=
  match readNumber 16 0x110000 ds with
  | .error _ => none
  | .ok n =>
    let c := Char.ofNat n
    if ds.all isLowerHexDigit && c.toNat = n && !isControl c then some c else none

/-- The character that a code between dollar signs stands for. -/
def coded? (code : List Char) : Option Char :=
  if code = ['S', 'P'] then some '@'
  else if code = ['B', 'P'] then some '*'
  else if code = ['R', 'F'] then some '&'
  else if code = ['L', 'T'] then some '<'
  else if code = ['G', 'T'] then some '>'
  else if code = ['L', 'P'] then some '('
  else if code = ['R', 'P'] then some ')'
  else if code = ['C'] then some ','
  else
    match code with
    | 'u' :: ds => numbered? ds
    | _ => none

/-- The text that an element spells; from a code that stands for nothing on it is left as it
    is. -/
def unescape (s : List Char) : List Char :=
  match s with
  | [] => []
  | '.' :: '.' :: r => ':' :: ':' :: unescape r
  | '$' :: r =>
    match _h : splitAt? '$' r with
    | none => '$' :: r
    | some (code, behind) =>
      match coded? code with
      | some c => c :: unescape behind
      | none => '$' :: r
  | c :: r => c :: unescape r
  termination_by s.length
  decreasing_by
    · simp only [List.length_cons]
      omega
    · have := length_of_splitAt? _h
      simp only [List.length_cons]
      omega
    · simp

/-- An element for display. -/
def showElement : List Char → List Char
  | '_' :: '$' :: r => unescape ('$' :: r)
  | e => unescape e

/-- The path that a name of the scheme stands for, and the text behind the name. -/
def demangle? (s : List Char) : Option (String × List Char) := do
  let body ← body? s
  if body.all (·.toNat < 0x80) then
    let (es, rest) ← elements? body
    let path := (withoutHash es).map (String.ofList ∘ showElement)
    some (String.intercalate "::" path, rest)
  else none

end KernelProbe.Symbols.Legacy
