/-!
# Blanks

The blanks of every text this library reads are the characters with the Unicode property
`White_Space`: trimming removes them at the ends, words are the maximal runs without them.
All functions work on lists of characters; `trimmed` is the one for strings.
-/

namespace KernelProbe.Text

/-- Whether a character has the Unicode property `White_Space`. -/
def isBlank (c : Char) : Bool :=
  let n := c.toNat
  (9 ≤ n && n ≤ 13) || n == 0x20 || n == 0x85 || n == 0xA0 || n == 0x1680
    || (0x2000 ≤ n && n ≤ 0x200A) || n == 0x2028 || n == 0x2029 || n == 0x202F
    || n == 0x205F || n == 0x3000

/-- The text without its leading blanks. -/
def trimStart (s : List Char) : List Char :=
  s.dropWhile isBlank

/-- The text without its trailing blanks. -/
def trimEnd (s : List Char) : List Char :=
  s.foldr (fun c r => if r.isEmpty && isBlank c then [] else c :: r) []

/-- The text without leading and trailing blanks. -/
def trim (s : List Char) : List Char :=
  trimEnd (trimStart s)

/-- The string without leading and trailing blanks. -/
def trimmed (s : String) : String :=
  String.ofList (trim s.toList)

/-- The text before the first blank and the text after it; all and nothing if there is none. -/
def splitAtBlank (s : List Char) : List Char × List Char :=
  (s.takeWhile (!isBlank ·), (s.dropWhile (!isBlank ·)).drop 1)

/-- The first word of the text, if it has one. -/
def firstWord? (s : List Char) : Option (List Char) :=
  match (trimStart s).takeWhile (!isBlank ·) with
  | [] => none
  | w => some w

theorem length_dropWhile_le (p : Char → Bool) (s : List Char) :
    (s.dropWhile p).length ≤ s.length := by
  induction s with
  | nil => simp
  | cons c r ih =>
    simp only [List.dropWhile_cons, List.length_cons]
    split
    · omega
    · simp

/-- The words of the text, in order. -/
def words (s : List Char) : List (List Char) :=
  match _h : trimStart s with
  | [] => []
  | c :: r => (c :: r).takeWhile (!isBlank ·) :: words (r.dropWhile (!isBlank ·))
  termination_by s.length
  decreasing_by
    have h₁ := length_dropWhile_le isBlank s
    have h₂ := length_dropWhile_le (!isBlank ·) r
    rw [trimStart] at _h
    rw [_h] at h₁
    simp at h₁
    omega

theorem trimEnd_nil : trimEnd [] = [] := rfl

end KernelProbe.Text
