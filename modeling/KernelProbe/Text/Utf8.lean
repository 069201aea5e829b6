/-!
# UTF-8

`encode` writes a text as bytes. `scan` reads bytes as a list of characters and flaws, a flaw
being a longest run of bytes that starts a character without finishing it, or a single byte
that starts none. `decode?` accepts bytes without flaws, `decodeLossy` puts U+FFFD for each.
-/

namespace KernelProbe.Text.Utf8

/-- The bytes of a character. -/
def encodeChar (c : Char) : List UInt8 :=
  let n := c.toNat
  if n < 0x80 then [n.toUInt8]
  else if n < 0x800 then [(0xC0 + n / 0x40).toUInt8, (0x80 + n % 0x40).toUInt8]
  else if n < 0x10000 then
    [(0xE0 + n / 0x1000).toUInt8, (0x80 + n / 0x40 % 0x40).toUInt8, (0x80 + n % 0x40).toUInt8]
  else
    [(0xF0 + n / 0x40000).toUInt8, (0x80 + n / 0x1000 % 0x40).toUInt8,
      (0x80 + n / 0x40 % 0x40).toUInt8, (0x80 + n % 0x40).toUInt8]

/-- The bytes of a text. -/
def encode (s : List Char) : List UInt8 :=
  s.flatMap encodeChar

/-- What a leading byte announces: how many bytes follow, its share of the character, and the
    least and greatest value of the byte behind it. -/
structure Lead where
  following : Nat
  value : Nat
  least : Nat
  greatest : Nat

/-- The reading of a byte as a leading byte of more than one byte. -/
def lead? (b : UInt8) : Option Lead :=
  let n := b.toNat
  if 0xC2 ≤ n ∧ n ≤ 0xDF then some ⟨1, n - 0xC0, 0x80, 0xBF⟩
  else if n = 0xE0 then some ⟨2, 0, 0xA0, 0xBF⟩
  else if n = 0xED then some ⟨2, 0xD, 0x80, 0x9F⟩
  else if 0xE1 ≤ n ∧ n ≤ 0xEF then some ⟨2, n - 0xE0, 0x80, 0xBF⟩
  else if n = 0xF0 then some ⟨3, 0, 0x90, 0xBF⟩
  else if 0xF1 ≤ n ∧ n ≤ 0xF3 then some ⟨3, n - 0xF0, 0x80, 0xBF⟩
  else if n = 0xF4 then some ⟨3, 4, 0x80, 0x8F⟩
  else none

/-- Reads the bytes behind a leading byte: the character, or nothing if the sequence breaks
    off, and the bytes from there on. -/
def follow : (following value least greatest : Nat) → List UInt8 → Option Char × List UInt8
  | 0, value, _, _, s => (some (Char.ofNat value), s)
  | _ + 1, _, _, _, [] => (none, [])
  | k + 1, value, least, greatest, b :: r =>
    if least ≤ b.toNat ∧ b.toNat ≤ greatest then
      follow k (value * 0x40 + (b.toNat - 0x80)) 0x80 0xBF r
    else (none, b :: r)

theorem length_follow (k value least greatest : Nat) (s : List UInt8) :
    (follow k value least greatest s).2.length ≤ s.length := by
  induction k generalizing value least greatest s with
  | zero => simp [follow]
  | succ k ih =>
    cases s with
    | nil => simp [follow]
    | cons b r =>
      simp only [follow]
      split
      · exact Nat.le_succ_of_le (ih ..)
      · exact Nat.le_refl _

/-- Reads bytes as characters (`some`) and flaws (`none`). -/
def scan : List UInt8 → List (Option Char)
  | [] => []
  | b :: r =>
    if b.toNat < 0x80 then some (Char.ofNat b.toNat) :: scan r
    else
      match lead? b with
      | none => none :: scan r
      | some l =>
        let found := follow l.following l.value l.least l.greatest r
        found.1 :: scan found.2
  termination_by s => s.length
  decreasing_by
    · simp
    · simp
    · have := length_follow l.following l.value l.least l.greatest r
      simp only [List.length_cons]
      omega

/-- The text of bytes without flaws. -/
def decode? (s : List UInt8) : Option (List Char) :=
  (scan s).mapM id

/-- The text of bytes, with U+FFFD for each flaw. -/
def decodeLossy (s : List UInt8) : List Char :=
  (scan s).map (·.getD '\uFFFD')

end KernelProbe.Text.Utf8
