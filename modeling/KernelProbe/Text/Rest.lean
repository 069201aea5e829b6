/-!
# Rests

What is left of a text when something was read from its start is shorter than the text. A
`Rest` carries this fact, so that reading on from it ends.
-/

namespace KernelProbe.Text

/-- A text shorter than another one: what is left when something was read from its start. -/
abbrev Rest (s : List Char) := { r : List Char // r.length < s.length }

namespace Rest

/-- What is left of a text behind its first character. -/
def tail (c : Char) (r : List Char) : Rest (c :: r) :=
  ⟨r, Nat.lt_succ_self _⟩

@[simp]
theorem val_tail (c : Char) (r : List Char) : (tail c r).val = r := rfl

/-- The rest of a text as the rest of one that is no shorter. -/
def within {s t : List Char} (r : Rest t) (h : t.length ≤ s.length) : Rest s :=
  ⟨r.1, Nat.lt_of_lt_of_le r.2 h⟩

@[simp]
theorem val_within {s t : List Char} (r : Rest t) (h : t.length ≤ s.length) :
    (r.within h).val = r.val := rfl

/-- What is left behind a character that the rest has to start with. -/
def behind? {s : List Char} (c : Char) : Rest s → Option (Rest s)
  | ⟨[], _⟩ => none
  | ⟨d :: r, h⟩ => if d = c then some ⟨r, Nat.lt_of_succ_lt h⟩ else none

end Rest

end KernelProbe.Text
