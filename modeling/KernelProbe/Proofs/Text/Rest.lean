import KernelProbe.Text.Rest

/-!
# What a reader finds

`Gives` says what a reader found at the start of a text and what it left, without the proof that
the rest is shorter.
-/

namespace KernelProbe.Text.Rest

variable {α : Type} {s r : List Char} {a : α} {c : Char}

/-- A reader found a value and left a rest. -/
def Gives (found : Option (α × Rest s)) (a : α) (r : List Char) : Prop :=
  ∃ h, found = some (a, ⟨r, h⟩)

theorem gives_some {rest : Rest s} : Gives (some (a, rest)) a rest.val :=
  ⟨rest.2, rfl⟩

theorem gives_of_eq {found : Option (α × Rest s)} {rest : Rest s} (h : found = some (a, rest)) :
    Gives found a rest.val :=
  h ▸ gives_some

theorem Gives.length_lt {found : Option (α × Rest s)} (h : Gives found a r) :
    r.length < s.length :=
  h.1

theorem Gives.unique {found : Option (α × Rest s)} {a' : α} {r' : List Char}
    (h : Gives found a r) (h' : Gives found a' r') : a = a' ∧ r = r' := by
  obtain ⟨_, rfl⟩ := h
  obtain ⟨_, h'⟩ := h'
  cases h'
  exact ⟨rfl, rfl⟩

theorem not_gives_none : ¬Gives (none : Option (α × Rest s)) a r := by
  rintro ⟨_, ⟨⟩⟩

theorem exists_of_map {β : Type} {found : Option β} {f : β → α × Rest s}
    (h : Gives (found.map f) a r) : ∃ b, found = some b ∧ (f b).1 = a ∧ (f b).2.val = r := by
  cases found with
  | none => exact absurd h not_gives_none
  | some b =>
    obtain ⟨ha, hr⟩ := gives_some.unique h
    exact ⟨b, rfl, ha, hr⟩

theorem behind?_eq_some {rest rest' : Rest s} :
    rest.behind? c = some rest' ↔ rest.val = c :: rest'.val := by
  obtain ⟨_ | ⟨d, r⟩, h⟩ := rest
  · simp [behind?]
  · simp only [behind?]
    split
    · next hd => simp [hd, Subtype.ext_iff]
    · next hd => simp [hd]

theorem behind?_eq_none {rest : Rest s} : rest.behind? c = none ↔ rest.val.head? ≠ some c := by
  obtain ⟨_ | ⟨d, r⟩, h⟩ := rest
  · simp [behind?]
  · simp [behind?]

/-- A rest that starts with the character. -/
theorem behind?_self {h : (c :: r).length < s.length} :
    behind? c (⟨c :: r, h⟩ : Rest s) = some ⟨r, Nat.lt_of_succ_lt h⟩ :=
  if_pos rfl

/-- A rest that starts with another character. -/
theorem behind?_of_ne {d : Char} (hd : d ≠ c) {h : (d :: r).length < s.length} :
    behind? c (⟨d :: r, h⟩ : Rest s) = none :=
  if_neg hd

end KernelProbe.Text.Rest
