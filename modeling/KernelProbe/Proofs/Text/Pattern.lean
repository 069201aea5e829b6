/-!
# Patterns

A pattern says which texts match it as a whole, and which parts of them its groups take. Where a
text matches in several ways, all of them count: which of them a search prefers is left open, so
what holds of every match holds under every such preference.
-/

namespace KernelProbe.Text

/-- At least one character, and all of a class. -/
structure IsRun (is : Char → Bool) (s : List Char) : Prop where
  ne_nil : s ≠ []
  all : ∀ c ∈ s, is c

theorem isRun_iff {is : Char → Bool} {s : List Char} : IsRun is s ↔ s ≠ [] ∧ s.all is :=
  ⟨fun h => ⟨h.ne_nil, List.all_eq_true.2 h.all⟩, fun h => ⟨h.1, List.all_eq_true.1 h.2⟩⟩

instance (is : Char → Bool) (s : List Char) : Decidable (IsRun is s) :=
  decidable_of_iff _ isRun_iff.symm

/-- A pattern of characters and groups. -/
inductive Pattern
  | literal (s : List Char)
  /-- Any number of characters of a class. -/
  | many (is : Char → Bool)
  /-- At least one character of a class. -/
  | some (is : Char → Bool)
  /-- The pattern or nothing. -/
  | optional (p : Pattern)
  | group (p : Pattern)
  | seq (p q : Pattern)

namespace Pattern

/-- Patterns one behind the other. -/
def row : List Pattern → Pattern
  | [] => literal []
  | [p] => p
  | p :: ps => seq p (row ps)

/-- A text matches a pattern, and the groups take these parts of it, from the left. -/
def Matches : Pattern → List Char → List (List Char) → Prop
  | literal t, s, groups => s = t ∧ groups = []
  | many is, s, groups => (∀ c ∈ s, is c) ∧ groups = []
  | some is, s, groups => IsRun is s ∧ groups = []
  | optional p, s, groups => (s = [] ∧ groups = []) ∨ p.Matches s groups
  | group p, s, groups => ∃ inner, p.Matches s inner ∧ groups = s :: inner
  | seq p q, s, groups => ∃ s₁ groups₁ s₂ groups₂, p.Matches s₁ groups₁ ∧ q.Matches s₂ groups₂ ∧
      s = s₁ ++ s₂ ∧ groups = groups₁ ++ groups₂

variable {p q r : Pattern} {is : Char → Bool} {s t : List Char} {groups : List (List Char)}

theorem matches_seq : (seq p q).Matches s groups ↔ ∃ s₁ groups₁ s₂ groups₂,
    p.Matches s₁ groups₁ ∧ q.Matches s₂ groups₂ ∧ s = s₁ ++ s₂ ∧ groups = groups₁ ++ groups₂ :=
  Iff.rfl

/-- What a pattern without groups matches comes in front of the rest. -/
theorem matches_seq_of_silent {P : List Char → Prop}
    (hp : ∀ {s groups}, p.Matches s groups ↔ P s ∧ groups = []) :
    (seq p q).Matches s groups ↔ ∃ front rest, s = front ++ rest ∧ P front ∧
      q.Matches rest groups := by
  rw [matches_seq]
  constructor
  · rintro ⟨front, _, rest, _, hfront, hq, rfl, rfl⟩
    obtain ⟨hP, rfl⟩ := hp.1 hfront
    exact ⟨front, rest, rfl, hP, hq⟩
  · rintro ⟨front, rest, rfl, hfront, hq⟩
    exact ⟨front, [], rest, groups, hp.2 ⟨hfront, rfl⟩, hq, rfl, rfl⟩

theorem matches_literal_seq : (seq (literal t) q).Matches s groups ↔
    ∃ front rest, s = front ++ rest ∧ front = t ∧ q.Matches rest groups :=
  matches_seq_of_silent Iff.rfl

theorem matches_many_seq : (seq (many is) q).Matches s groups ↔
    ∃ front rest, s = front ++ rest ∧ (∀ c ∈ front, is c) ∧ q.Matches rest groups :=
  matches_seq_of_silent Iff.rfl

theorem matches_some_seq : (seq (some is) q).Matches s groups ↔
    ∃ front rest, s = front ++ rest ∧ IsRun is front ∧ q.Matches rest groups :=
  matches_seq_of_silent Iff.rfl

theorem matches_group_some_seq : (seq (group (some is)) q).Matches s groups ↔
    ∃ run rest more, s = run ++ rest ∧ groups = run :: more ∧ IsRun is run ∧
      q.Matches rest more := by
  rw [matches_seq]
  constructor
  · rintro ⟨run, _, rest, more, ⟨_, ⟨hr, rfl⟩, rfl⟩, hq, rfl, rfl⟩
    exact ⟨run, rest, more, rfl, rfl, hr, hq⟩
  · rintro ⟨run, rest, more, rfl, rfl, hr, hq⟩
    exact ⟨run, [run], rest, more, ⟨[], ⟨hr, rfl⟩, rfl⟩, hq, rfl, rfl⟩

theorem matches_optional_seq :
    (seq (optional p) q).Matches s groups ↔
      q.Matches s groups ∨ (seq p q).Matches s groups := by
  rw [matches_seq, matches_seq]
  constructor
  · rintro ⟨s₁, groups₁, s₂, groups₂, ⟨rfl, rfl⟩ | hp, hq, rfl, rfl⟩
    · exact .inl hq
    · exact .inr ⟨s₁, groups₁, s₂, groups₂, hp, hq, rfl, rfl⟩
  · rintro (hq | ⟨s₁, groups₁, s₂, groups₂, hp, hq, rfl, rfl⟩)
    · exact ⟨[], [], s, groups, .inl ⟨rfl, rfl⟩, hq, rfl, rfl⟩
    · exact ⟨s₁, groups₁, s₂, groups₂, .inr hp, hq, rfl, rfl⟩

theorem matches_seq_assoc :
    (seq (seq p q) r).Matches s groups ↔ (seq p (seq q r)).Matches s groups := by
  constructor
  · rintro ⟨_, _, s₃, groups₃, ⟨s₁, groups₁, s₂, groups₂, hp, hq, rfl, rfl⟩, hr, rfl, rfl⟩
    exact ⟨s₁, groups₁, s₂ ++ s₃, groups₂ ++ groups₃, hp,
      ⟨s₂, groups₂, s₃, groups₃, hq, hr, rfl, rfl⟩, List.append_assoc .., List.append_assoc ..⟩
  · rintro ⟨s₁, groups₁, _, _, hp, ⟨s₂, groups₂, s₃, groups₃, hq, hr, rfl, rfl⟩, rfl, rfl⟩
    exact ⟨s₁ ++ s₂, groups₁ ++ groups₂, s₃, groups₃,
      ⟨s₁, groups₁, s₂, groups₂, hp, hq, rfl, rfl⟩, hr, (List.append_assoc ..).symm,
      (List.append_assoc ..).symm⟩

theorem matches_group_many :
    (group (many is)).Matches s groups ↔ (∀ c ∈ s, is c) ∧ groups = [s] := by
  constructor
  · rintro ⟨_, ⟨hs, rfl⟩, rfl⟩
    exact ⟨hs, rfl⟩
  · rintro ⟨hs, rfl⟩
    exact ⟨[], ⟨hs, rfl⟩, rfl⟩

end Pattern

end KernelProbe.Text
