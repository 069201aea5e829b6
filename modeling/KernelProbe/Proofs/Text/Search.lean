import Mathlib.Data.List.Infix
import KernelProbe.Text.Search

/-!
# Leading texts, occurrences and splits

What `afterStart?`, `contains`, `splitAt?` and `splitAtLast?` find, in terms of how the text is put
together.
-/

namespace KernelProbe.Text

theorem afterStart?_append (start rest : List Char) :
    afterStart? start (start ++ rest) = some rest := by
  induction start with
  | nil => rfl
  | cons c cs ih => rw [List.cons_append, afterStart?, if_pos rfl, ih]

theorem afterStart?_eq_some {start s rest : List Char} :
    afterStart? start s = some rest ↔ s = start ++ rest := by
  constructor
  · intro h
    induction start generalizing s with
    | nil => exact Option.some.inj h
    | cons c cs ih =>
      cases s with
      | nil => cases h
      | cons d ds =>
        rw [afterStart?] at h
        split at h
        · next hc => rw [ih h, hc, List.cons_append]
        · cases h
  · rintro rfl
    exact afterStart?_append start rest

theorem isSome_afterStart?_iff {start s : List Char} :
    (afterStart? start s).isSome ↔ start <+: s := by
  rw [Option.isSome_iff_exists]
  exact exists_congr fun rest => afterStart?_eq_some.trans eq_comm

theorem occursIn_iff {part s : List Char} : occursIn part s ↔ part <:+: s := by
  induction s with
  | nil => rw [occursIn, List.isEmpty_iff, List.infix_nil]
  | cons c r ih => rw [occursIn, Bool.or_eq_true, isSome_afterStart?_iff, ih, List.infix_cons_iff]

theorem contains_iff {s part : String} : contains s part ↔ part.toList <:+: s.toList :=
  occursIn_iff

theorem splitAt?_append {sep : Char} {before : List Char} (h : sep ∉ before)
    (behind : List Char) : splitAt? sep (before ++ sep :: behind) = some (before, behind) := by
  induction before with
  | nil => rw [List.nil_append, splitAt?, if_pos rfl]
  | cons c r ih =>
    rw [List.mem_cons, not_or] at h
    rw [List.cons_append, splitAt?, if_neg (Ne.symm h.1), ih h.2, Option.map_some]

theorem splitAt?_eq_none_iff {sep : Char} {s : List Char} :
    splitAt? sep s = none ↔ sep ∉ s := by
  induction s with
  | nil => simp [splitAt?]
  | cons c r ih =>
    rw [splitAt?, List.mem_cons, not_or]
    split
    · next h => simp [h]
    · next h => simp [ih, Ne.symm h]

theorem splitAt?_eq_some {sep : Char} {s before behind : List Char}
    (h : splitAt? sep s = some (before, behind)) :
    s = before ++ sep :: behind ∧ sep ∉ before := by
  induction s generalizing before with
  | nil => cases h
  | cons c r ih =>
    rw [splitAt?] at h
    split at h
    · next hc =>
      cases h
      exact ⟨by rw [hc, List.nil_append], List.not_mem_nil⟩
    · next hc =>
      obtain ⟨⟨before', behind'⟩, hp, hq⟩ := Option.map_eq_some_iff.1 h
      cases hq
      obtain ⟨rfl, hn⟩ := ih hp
      exact ⟨rfl, by simp [hn, Ne.symm hc]⟩

theorem splitAtLast?_eq_some {sep : Char} {s before behind : List Char}
    (h : splitAtLast? sep s = some (before, behind)) :
    s = before ++ sep :: behind ∧ sep ∉ behind := by
  obtain ⟨⟨behind', before'⟩, hp, hq⟩ := Option.map_eq_some_iff.1 h
  obtain ⟨rfl, rfl⟩ := Prod.mk.inj hq
  obtain ⟨he, hn⟩ := splitAt?_eq_some hp
  refine ⟨?_, by rwa [List.mem_reverse]⟩
  rw [← s.reverse_reverse, he, List.reverse_append, List.reverse_cons, List.append_assoc,
    List.singleton_append]

theorem trimEndOf_cons (c d : Char) (r : List Char) : trimEndOf c (d :: r) =
    if trimEndOf c r = [] ∧ d = c then [] else d :: trimEndOf c r := by
  simp [trimEndOf]

/-- What is trimmed from the end of a text are occurrences of the character. -/
theorem exists_trimEndOf_append (c : Char) (s : List Char) :
    ∃ n, s = trimEndOf c s ++ List.replicate n c := by
  induction s with
  | nil => exact ⟨0, rfl⟩
  | cons d r ih =>
    obtain ⟨n, hn⟩ := ih
    rw [trimEndOf_cons]
    split
    · next h =>
      obtain ⟨ht, rfl⟩ := h
      rw [ht, List.nil_append] at hn
      exact ⟨n + 1, by rw [hn, List.replicate_succ, List.nil_append]⟩
    · exact ⟨n, by rw [List.cons_append, ← hn]⟩

theorem getLast?_trimEndOf (c : Char) (s : List Char) : (trimEndOf c s).getLast? ≠ some c := by
  induction s with
  | nil => simp [trimEndOf]
  | cons d r ih =>
    rw [trimEndOf_cons]
    split
    · simp
    · next h =>
      rw [List.getLast?_cons]
      cases ht : (trimEndOf c r).getLast? with
      | none => simpa [List.getLast?_eq_none_iff.1 ht] using h
      | some e => simpa [ht] using ih

end KernelProbe.Text
