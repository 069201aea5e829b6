import KernelProbe.Text.Lines

/-!
# The lines of a stream

Splitting a stream is the inverse of putting a line feed behind each finished line
(`splitLines_eq_iff`), and so it does not matter in which pieces the stream comes
(`splitLines_append`, `byteLines_append`).
-/

namespace KernelProbe.Text

variable {α : Type} [BEq α] [LawfulBEq α] {lf cr : α} {s t rest : List α} {done : List (List α)}

/-- A stream is finished lines, each with a line feed behind it, and a rest. -/
structure SplitsInto (lf : α) (s : List α) (done : List (List α)) (rest : List α) : Prop where
  eq : s = (done.flatMap fun line => line ++ [lf]) ++ rest
  finished : ∀ line ∈ done, lf ∉ line
  rest : lf ∉ rest

theorem splitLines_of_not_mem (h : lf ∉ s) : splitLines lf cr s = ([], s) := by
  induction s with
  | nil => rfl
  | cons c s ih =>
    rw [List.mem_cons, not_or] at h
    rw [splitLines, ih h.2, beq_eq_false_iff_ne.2 (Ne.symm h.1)]
    rfl

theorem splitLines_line (h : lf ∉ s) :
    splitLines lf cr (s ++ lf :: t) = (s :: (splitLines lf cr t).1, (splitLines lf cr t).2) := by
  induction s with
  | nil => rw [List.nil_append, splitLines, beq_self_eq_true]; rfl
  | cons c s ih =>
    rw [List.mem_cons, not_or] at h
    rw [List.cons_append, splitLines, ih h.2, beq_eq_false_iff_ne.2 (Ne.symm h.1)]
    rfl

theorem splitsInto_splitLines (lf cr : α) (s : List α) :
    SplitsInto lf s (splitLines lf cr s).1 (splitLines lf cr s).2 := by
  induction s with
  | nil => exact ⟨rfl, nofun, nofun⟩
  | cons c s ih =>
    rw [splitLines]
    generalize splitLines lf cr s = pieces at ih
    obtain ⟨done, rest⟩ := pieces
    obtain ⟨rfl, hf, hr⟩ := ih
    by_cases hc : c = lf
    · subst hc
      rw [beq_self_eq_true]
      exact ⟨rfl, List.forall_mem_cons.2 ⟨nofun, hf⟩, hr⟩
    · have hm : ∀ {line}, lf ∉ line → lf ∉ c :: line := fun h hm =>
        (List.mem_cons.1 hm).elim (Ne.symm hc) h
      rw [beq_eq_false_iff_ne.2 hc]
      cases done with
      | nil => exact ⟨rfl, nofun, hm hr⟩
      | cons line done =>
        rw [List.forall_mem_cons] at hf
        exact ⟨rfl, List.forall_mem_cons.2 ⟨hm hf.1, hf.2⟩, hr⟩

/-- The finished lines and the rest are the only ones of which the stream is put together. -/
theorem splitLines_eq_iff : splitLines lf cr s = (done, rest) ↔ SplitsInto lf s done rest := by
  constructor
  · intro h
    have hs := splitsInto_splitLines lf cr s
    rwa [h] at hs
  · rintro ⟨rfl, hf, hr⟩
    induction done with
    | nil => exact splitLines_of_not_mem hr
    | cons line done ih =>
      rw [List.forall_mem_cons] at hf
      rw [List.flatMap_cons, List.append_assoc, List.append_assoc, List.singleton_append,
        splitLines_line hf.1, ih hf.2]

omit [LawfulBEq α] in
theorem mem_of_mem_dropReturn {c : α} (h : c ∈ dropReturn cr s) : c ∈ s := by
  unfold dropReturn at h
  split at h
  · exact (List.dropLast_sublist s).subset h
  · exact h

/-- A line has no line feed. -/
theorem lineFeed_not_mem_of_mem_lines {text line : List Char} (h : line ∈ lines text) :
    '\n' ∉ line := by
  have hs := splitsInto_splitLines '\n' '\r' text
  rw [lines, List.mem_append, List.mem_map] at h
  rcases h with ⟨finished, hf, rfl⟩ | h
  · exact mt mem_of_mem_dropReturn (hs.finished finished hf)
  · split at h
    · cases h
    · rw [List.mem_singleton.1 h]
      exact hs.rest

/-- The pieces in which a stream comes do not matter. -/
theorem splitLines_append (lf cr : α) (s t : List α) :
    splitLines lf cr (s ++ t) =
      ((splitLines lf cr s).1 ++ (splitLines lf cr ((splitLines lf cr s).2 ++ t)).1,
        (splitLines lf cr ((splitLines lf cr s).2 ++ t)).2) := by
  have hs := splitsInto_splitLines lf cr s
  have ht := splitsInto_splitLines lf cr ((splitLines lf cr s).2 ++ t)
  refine splitLines_eq_iff.2 ⟨?_, List.forall_mem_append.2 ⟨hs.finished, ht.finished⟩, ht.rest⟩
  rw [List.flatMap_append, List.append_assoc, ← ht.eq, ← List.append_assoc, ← hs.eq]

theorem byteLines_append (s t : List UInt8) :
    byteLines (s ++ t) =
      ((byteLines s).1 ++ (byteLines ((byteLines s).2 ++ t)).1,
        (byteLines ((byteLines s).2 ++ t)).2) := by
  unfold byteLines
  rw [splitLines_append]
  simp only [List.map_append]

end KernelProbe.Text
