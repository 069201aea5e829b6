import Mathlib.Data.List.Infix
import KernelProbe.Proofs.Text.Search

/-!
# The pieces of a text between occurrences

A text falls into the pieces between the occurrences of a part, found from the left (`pieces`).
Put together again they are the text (`intercalate_pieces`), none of them has the part in it
(`not_infix_of_mem_pieces`), and a replacement puts the other text between them
(`replaceAll_eq_intercalate`).

From the left is only one way to find occurrences, because two of them may overlap. A part without
a border (`Unbordered`) does not overlap itself, so that there is one way only to take a text for
pieces with the part between them (`pieces_intercalate`). A single character is such a part.
-/

namespace KernelProbe.Text

variable {part before rest s : List Char}

/-! ## Borders -/

/-- No text but the empty one and the part itself is both the beginning and the end of the
    part. -/
def Unbordered (part : List Char) : Prop :=
  ∀ border ∈ part.inits, border <:+ part → border = [] ∨ border = part

instance (part : List Char) : Decidable (Unbordered part) :=
  inferInstanceAs (Decidable (∀ border ∈ part.inits, border <:+ part → border = [] ∨ border = part))

/-- What begins with the part, somewhere in front of an occurrence of it, has the part in front of
    that occurrence. -/
theorem Unbordered.prefix_of_prefix_append (hu : Unbordered part) (hb : before ≠ [])
    (h : part <+: before ++ (part ++ rest)) : part <+: before := by
  rcases List.prefix_or_prefix_of_prefix h (List.prefix_append before _) with hp | ⟨border, rfl⟩
  · exact hp
  · -- Otherwise what is left of the first occurrence is a border of the second one.
    have hr : border <+: (before ++ border) ++ rest := (List.prefix_append_right_inj before).1 h
    have hborder : border <+: before ++ border :=
      List.prefix_of_prefix_length_le hr (List.prefix_append _ rest) (by simp)
    rcases hu border ((List.mem_inits _ _).2 hborder) (List.suffix_append before border) with
      rfl | he
    · rw [List.append_nil]
    · exact absurd (List.self_eq_append_left.1 he) hb

/-! ## Pieces -/

/-- The pieces of a text between the occurrences of `part`, from the left. -/
def pieces (part : List Char) : List Char → List (List Char)
  | [] => [[]]
  | c :: r =>
    if _hp : part = [] then [c :: r]
    else
      match _h : afterStart? part (c :: r) with
      | some rest => [] :: pieces part rest
      | none => (pieces part r).modifyHead (c :: ·)
  termination_by s => s.length
  decreasing_by
    · have := length_of_afterStart? _h
      have := List.length_pos_iff.mpr _hp
      omega
    · simp

theorem pieces_ne_nil (part s : List Char) : pieces part s ≠ [] := by
  fun_induction pieces part s with
  | case1 => exact List.cons_ne_nil _ _
  | case2 => exact List.cons_ne_nil _ _
  | case3 => exact List.cons_ne_nil _ _
  | case4 c r _ _ ih => simpa using ih

/-- A character in front of the first piece is one in front of all. -/
theorem intercalate_modifyHead_cons (sep : List Char) (c : Char) {ps : List (List Char)}
    (h : ps ≠ []) : sep.intercalate (ps.modifyHead (c :: ·)) = c :: sep.intercalate ps := by
  obtain ⟨p, ps, rfl⟩ := List.exists_cons_of_ne_nil h
  cases ps with
  | nil => rfl
  | cons q qs => rw [List.modifyHead_cons, List.intercalate_cons_cons, List.intercalate_cons_cons,
      List.cons_append, List.cons_append]

theorem intercalate_nil_cons (sep : List Char) {ps : List (List Char)} (h : ps ≠ []) :
    sep.intercalate ([] :: ps) = sep ++ sep.intercalate ps := by
  rw [List.intercalate_cons_of_ne_nil h, List.nil_append]

/-- A replacement puts the other text between the pieces. -/
theorem replaceAll_eq_intercalate (part put s : List Char) :
    replaceAll part put s = put.intercalate (pieces part s) := by
  fun_induction pieces part s with
  | case1 => rw [replaceAll, List.intercalate_singleton]
  | case2 c r hp => rw [replaceAll, dif_pos hp, List.intercalate_singleton]
  | case3 c r hp rest h ih =>
    rw [replaceAll, dif_neg hp, intercalate_nil_cons put (pieces_ne_nil part rest), ← ih]
    split
    · next rest' h' => rw [Option.some.inj (h.symm.trans h')]
    · next h' => cases h.symm.trans h'
  | case4 c r hp h ih =>
    rw [replaceAll, dif_neg hp, intercalate_modifyHead_cons put c (pieces_ne_nil part r), ← ih]
    split
    · next rest h' => cases h.symm.trans h'
    · rfl

/-- The pieces with the part between them are the text. -/
theorem intercalate_pieces (part s : List Char) : part.intercalate (pieces part s) = s := by
  fun_induction pieces part s with
  | case1 => exact List.intercalate_singleton
  | case2 => exact List.intercalate_singleton
  | case3 c r _ rest h ih =>
    rw [intercalate_nil_cons part (pieces_ne_nil part rest), ih, ← afterStart?_eq_some.1 h]
  | case4 c r _ _ ih => rw [intercalate_modifyHead_cons part c (pieces_ne_nil part r), ih]

/-- No piece has the part in it. -/
theorem not_infix_of_mem_pieces (hp : part ≠ []) {p : List Char} (h : p ∈ pieces part s) :
    ¬part <:+: p := by
  fun_induction pieces part s generalizing p with
  | case1 => simpa [List.mem_singleton.1 h] using hp
  | case2 c r he => exact absurd he hp
  | case3 c r _ rest _ ih =>
    rcases List.mem_cons.1 h with rfl | h
    · simpa using hp
    · exact ih h
  | case4 c r _ hn ih =>
    obtain ⟨q, qs, hq⟩ := List.exists_cons_of_ne_nil (pieces_ne_nil part r)
    rw [hq] at ih h
    rcases List.mem_cons.1 h with rfl | h
    · rw [List.infix_cons_iff, not_or]
      refine ⟨fun hpre => ?_, ih List.mem_cons_self⟩
      -- The first piece begins the text, so that the part would have been found in front.
      have hr : q <+: r := by
        rw [← intercalate_pieces part r, hq]
        cases qs with
        | nil => rw [List.intercalate_singleton]
        | cons q' qs =>
          rw [List.intercalate_cons_cons, List.append_assoc]
          exact List.prefix_append _ _
      have hc : part <+: c :: r := hpre.trans (List.cons_prefix_cons.2 ⟨rfl, hr⟩)
      rw [← isSome_afterStart?_iff, hn] at hc
      cases hc
    · exact ih (List.mem_cons_of_mem _ h)

theorem pieces_part_append (hp : part ≠ []) (rest : List Char) :
    pieces part (part ++ rest) = [] :: pieces part rest := by
  obtain ⟨c, cs, rfl⟩ := List.exists_cons_of_ne_nil hp
  rw [List.cons_append, pieces, dif_neg hp, ← List.cons_append]
  split
  · next rest' h => rw [Option.some.inj ((afterStart?_append _ rest).symm.trans h)]
  · next h => cases (afterStart?_append _ rest).symm.trans h

theorem pieces_cons_eq_modifyHead {c : Char} {r : List Char} (h : ¬part <+: c :: r) :
    pieces part (c :: r) = (pieces part r).modifyHead (c :: ·) := by
  have hp : part ≠ [] := by
    rintro rfl
    exact h List.nil_prefix
  rw [pieces, dif_neg hp]
  split
  · next rest hr => exact absurd (isSome_afterStart?_iff.1 (by rw [hr]; rfl)) h
  · rfl

theorem pieces_of_not_infix (h : ¬part <:+: s) : pieces part s = [s] := by
  induction s with
  | nil => rw [pieces]
  | cons c r ih =>
    rw [List.infix_cons_iff, not_or] at h
    rw [pieces_cons_eq_modifyHead h.1, ih h.2, List.modifyHead_cons]

/-- A piece in front of an occurrence is the first piece. -/
theorem Unbordered.pieces_append (hu : Unbordered part) (hp : part ≠ [])
    (hb : ¬part <:+: before) (rest : List Char) :
    pieces part (before ++ (part ++ rest)) = before :: pieces part rest := by
  induction before with
  | nil => exact pieces_part_append hp rest
  | cons c r ih =>
    -- An occurrence here would lie in the piece or overlap the one behind it.
    have hn : ¬part <+: c :: (r ++ (part ++ rest)) := fun h =>
      hb (hu.prefix_of_prefix_append (List.cons_ne_nil c r) h).isInfix
    rw [List.cons_append, pieces_cons_eq_modifyHead hn,
      ih fun h => hb (List.infix_cons_iff.2 (.inr h)), List.modifyHead_cons]

/-- Pieces without the part are found again when the part is put between them. -/
theorem Unbordered.pieces_intercalate (hu : Unbordered part) (hp : part ≠ [])
    {ps : List (List Char)} (hn : ps ≠ []) (h : ∀ p ∈ ps, ¬part <:+: p) :
    pieces part (part.intercalate ps) = ps := by
  induction ps with
  | nil => exact absurd rfl hn
  | cons p ps ih =>
    rw [List.forall_mem_cons] at h
    cases ps with
    | nil => rw [List.intercalate_singleton, pieces_of_not_infix h.1]
    | cons q qs =>
      rw [List.intercalate_cons_cons, List.append_assoc, hu.pieces_append hp h.1,
        ih (List.cons_ne_nil q qs) h.2]

/-! ## Pieces between characters -/

variable {c : Char}

theorem unbordered_singleton (c : Char) : Unbordered [c] := by
  intro border hb _
  simpa using hb

/-- What stands in front of the first occurrence of a character is the first piece. -/
theorem pieces_append_of_not_mem (h : c ∉ before) (rest : List Char) :
    pieces [c] (before ++ c :: rest) = before :: pieces [c] rest :=
  (unbordered_singleton c).pieces_append (List.cons_ne_nil _ _)
    (by rwa [List.singleton_infix_iff]) rest

theorem not_mem_intercalate {d : Char} {ps : List (List Char)} (h : ∀ p ∈ ps, c ∉ p)
    (hd : c ≠ d) : c ∉ [d].intercalate ps := by
  induction ps with
  | nil => exact List.not_mem_nil
  | cons p ps ih =>
    rw [List.forall_mem_cons] at h
    cases ps with
    | nil => simpa using h.1
    | cons q qs =>
      rw [List.intercalate_cons_cons, List.mem_append, List.mem_append, List.mem_singleton]
      rintro ((hp | hp) | hp)
      · exact h.1 hp
      · exact hd hp
      · exact ih h.2 hp

end KernelProbe.Text
