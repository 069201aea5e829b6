import Mathlib.Data.List.DropRight
import KernelProbe.Text.Blank

/-!
# Trimming

`trimStart` takes off blanks in front, in whatever pieces they come. `trimEnd` takes off blanks
only, and all of them: it leaves a text alone exactly if the text does not end in one. The first
word of a text is what stands between the blanks in front and the next one
(`firstWord?_eq_some_iff`), and words that are written with blanks behind them are read again
(`words_spaced_append`).
-/

namespace KernelProbe.Text

theorem trimStart_append_of_blank {s : List Char} (hs : ∀ c ∈ s, isBlank c) (t : List Char) :
    trimStart (s ++ t) = trimStart t :=
  List.dropWhile_append_of_pos hs

theorem trim_trimStart (s : List Char) : trim (trimStart s) = trim s :=
  congrArg trimEnd (List.dropWhile_idempotent isBlank s)

theorem mem_of_mem_trimStart {c : Char} {s : List Char} (h : c ∈ trimStart s) : c ∈ s :=
  (List.dropWhile_sublist isBlank).subset h

/-- The text does not end in a blank. -/
def NoBlankEnd (s : List Char) : Prop :=
  ∀ c, s.getLast? = some c → isBlank c = false

theorem trimEnd_cons (c : Char) (r : List Char) :
    trimEnd (c :: r) = if (trimEnd r).isEmpty && isBlank c then [] else c :: trimEnd r := rfl

theorem noBlankEnd_trimEnd (s : List Char) : NoBlankEnd (trimEnd s) := by
  induction s with
  | nil => exact fun c hc => by cases hc
  | cons c r ih =>
    intro d hd
    rw [trimEnd_cons] at hd
    -- A character stays if the rest leaves something behind it, or if it is no blank.
    cases hr : trimEnd r with
    | nil =>
      cases hc : isBlank c
      · simp [hr, hc] at hd
        exact hd ▸ hc
      · simp [hr, hc] at hd
    | cons e t =>
      rw [hr] at ih hd
      exact ih d (by simpa using hd)

theorem trimEnd_eq_self {s : List Char} (h : NoBlankEnd s) : trimEnd s = s := by
  induction s with
  | nil => rfl
  | cons c r ih =>
    rw [trimEnd_cons]
    cases r with
    | nil => rw [trimEnd_nil, List.isEmpty_nil, h c rfl]; rfl
    | cons d t => rw [ih fun e he => h e (by simpa using he)]; rfl

/-- Blanks at the end make no difference to a text that is trimmed. -/
theorem trim_trimEnd (s : List Char) : trim (trimEnd s) = trim s := by
  induction s with
  | nil => rfl
  | cons c r ih =>
    cases hc : isBlank c with
    | true =>
      have hs (t : List Char) : trim (c :: t) = trim t := by
        rw [trim, trimStart, List.dropWhile_cons_of_pos hc, trim, trimStart]
      rw [hs, ← ih, trimEnd_cons, hc, Bool.and_true]
      cases trimEnd r with
      | nil => rfl
      | cons d t => exact hs (d :: t)
    | false =>
      have hs (t : List Char) : trim (c :: t) = trimEnd (c :: t) := by
        rw [trim, trimStart, List.dropWhile_cons_of_neg (by simp [hc])]
      have he : trimEnd (c :: r) = c :: trimEnd r := by
        rw [trimEnd_cons, hc, Bool.and_false, if_neg Bool.false_ne_true]
      calc trim (trimEnd (c :: r)) = trimEnd (trimEnd (c :: r)) := by rw [he, hs]
        _ = trimEnd (c :: r) := trimEnd_eq_self (noBlankEnd_trimEnd _)
        _ = trim (c :: r) := (hs r).symm

/-- A text with no blank at either end stays as it is. -/
theorem trim_eq_self {c : Char} {s : List Char} (hc : isBlank c = false) (h : NoBlankEnd (c :: s)) :
    trim (c :: s) = c :: s := by
  rw [trim, trimStart, List.dropWhile_cons_of_neg (by simp [hc]), trimEnd_eq_self h]

/-- Only what stands behind a character that is no blank can lose its end. -/
theorem trimEnd_append_cons {c : Char} (hc : isBlank c = false) (s t : List Char) :
    trimEnd (s ++ c :: t) = s ++ c :: trimEnd t := by
  induction s with
  | nil => rw [List.nil_append, trimEnd_cons, hc, Bool.and_false]; rfl
  | cons d s ih =>
    rw [List.cons_append, trimEnd_cons, ih, List.isEmpty_eq_false_iff.2 (by simp)]
    rfl

/-- What is trimmed from the end of a text are blanks. -/
theorem exists_trimEnd_append (s : List Char) :
    ∃ t, s = trimEnd s ++ t ∧ ∀ c ∈ t, isBlank c := by
  induction s with
  | nil => exact ⟨[], rfl, by simp⟩
  | cons c r ih =>
    obtain ⟨t, hr, ht⟩ := ih
    rw [trimEnd_cons]
    split
    · next h =>
      rw [Bool.and_eq_true, List.isEmpty_iff] at h
      rw [h.1, List.nil_append] at hr
      exact ⟨c :: t, by rw [hr, List.nil_append], List.forall_mem_cons.2 ⟨h.2, ht⟩⟩
    · exact ⟨t, by rw [List.cons_append, ← hr], ht⟩

/-- Whether a text ends in a blank is decided by its last part. -/
theorem noBlankEnd_append {s t : List Char} (ht : t ≠ []) :
    NoBlankEnd (s ++ t) ↔ NoBlankEnd t := by
  rw [NoBlankEnd, NoBlankEnd, List.getLast?_append, List.getLast?_eq_some_getLast ht,
    Option.some_or]

theorem noBlankEnd_behind {s t : List Char} {c : Char} (ht : t ≠ []) :
    NoBlankEnd (s ++ c :: t) ↔ NoBlankEnd t := by
  rw [noBlankEnd_append (List.cons_ne_nil c t), ← List.singleton_append, noBlankEnd_append ht]

theorem noBlankEnd_concat {c : Char} (hc : isBlank c = false) (s : List Char) :
    NoBlankEnd (s ++ [c]) := by
  intro d hd
  rw [List.getLast?_concat, Option.some.injEq] at hd
  exact hd ▸ hc

/-- The last character of a text is no blank, so what is trimmed stands behind the text. -/
theorem trimEnd_append {c : Char} {s : List Char} (hs : NoBlankEnd (c :: s)) (t : List Char) :
    trimEnd (c :: s ++ t) = c :: s ++ trimEnd t := by
  obtain ⟨front, d, hd⟩ : ∃ front d, c :: s = front ++ [d] :=
    ⟨_, _, (List.dropLast_append_getLast (List.cons_ne_nil c s)).symm⟩
  have hblank : isBlank d = false := hs d (by rw [hd, List.getLast?_concat])
  rw [hd, List.append_assoc, List.append_assoc, List.singleton_append, List.singleton_append,
    trimEnd_append_cons hblank]

theorem trim_append {w s t : List Char} {c : Char} (hw : ∀ c ∈ w, isBlank c)
    (hc : isBlank c = false) (hs : NoBlankEnd (c :: s)) :
    trim (w ++ (c :: s ++ t)) = c :: s ++ trimEnd t := by
  have hstart : trimStart (c :: s ++ t) = c :: s ++ t := by
    rw [trimStart, List.cons_append, List.dropWhile_cons_of_neg (by simp [hc])]
  rw [trim, trimStart_append_of_blank hw, hstart, trimEnd_append hs]

theorem exists_append_trim (s : List Char) : ∃ w t, s = w ++ (trim s ++ t) ∧
    (∀ c ∈ w, isBlank c) ∧ ∀ c ∈ t, isBlank c := by
  obtain ⟨t, hs, ht⟩ := exists_trimEnd_append (trimStart s)
  refine ⟨s.takeWhile isBlank, t, ?_, fun _ => List.mem_takeWhile_imp, ht⟩
  rw [trim, ← hs, trimStart, List.takeWhile_append_dropWhile]

/-! ## First words -/

/-- A word that stands in front of the text ends there. -/
def EndsWord (t : List Char) : Prop :=
  ∀ c, t.head? = some c → isBlank c

theorem EndsWord.append {t u : List Char} (ht : EndsWord t) (hu : ∀ c ∈ u, isBlank c) :
    EndsWord (t ++ u) := by
  cases t with
  | nil => exact fun c hc => hu c (List.mem_of_head? hc)
  | cons d t => exact ht

theorem EndsWord.trimEnd {t : List Char} (h : EndsWord t) : EndsWord (trimEnd t) := by
  obtain ⟨u, ht, -⟩ := exists_trimEnd_append t
  intro c hc
  refine h c ?_
  rw [ht, List.head?_append, hc, Option.some_or]

/-- A text without a word is one of blanks. -/
theorem firstWord?_eq_none_iff {s : List Char} : firstWord? s = none ↔ ∀ c ∈ s, isBlank c := by
  have hd := List.head?_dropWhile_not isBlank s
  rw [← trimStart] at hd
  rw [← List.dropWhile_eq_nil_iff, ← trimStart, firstWord?]
  cases ht : trimStart s with
  | nil => exact iff_of_true rfl rfl
  | cons d t =>
    rw [ht] at hd
    rw [List.takeWhile_cons_of_pos (by simpa using hd)]
    exact iff_of_false nofun nofun

/-- The first word of a text stands behind blanks and goes on up to the next blank. -/
theorem firstWord?_eq_some_iff {s r : List Char} : firstWord? s = some r ↔
    ∃ w t, s = w ++ (r ++ t) ∧ (∀ c ∈ w, isBlank c) ∧ r ≠ [] ∧ (∀ c ∈ r, isBlank c = false) ∧
      EndsWord t := by
  constructor
  · intro h
    unfold firstWord? at h
    split at h
    · cases h
    · next hn =>
      cases h
      refine ⟨s.takeWhile isBlank, (trimStart s).dropWhile (!isBlank ·), ?_,
        fun _ => List.mem_takeWhile_imp, hn, fun c hc => ?_, fun c hc => ?_⟩
      · rw [List.takeWhile_append_dropWhile, trimStart, List.takeWhile_append_dropWhile]
      · simpa using List.mem_takeWhile_imp hc
      · have := List.head?_dropWhile_not (!isBlank ·) (trimStart s)
        rw [hc] at this
        simpa using this
  · rintro ⟨w, t, rfl, hw, hn, hr, ht⟩
    obtain ⟨c, r, rfl⟩ := List.exists_cons_of_ne_nil hn
    have hstart : trimStart (c :: r ++ t) = c :: r ++ t := by
      rw [trimStart, List.cons_append, List.dropWhile_cons_of_neg (by simp [hr])]
    have hword : (c :: r ++ t).takeWhile (!isBlank ·) = c :: r := by
      rw [List.takeWhile_append_of_pos fun d hd => by simp [hr d hd]]
      cases t with
      | nil => rw [List.takeWhile_nil, List.append_nil]
      | cons d t => rw [List.takeWhile_cons_of_neg (by simp [ht d rfl]), List.append_nil]
    rw [firstWord?, trimStart_append_of_blank hw, hstart, hword]

/-! ## Words -/

/-- A text without blanks that is not empty. -/
def IsWord (w : List Char) : Prop :=
  w ≠ [] ∧ ∀ c ∈ w, isBlank c = false

theorem words_nil : words [] = [] := by
  rw [words]
  rfl

theorem words_append_of_blank {s : List Char} (hs : ∀ c ∈ s, isBlank c) (t : List Char) :
    words (s ++ t) = words t := by
  rw [words, words, trimStart_append_of_blank hs]

/-- A word in front of a text that ends it is the first one. -/
theorem IsWord.words_append {w t : List Char} (hw : IsWord w) (ht : EndsWord t) :
    words (w ++ t) = w :: words t := by
  obtain ⟨c, r, rfl⟩ := List.exists_cons_of_ne_nil hw.1
  have hr : ∀ d ∈ c :: r, (!isBlank d) = true := fun d hd => by rw [hw.2 d hd]; rfl
  have hstart : trimStart (c :: r ++ t) = c :: (r ++ t) := by
    rw [trimStart, List.cons_append, List.dropWhile_cons_of_neg (by simp [hw.2])]
  have htake : t.takeWhile (!isBlank ·) = [] := by
    cases t with
    | nil => rfl
    | cons d t => exact List.takeWhile_cons_of_neg (by simp [ht d rfl])
  have hdrop : t.dropWhile (!isBlank ·) = t := by
    cases t with
    | nil => rfl
    | cons d t => exact List.dropWhile_cons_of_neg (by simp [ht d rfl])
  have hr' : ∀ d ∈ r, (!isBlank d) = true := fun d hd => hr d (List.mem_cons_of_mem c hd)
  rw [words]
  split
  · next h => cases hstart.symm.trans h
  · next c' r' h =>
    obtain ⟨rfl, rfl⟩ := List.cons.inj (hstart.symm.trans h)
    rw [← List.cons_append, List.takeWhile_append_of_pos hr, List.dropWhile_append_of_pos hr',
      htake, hdrop, List.append_nil]

/-- Words with a blank behind each of them. -/
def spaced (ws : List (List Char)) : List Char :=
  ws.flatMap fun w => w ++ [' ']

theorem words_spaced_append {ws : List (List Char)} (h : ∀ w ∈ ws, IsWord w) (t : List Char) :
    words (spaced ws ++ t) = ws ++ words t := by
  induction ws with
  | nil => rfl
  | cons w ws ih =>
    rw [List.forall_mem_cons] at h
    have hblank : EndsWord ([' '] ++ (spaced ws ++ t)) := by
      rintro c ⟨⟩
      rfl
    have hs : spaced (w :: ws) ++ t = w ++ ([' '] ++ (spaced ws ++ t)) := by simp [spaced]
    rw [hs, h.1.words_append hblank, words_append_of_blank (List.forall_mem_singleton.2 rfl),
      ih h.2, List.cons_append]

end KernelProbe.Text
