import KernelProbe.Debugger.Script
import KernelProbe.Proofs.Text.Blank

/-!
# Command lines

A command line names a command by its first word, and what stands behind the word is the command's
argument text (`Invokes`). Every text does so in one way, which is the one that it is split by
(`exists_invokes`, `Invokes.splitCommand_eq`).

* `Invokes.firstWord?_eq`: the name is the first word, and a blank line has none;
* `runCommand_of_some`, `runCommand_of_none`: a line is carried out by the handler that is
  registered under its name, and refused without one, whoever carries it out.
-/

namespace KernelProbe.Debugger

open Text

variable {H : Type} {commands : Registry} {line : String} {s name arguments : List Char}

/-- The name and the argument text in a command line: the first run of characters that are no
    blanks, and what stands behind it without the blanks at its ends. A line of blanks has neither. -/
inductive Invokes : (line name arguments : List Char) → Prop
  | blank {s : List Char} : (∀ c ∈ s, isBlank c) → Invokes s [] []
  | word {w name t : List Char} : (∀ c ∈ w, isBlank c) → name ≠ [] →
      (∀ c ∈ name, isBlank c = false) → EndsWord t → Invokes (w ++ (name ++ t)) name (trim t)

/-- A word is cut off at its end, and one blank behind it. -/
theorem splitAtBlank_append {t : List Char} (hn : ∀ c ∈ name, isBlank c = false)
    (ht : EndsWord t) : splitAtBlank (name ++ t) = (name, t.drop 1) := by
  have hword : ∀ c ∈ name, (!isBlank c) = true := fun c hc => by rw [hn c hc]; rfl
  rw [splitAtBlank, List.takeWhile_append_of_pos hword, List.dropWhile_append_of_pos hword]
  cases t with
  | nil => rw [List.takeWhile_nil, List.dropWhile_nil, List.append_nil]
  | cons d t =>
    rw [List.takeWhile_cons_of_neg (by simp [ht d rfl]),
      List.dropWhile_cons_of_neg (by simp [ht d rfl]), List.append_nil]

/-- The blank that is cut off behind a word makes no difference to the text that is trimmed. -/
theorem trim_drop_trimEnd {t : List Char} (ht : EndsWord t) :
    trim ((trimEnd t).drop 1) = trim t := by
  cases t with
  | nil => rfl
  | cons d t =>
    have hd : isBlank d := ht d rfl
    have hs : trim (d :: t) = trim t := by
      rw [trim, trimStart, List.dropWhile_cons_of_pos hd, trim, trimStart]
    rw [hs, ← trim_trimEnd t, trimEnd_cons, hd, Bool.and_true]
    cases trimEnd t <;> rfl

namespace Invokes

theorem split_eq (h : Invokes s name arguments) :
    (splitAtBlank (trim s)).1 = name ∧ trim (splitAtBlank (trim s)).2 = arguments := by
  cases h with
  | blank hs =>
    rw [trim, trimStart, List.dropWhile_eq_nil_iff.2 hs]
    exact ⟨rfl, rfl⟩
  | @word w _ t hw hn hr ht =>
    obtain ⟨c, r, rfl⟩ := List.exists_cons_of_ne_nil hn
    have hend : NoBlankEnd (c :: r) := fun d hd => hr d (List.mem_of_getLast? hd)
    rw [trim_append hw (hr c List.mem_cons_self) hend, splitAtBlank_append hr ht.trimEnd]
    exact ⟨rfl, trim_drop_trimEnd ht⟩

/-- A line has one name and one argument text, those that it is split into. -/
theorem splitCommand_eq (h : Invokes line.toList name arguments) :
    splitCommand line = (String.ofList name, String.ofList arguments) := by
  obtain ⟨hn, ha⟩ := h.split_eq
  rw [splitCommand, ← hn, ← ha]

theorem unique {name' arguments' : List Char} (h : Invokes s name arguments)
    (h' : Invokes s name' arguments') : name' = name ∧ arguments' = arguments :=
  ⟨h'.split_eq.1.symm.trans h.split_eq.1, h'.split_eq.2.symm.trans h.split_eq.2⟩

/-- The name is the first word of the line, if it has one. -/
theorem firstWord?_eq (h : Invokes s name arguments) (hb : ¬∀ c ∈ s, isBlank c) :
    firstWord? s = some name := by
  cases h with
  | blank hs => exact absurd hs hb
  | @word w _ t hw hn hr ht => exact firstWord?_eq_some_iff.2 ⟨w, t, rfl, hw, hn, hr, ht⟩

end Invokes

theorem exists_invokes (s : List Char) : ∃ name arguments, Invokes s name arguments := by
  cases hf : firstWord? s with
  | none => exact ⟨[], [], .blank (firstWord?_eq_none_iff.1 hf)⟩
  | some r =>
    obtain ⟨w, t, rfl, hw, hn, hr, ht⟩ := firstWord?_eq_some_iff.1 hf
    exact ⟨r, trim t, .word hw hn hr ht⟩

/-! ## Carrying a line out -/

theorem runCommand_of_some {handler : Handler} (h : Invokes line.toList name arguments)
    (hf : commands.find? (String.ofList name) = some handler) :
    runCommand (H := H) commands line = widen (handler (String.ofList arguments)) := by
  rw [runCommand, h.splitCommand_eq]
  dsimp only
  rw [hf]

theorem runCommand_of_none (h : Invokes line.toList name arguments)
    (hf : commands.find? (String.ofList name) = none) :
    runCommand (H := H) commands line =
      .done (.error (.undefinedCommand (String.ofList name))) := by
  rw [runCommand, h.splitCommand_eq]
  dsimp only
  rw [hf]
  rfl

end KernelProbe.Debugger
