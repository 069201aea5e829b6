import KernelProbe.Proofs.Symbols.LinkerMap

/-!
# Lines about sections and object files

A line about a section or an object file has an address and a size, with the name of the section
in front or without one, and may have a further text behind them. Almost none of these lines has a
symbol (`section_line_symbol_iff`). The exception is a line that ends right behind the size, with no
name in front: the size is taken for the name of a symbol at the start of the section
(`lone_size_is_symbol`). A linker writes such lines for sections with long names, which stand on a
line of their own.
-/

namespace KernelProbe.Symbols.LinkerMap

open Text

variable {symbol : Symbol}

/-- A line about a section or an object file: blanks or none, a point and a word with blanks behind
    them or neither, an address, blanks, a size, and then nothing or a blank and any text. -/
structure SectionLine where
  indent : List Char
  label : List Char
  address : List Char
  gap : List Char
  size : List Char
  tail : List Char
  blank_indent : ∀ c ∈ indent, isBlank c
  label_eq : label = [] ∨ ∃ word blanks, label = '.' :: (word ++ blanks) ∧
    IsRun (!isBlank ·) word ∧ IsRun isBlank blanks
  digits_address : IsRun isHexDigit address
  blank_gap : IsRun isBlank gap
  digits_size : IsRun isHexDigit size
  tail_eq : tail = [] ∨ ∃ c text, tail = c :: text ∧ isBlank c

namespace SectionLine

/-- The size as the line has it, and what stands behind it. -/
def behindGap (l : SectionLine) : List Char :=
  '0' :: 'x' :: (l.size ++ l.tail)

/-- The line. -/
def text (l : SectionLine) : List Char :=
  l.indent ++ (l.label ++ '0' :: 'x' :: (l.address ++ (l.gap ++ l.behindGap)))

theorem symbol?_of_label {l : SectionLine} (h : l.label ≠ []) : symbol? l.text = none := by
  obtain ⟨word, blanks, hl, -⟩ := l.label_eq.resolve_left h
  rw [Option.eq_none_iff_forall_ne_some]
  intro symbol hs
  obtain ⟨indent, ds, gap, rest, hp⟩ := exists_hasParts_of_symbol? hs
  have hstart := (number?_eq_some_iff.1 hp.number?_eq).1
  rw [text, hl, trimStart_append_of_blank l.blank_indent] at hstart
  cases hstart

theorem hasParts {l : SectionLine} (h : l.label = []) :
    HasParts l.text l.indent l.address l.gap l.behindGap :=
  ⟨by rw [text, h]; rfl, l.blank_indent, l.digits_address, l.blank_gap⟩

theorem beginsWithNumber_iff {l : SectionLine} : BeginsWithNumber l.behindGap ↔ l.tail ≠ [] := by
  constructor
  · rintro ⟨ds, c, r, he, -, hc⟩ ht
    rw [behindGap, ht, List.append_nil, List.cons.injEq, List.cons.injEq] at he
    have hd : isHexDigit c := l.digits_size.all c (by rw [he.2.2]; simp)
    rw [isBlank_of_isHexDigit hd] at hc
    cases hc
  · intro ht
    obtain ⟨c, r, he, hc⟩ := l.tail_eq.resolve_left ht
    exact ⟨l.size, c, r, by rw [behindGap, he], l.digits_size, hc⟩

/-- The characters of a size are no blanks. -/
theorem isBlank_of_mem {l : SectionLine} (h : l.tail = []) :
    ∀ c ∈ l.behindGap, isBlank c = false := by
  rw [behindGap, h, List.append_nil, List.forall_mem_cons, List.forall_mem_cons]
  exact ⟨by decide, by decide, fun c hc => isBlank_of_isHexDigit (l.digits_size.all c hc)⟩

theorem trim_behindGap {l : SectionLine} (h : l.tail = []) :
    trim l.behindGap = '0' :: 'x' :: l.size := by
  have he : l.behindGap = '0' :: 'x' :: l.size := by rw [behindGap, h, List.append_nil]
  have hend : NoBlankEnd l.behindGap := fun c hc => isBlank_of_mem h c (List.mem_of_getLast? hc)
  rw [he] at hend ⊢
  exact trim_eq_self (by decide) hend

end SectionLine

/-- A line about a section or an object file has a symbol in one case only: no name stands in front,
    the line ends behind the size, and the address is below the limit of a word. The symbol is then
    at the address, and has the size for its name. -/
theorem section_line_symbol_iff (l : SectionLine) (symbol : Symbol) :
    symbol? l.text = some symbol ↔ l.label = [] ∧ l.tail = [] ∧
      ∃ a, Numeral 16 l.address a.toNat ∧
        symbol = { name := .ofList ('0' :: 'x' :: l.size),
                   displayName := .ofList ('0' :: 'x' :: l.size), address := a, size := 0 } := by
  by_cases hl : l.label = []
  · have hstart : trimStart l.behindGap = l.behindGap := rfl
    rw [(SectionLine.hasParts hl).symbol?_eq_some_iff, hstart, SectionLine.beginsWithNumber_iff,
      not_not]
    constructor
    · rintro ⟨-, ht, -, a, ha, hs⟩
      rw [SectionLine.trim_behindGap ht] at hs
      exact ⟨hl, ht, a, ha, hs⟩
    · rintro ⟨-, ht, a, ha, hs⟩
      rw [SectionLine.trim_behindGap ht]
      refine ⟨fun hn => ?_, ht, List.cons_ne_nil _ _, a, ha, hs⟩
      exact absurd (SectionLine.isBlank_of_mem ht _ hn) (by decide)
  · rw [SectionLine.symbol?_of_label hl]
    exact ⟨nofun, fun h => absurd h.1 hl⟩

/-- The second line of an output section with a long name. -/
theorem lone_size_is_symbol :
    ∃ l : SectionLine, l.text = "                0x0000000000100000     0x2a31".toList ∧
      symbol? l.text = some ⟨"0x2a31", "0x2a31", 0x100000, 0⟩ := by
  let l : SectionLine :=
    { indent := List.replicate 16 ' '
      label := []
      address := "0000000000100000".toList
      gap := List.replicate 5 ' '
      size := "2a31".toList
      tail := []
      blank_indent := List.all_eq_true.1 rfl
      label_eq := .inl rfl
      digits_address := by decide
      blank_gap := by decide
      digits_size := by decide
      tail_eq := .inl rfl }
  exact ⟨l, by decide, by decide⟩

end KernelProbe.Symbols.LinkerMap
