import Mathlib.Data.List.TakeWhile
import KernelProbe.Proofs.Symbols.Table
import KernelProbe.Proofs.Text.Blank
import KernelProbe.Proofs.Text.Lines
import KernelProbe.Proofs.Text.Numerals
import KernelProbe.Proofs.Text.Pattern
import KernelProbe.Proofs.Text.Search
import KernelProbe.Symbols.LinkerMap

/-!
# What is read from a linker map

A line is taken apart from the left: blanks, a number, blanks, and a rest that is the name of a
symbol if it does not begin with a further number (`HasParts`, `BeginsWithNumber`). From these parts
it is told

* which lines have a symbol (`HasParts.symbol?_eq_some_iff`, `exists_hasParts_of_symbol?`);
* that these are the lines that match the pattern of a symbol and not the pattern of a section, in
  whichever way a search matches them (`symbol?_eq_some_iff_matches`);
* that the table of a map is the table of the symbols of its lines (`read_by_lines`).
-/

namespace KernelProbe.Symbols.LinkerMap

open Text

variable {line s indent ds gap rest behind : List Char} {a : UInt64} {symbol : Symbol}

/-! ## Numbers in front of a blank -/

/-- The text begins with `0x`, digits of base 16 and a blank. -/
def BeginsWithNumber (s : List Char) : Prop :=
  ∃ ds c r, s = '0' :: 'x' :: (ds ++ c :: r) ∧ IsRun isHexDigit ds ∧ isBlank c

theorem number?_eq_some_iff : number? s = some (ds, behind) ↔
    s = '0' :: 'x' :: (ds ++ behind) ∧ IsRun isHexDigit ds ∧
      ∃ c r, behind = c :: r ∧ isBlank c := by
  constructor
  · intro h
    obtain ⟨r, hr, hb⟩ := Option.bind_eq_some_iff.1 h
    obtain rfl := afterStart?_eq_some.1 hr
    dsimp only at hb
    split at hb
    · cases hb
    · next c t hd =>
      split at hb
      · next hc =>
        cases hb
        rw [Bool.and_eq_true, Bool.not_eq_true', List.isEmpty_eq_false_iff] at hc
        refine ⟨?_, ⟨hc.1, fun d => List.mem_takeWhile_imp⟩, c, t, rfl, hc.2⟩
        rw [← hd, List.takeWhile_append_dropWhile]
        rfl
      · cases hb
  · rintro ⟨rfl, hds, c, r, rfl, hc⟩
    -- A blank is no digit, so the digits end in front of it.
    have hstop : ¬isHexDigit c := fun h => by simp [isBlank_of_isHexDigit h] at hc
    have ht : (ds ++ c :: r).takeWhile isHexDigit = ds := by
      rw [List.takeWhile_append_of_pos hds.all, List.takeWhile_cons_of_neg hstop, List.append_nil]
    have hd : (ds ++ c :: r).dropWhile isHexDigit = c :: r := by
      rw [List.dropWhile_append_of_pos hds.all, List.dropWhile_cons_of_neg hstop]
    have hstart : afterStart? ['0', 'x'] ('0' :: 'x' :: (ds ++ c :: r)) = some (ds ++ c :: r) :=
      afterStart?_append ['0', 'x'] (ds ++ c :: r)
    rw [number?, hstart, Option.bind_eq_bind, Option.bind_some, ht, hd]
    simp [hds.ne_nil, hc]

theorem isSome_number?_iff : (number? s).isSome ↔ BeginsWithNumber s := by
  rw [Option.isSome_iff_exists]
  constructor
  · rintro ⟨⟨ds, behind⟩, h⟩
    obtain ⟨hs, hds, c, r, rfl, hc⟩ := number?_eq_some_iff.1 h
    exact ⟨ds, c, r, hs, hds, hc⟩
  · rintro ⟨ds, c, r, hs, hds, hc⟩
    exact ⟨(ds, c :: r), number?_eq_some_iff.2 ⟨hs, hds, c, r, rfl, hc⟩⟩

theorem readWord64_hexDigits (h : ∀ c ∈ ds, isHexDigit c) :
    readWord64 16 ds = .ok a ↔ Numeral 16 ds a.toNat := by
  rw [readWord64_eq_ok_iff (by decide)]
  constructor
  · rintro ⟨_, rfl | rfl, hn⟩
    · exact hn
    · exact absurd (h '+' List.mem_cons_self) (by decide)
  · exact fun hn => ⟨ds, .inl rfl, hn⟩

/-! ## Lines with an address -/

/-- The parts of a line with an address: blanks or none, `0x` and digits of base 16, blanks, and a
    rest. -/
structure HasParts (line indent ds gap rest : List Char) : Prop where
  eq : line = indent ++ '0' :: 'x' :: (ds ++ (gap ++ rest))
  indent : ∀ c ∈ indent, isBlank c
  digits : IsRun isHexDigit ds
  gap : IsRun isBlank gap

theorem HasParts.number?_eq (h : HasParts line indent ds gap rest) :
    number? (trimStart line) = some (ds, gap ++ rest) := by
  have hs : trimStart line = '0' :: 'x' :: (ds ++ (gap ++ rest)) := by
    rw [h.eq, trimStart_append_of_blank h.indent]
    rfl
  obtain ⟨c, g, rfl⟩ := List.exists_cons_of_ne_nil h.gap.ne_nil
  exact number?_eq_some_iff.2
    ⟨hs, h.digits, c, g ++ rest, rfl, h.gap.all c List.mem_cons_self⟩

/-- All blanks in front of the rest can be counted to the gap. -/
theorem HasParts.widen (h : HasParts line indent ds gap rest) :
    HasParts line indent ds (gap ++ rest.takeWhile isBlank) (trimStart rest) where
  eq := by rw [h.eq, List.append_assoc, trimStart, List.takeWhile_append_dropWhile]
  indent := h.indent
  digits := h.digits
  gap := ⟨List.append_ne_nil_of_left_ne_nil h.gap.ne_nil _,
    List.forall_mem_append.2 ⟨h.gap.all, fun _ => List.mem_takeWhile_imp⟩⟩

theorem exists_hasParts (h : number? (trimStart line) = some (ds, behind)) :
    ∃ indent gap rest, HasParts line indent ds gap rest := by
  obtain ⟨hs, hds, c, r, rfl, hc⟩ := number?_eq_some_iff.1 h
  refine ⟨line.takeWhile isBlank, [c], r, ?_, fun _ => List.mem_takeWhile_imp, hds,
    List.cons_ne_nil c [], List.forall_mem_singleton.2 hc⟩
  calc line = line.takeWhile isBlank ++ trimStart line := List.takeWhile_append_dropWhile.symm
    _ = line.takeWhile isBlank ++ '0' :: 'x' :: (ds ++ ([c] ++ r)) := by rw [hs]; rfl

/-- The symbol in a line with an address. -/
theorem HasParts.symbol?_eq_some_iff (h : HasParts line indent ds gap rest) :
    symbol? line = some symbol ↔
      '\n' ∉ trimStart rest ∧ ¬BeginsWithNumber (trimStart rest) ∧ trim rest ≠ [] ∧
        ∃ a, Numeral 16 ds a.toNat ∧
          symbol = { name := .ofList (trim rest), displayName := .ofList (trim rest),
                     address := a, size := 0 } := by
  have he : split? line =
      if (trimStart rest).contains '\n' then none else some (ds, trimStart rest) := by
    rw [split?, h.number?_eq, Option.bind_eq_bind, Option.bind_some]
    dsimp only
    rw [trimStart_append_of_blank h.gap.all]
  rw [symbol?, he, Option.bind_eq_bind]
  split
  · next hn => simp [List.contains_iff_mem.1 hn]
  · next hn =>
    have hn : '\n' ∉ trimStart rest := by simpa using hn
    rw [Option.bind_some]
    dsimp only
    rw [← isSome_number?_iff]
    split
    · next hs =>
      rw [Bool.or_eq_true, List.isEmpty_iff] at hs
      refine ⟨nofun, fun ⟨_, hnumber, hname, _⟩ => ?_⟩
      exact hs.elim (absurd · hnumber) (absurd · hname)
    · next hs =>
      rw [Bool.or_eq_true, List.isEmpty_iff, not_or] at hs
      have hname : trim rest ≠ [] := hs.2
      rw [and_iff_right hn, and_iff_right hs.1, and_iff_right hname, Option.bind_eq_bind,
        Option.bind_eq_some_iff]
      refine exists_congr fun a => ?_
      rw [toOption_eq_some_iff, readWord64_hexDigits h.digits.all, Option.some.injEq, eq_comm]
      rfl

/-- No other line has a symbol. -/
theorem exists_hasParts_of_symbol? (h : symbol? line = some symbol) :
    ∃ indent ds gap rest, HasParts line indent ds gap rest := by
  obtain ⟨⟨ds, rest⟩, he, -⟩ := Option.bind_eq_some_iff.1 h
  obtain ⟨⟨ds, behind⟩, hn, -⟩ := Option.bind_eq_some_iff.1 he
  obtain ⟨indent, gap, rest, hp⟩ := exists_hasParts hn
  exact ⟨indent, ds, gap, rest, hp⟩

/-! ## Two patterns -/

/-- A line with an address: `^\s*0x([0-9A-Fa-f]+)\s+(.*)$`. -/
def symbolPattern : Pattern :=
  .row [.many isBlank, .literal ['0', 'x'], .group (.some isHexDigit), .some isBlank,
    .group (.many (· ≠ '\n'))]

/-- A line with an address and a size, behind a name or not:
    `^\s*(?:\.\w+\s+)?0x([0-9A-Fa-f]+)\s+0x([0-9A-Fa-f]+)\s+(.*)$`. Which characters a word has
    does not matter. -/
def sectionPattern (isWord : Char → Bool) : Pattern :=
  .row [.many isBlank, .optional (.row [.literal ['.'], .some isWord, .some isBlank]),
    .literal ['0', 'x'], .group (.some isHexDigit), .some isBlank,
    .literal ['0', 'x'], .group (.some isHexDigit), .some isBlank, .group (.many (· ≠ '\n'))]

theorem symbolPattern_matches_iff {groups : List (List Char)} :
    symbolPattern.Matches line groups ↔ ∃ indent ds gap rest,
      HasParts line indent ds gap rest ∧ '\n' ∉ rest ∧ groups = [ds, rest] := by
  simp only [symbolPattern, Pattern.row, Pattern.matches_many_seq, Pattern.matches_literal_seq,
    Pattern.matches_group_some_seq, Pattern.matches_some_seq, Pattern.matches_group_many]
  constructor
  · rintro ⟨indent, _, rfl, hi, _, _, rfl, rfl, ds, _, _, rfl, rfl, hds, gap, rest, rfl, hg, hr,
      rfl⟩
    exact ⟨indent, ds, gap, rest, ⟨rfl, hi, hds, hg⟩, fun hm => by simpa using hr '\n' hm, rfl⟩
  · rintro ⟨indent, ds, gap, rest, ⟨rfl, hi, hds, hg⟩, hr, rfl⟩
    exact ⟨indent, _, rfl, hi, _, _, rfl, rfl, ds, _, _, rfl, rfl, hds, gap, rest, rfl, hg,
      fun c hc => decide_eq_true (ne_of_mem_of_not_mem hc hr), rfl⟩

/-- A line with an address matches the other pattern if a further number follows. It has no name in
    front, because the address is the first thing in it that is no blank. -/
theorem exists_sectionPattern_matches_iff (isWord : Char → Bool)
    (h : HasParts line indent ds gap rest) (hn : '\n' ∉ trimStart rest) :
    (∃ groups, (sectionPattern isWord).Matches line groups) ↔
      BeginsWithNumber (trimStart rest) := by
  simp only [sectionPattern, Pattern.row, Pattern.matches_many_seq, Pattern.matches_literal_seq,
    Pattern.matches_group_some_seq, Pattern.matches_some_seq, Pattern.matches_group_many,
    Pattern.matches_optional_seq, Pattern.matches_seq_assoc]
  constructor
  · rintro ⟨_, indent', _, he, hi, ⟨_, _, rfl, rfl, ds', _, _, rfl, rfl, hds, gap', _, rfl, hg, _,
      _, rfl, rfl, size, _, _, rfl, rfl, hsize, gap'', tail, rfl, hg', ht, rfl⟩ |
      ⟨_, _, rfl, rfl, -⟩⟩
    · have h' : HasParts line indent' ds' gap' ('0' :: 'x' :: (size ++ (gap'' ++ tail))) :=
        ⟨he, hi, hds, hg⟩
      have hrest := h.number?_eq
      rw [h'.number?_eq, Option.some.injEq, Prod.mk.injEq] at hrest
      rw [← trimStart_append_of_blank h.gap.all, ← hrest.2, trimStart_append_of_blank h'.gap.all]
      obtain ⟨c, g, rfl⟩ := List.exists_cons_of_ne_nil hg'.ne_nil
      exact ⟨size, c, g ++ tail, rfl, hsize, hg'.all c List.mem_cons_self⟩
    · have hs := (number?_eq_some_iff.1 h.number?_eq).1
      rw [he, trimStart_append_of_blank hi] at hs
      cases hs
  · rintro ⟨size, c, tail, hs, hsize, hc⟩
    have htail : '\n' ∉ tail := fun hm => hn (hs ▸ by simp [hm])
    exact ⟨[ds, size, tail], indent, _, h.widen.eq, h.indent, .inl ⟨['0', 'x'], _, rfl, rfl, ds, _,
      _, rfl, rfl, h.digits, _, _, rfl, h.widen.gap, ['0', 'x'], _, hs, rfl, size, _, _, rfl, rfl,
      hsize, [c], tail, rfl, ⟨List.cons_ne_nil c [], List.forall_mem_singleton.2 hc⟩,
      fun d hd => decide_eq_true (ne_of_mem_of_not_mem hd htail), rfl⟩⟩

/-- A line has a symbol exactly if it matches the first pattern and not the second one. However the
    blanks in front of the name are shared out, the name is the same. -/
theorem symbol?_eq_some_iff_matches (isWord : Char → Bool) : symbol? line = some symbol ↔
    ∃ ds name a, symbolPattern.Matches line [ds, name] ∧
      (¬∃ groups, (sectionPattern isWord).Matches line groups) ∧ trim name ≠ [] ∧
      Numeral 16 ds a.toNat ∧
      symbol = { name := .ofList (trim name), displayName := .ofList (trim name),
                 address := a, size := 0 } := by
  constructor
  · intro h
    obtain ⟨indent, ds, gap, rest, hp⟩ := exists_hasParts_of_symbol? h
    obtain ⟨hn, hnumber, hname, a, ha, hs⟩ := hp.symbol?_eq_some_iff.1 h
    rw [← trim_trimStart] at hname hs
    exact ⟨ds, trimStart rest, a, symbolPattern_matches_iff.2 ⟨_, _, _, _, hp.widen, hn, rfl⟩,
      mt (exists_sectionPattern_matches_iff isWord hp hn).1 hnumber, hname, ha, hs⟩
  · rintro ⟨ds, name, a, hm, hsection, hname, ha, hs⟩
    obtain ⟨indent, ds, gap, name, hp, hn, he⟩ := symbolPattern_matches_iff.1 hm
    cases he
    have hn : '\n' ∉ trimStart name := mt mem_of_mem_trimStart hn
    exact hp.symbol?_eq_some_iff.2 ⟨hn,
      mt (exists_sectionPattern_matches_iff isWord hp hn).2 hsection, hname, a, ha, hs⟩

/-! ## The symbols of a map -/

/-- A line of a symbol: an address below the limit of a word, blanks, and a name that does not begin
    as a size does. -/
def IsSymbolLine (line : List Char) (a : UInt64) (name : List Char) : Prop :=
  ∃ indent ds gap rest, HasParts line indent ds gap rest ∧ Numeral 16 ds a.toNat ∧
    ¬BeginsWithNumber (trimStart rest) ∧ name = trim rest ∧ name ≠ []

theorem symbol?_eq_some_iff (hn : '\n' ∉ line) : symbol? line = some symbol ↔
    ∃ a name, IsSymbolLine line a name ∧
      symbol = { name := .ofList name, displayName := .ofList name, address := a, size := 0 } := by
  constructor
  · intro h
    obtain ⟨indent, ds, gap, rest, hp⟩ := exists_hasParts_of_symbol? h
    obtain ⟨-, hnumber, hname, a, ha, hs⟩ := hp.symbol?_eq_some_iff.1 h
    exact ⟨a, trim rest, ⟨indent, ds, gap, rest, hp, ha, hnumber, rfl, hname⟩, hs⟩
  · rintro ⟨a, _, ⟨indent, ds, gap, rest, hp, ha, hnumber, rfl, hname⟩, hs⟩
    have hrest : '\n' ∉ trimStart rest := fun hm => hn (by
      rw [hp.eq]
      simp [mem_of_mem_trimStart hm])
    exact hp.symbol?_eq_some_iff.2 ⟨hrest, hnumber, hname, a, ha, hs⟩

/-- The symbols of some lines, in the order of the lines. -/
inductive SymbolsOf : List (List Char) → List Symbol → Prop
  | nil : SymbolsOf [] []
  | symbol {line : List Char} {lines : List (List Char)} {symbols : List Symbol} {a : UInt64}
      {name : List Char} : IsSymbolLine line a name → SymbolsOf lines symbols →
      SymbolsOf (line :: lines)
        ({ name := .ofList name, displayName := .ofList name, address := a, size := 0 } :: symbols)
  | other {line : List Char} {lines : List (List Char)} {symbols : List Symbol} :
      (∀ a name, ¬IsSymbolLine line a name) → SymbolsOf lines symbols →
      SymbolsOf (line :: lines) symbols

theorem symbolsOf_filterMap {ls : List (List Char)} (h : ∀ line ∈ ls, '\n' ∉ line) :
    SymbolsOf ls (ls.filterMap symbol?) := by
  induction ls with
  | nil => exact .nil
  | cons line ls ih =>
    rw [List.forall_mem_cons] at h
    cases hs : symbol? line with
    | none =>
      rw [List.filterMap_cons_none hs]
      refine .other (fun a name hline => ?_) (ih h.2)
      have := (symbol?_eq_some_iff h.1).2 ⟨a, name, hline, rfl⟩
      rw [hs] at this
      cases this
    | some symbol =>
      obtain ⟨a, name, hline, rfl⟩ := (symbol?_eq_some_iff h.1).1 hs
      rw [List.filterMap_cons_some hs]
      exact .symbol hline (ih h.2)

/-- A line has a symbol exactly if it is a line of a symbol, and then the symbol has the address and
    the name in the line and no size. The table of a map is that of the symbols of its lines: the
    nearest symbol to an address and the address of a name are told from them. -/
theorem read_by_lines :
    (∀ line, '\n' ∉ line → ∀ symbol, symbol? line = some symbol ↔
      ∃ a name, IsSymbolLine line a name ∧
        symbol = { name := .ofList name, displayName := .ofList name, address := a, size := 0 }) ∧
    ∀ text : String, ∃ symbols, SymbolsOf (lines text.toList) symbols ∧
      read text = .ofSymbols symbols ∧
      (∀ a, ((read text).nearest? a = none ↔ ∀ s ∈ symbols, a < s.address) ∧
        ∀ s, (read text).nearest? a = some s ↔ Table.IsNearest symbols a s) ∧
      ∀ name, ((read text).resolve? name = none ↔ ∀ s ∈ symbols, s.name ≠ name) ∧
        ∀ a, (read text).resolve? name = some a ↔
          IsGreatest {b | ∃ s ∈ symbols, s.name = name ∧ s.address = b} a := by
  refine ⟨fun line hn symbol => symbol?_eq_some_iff hn, fun text => ?_⟩
  refine ⟨(lines text.toList).filterMap symbol?,
    symbolsOf_filterMap fun line => lineFeed_not_mem_of_mem_lines, rfl, fun a => ?_, fun name => ?_⟩
  · exact ⟨Table.nearest?_eq_none_iff, fun s => Table.nearest?_eq_some_iff⟩
  · exact ⟨Table.resolve?_eq_none_iff, fun a => Table.resolve?_eq_some_iff⟩

/-- The line of a symbol in a map, with blanks behind the name. -/
theorem read_by_lines_padded :
    '\n' ∉ "   0x00000000001000a0   ISR_PageFault  ".toList ∧
      ∃ a name, IsSymbolLine "   0x00000000001000a0   ISR_PageFault  ".toList a name ∧
        (⟨"ISR_PageFault", "ISR_PageFault", 0x1000a0, 0⟩ : Symbol) =
          { name := .ofList name, displayName := .ofList name, address := a, size := 0 } :=
  ⟨by decide, (read_by_lines.1 _ (by decide) _).1 (by decide)⟩

end KernelProbe.Symbols.LinkerMap
