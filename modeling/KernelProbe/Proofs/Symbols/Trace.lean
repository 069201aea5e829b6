import KernelProbe.Proofs.Symbols.Table
import KernelProbe.Proofs.Text.Numerals
import KernelProbe.Proofs.Text.Search
import KernelProbe.Symbols.Trace

/-!
# Annotated traces

Which lines are lines of a trace is said by a grammar of its own (`IsFrameLine`), and what is said
about an address by the symbols as they came (`Answer`), without the table. A line is annotated
exactly if it is a line of a trace, with exactly this answer (`annotated_iff`). The distance from
the nearest symbol is a difference of words; it is the difference of the addresses, because the
nearest symbol does not lie above the address.
-/

namespace KernelProbe.Symbols.Trace

open Text

variable {symbols : List Symbol} {line s : List Char} {f : Frame} {a : UInt64} {answer : String}

/-! ## Lines of a trace -/

/-- The marks that may stand in front of an address in base 16. -/
def marks : List (List Char) := [[], ['0', 'x'], ['0', 'X']]

/-- The lines of a trace: `#`, an index, one `:` and an address. The address has digits of base 16,
    and a mark of the base and a plus sign may stand in front of them. Blanks around index and
    address do not count. -/
def IsFrameLine (line : List Char) (f : Frame) : Prop :=
  ∃ before behind mark digits ds,
    line = '#' :: (before ++ ':' :: behind) ∧ ':' ∉ before ∧ ':' ∉ behind ∧
    f.index = trim before ∧
    trim behind = mark ++ digits ∧ mark ∈ marks ∧
    (digits = ds ∨ digits = '+' :: ds) ∧ Numeral 16 ds f.address.toNat

/-- A text of digits has no mark. -/
theorem digitsOf_of_numeral {n : Nat} {ds : List Char} (h : Numeral 16 ds n) :
    digitsOf ds = ds := by
  unfold digitsOf
  split
  · exact absurd (by simp) (h.not_mem (c := 'x') (by decide))
  · exact absurd (by simp) (h.not_mem (c := 'X') (by decide))
  · rfl

theorem readWord64_digitsOf : readWord64 16 (digitsOf s) = .ok a ↔
    ∃ mark digits ds, s = mark ++ digits ∧ mark ∈ marks ∧
      (digits = ds ∨ digits = '+' :: ds) ∧ Numeral 16 ds a.toNat := by
  rw [readWord64_eq_ok_iff (by decide)]
  constructor
  · rintro ⟨ds, hs, hn⟩
    have hmark : ∃ mark ∈ marks, s = mark ++ digitsOf s := by
      unfold digitsOf
      split
      · exact ⟨['0', 'x'], by decide, rfl⟩
      · exact ⟨['0', 'X'], by decide, rfl⟩
      · exact ⟨[], by decide, rfl⟩
    obtain ⟨mark, hm, he⟩ := hmark
    exact ⟨mark, digitsOf s, ds, he, hm, hs, hn⟩
  · rintro ⟨mark, digits, ds, rfl, hm, hs, hn⟩
    refine ⟨ds, ?_, hn⟩
    simp only [marks, List.mem_cons, List.not_mem_nil, or_false] at hm
    rcases hm with rfl | rfl | rfl
    · rcases hs with rfl | rfl
      · exact .inl (digitsOf_of_numeral hn)
      · exact .inr rfl
    · exact hs
    · exact hs

theorem frame?_eq_some_iff : frame? line = some f ↔ IsFrameLine line f := by
  constructor
  · intro h
    obtain ⟨body, hb, hs⟩ := Option.bind_eq_some_iff.1 h
    obtain ⟨⟨before, behind⟩, hs, ha⟩ := Option.bind_eq_some_iff.1 hs
    obtain ⟨rfl, hbefore⟩ := splitAt?_eq_some hs
    dsimp only at ha
    split at ha
    · cases ha
    · next hbehind =>
      obtain ⟨a, ha, hf⟩ := Option.bind_eq_some_iff.1 ha
      obtain ⟨mark, digits, ds, hds⟩ := readWord64_digitsOf.1 (toOption_eq_some_iff.1 ha)
      cases hf
      exact ⟨before, behind, mark, digits, ds, afterStart?_eq_some.1 hb, hbefore,
        by simpa using hbehind, rfl, hds⟩
  · rintro ⟨before, behind, mark, digits, ds, rfl, hbefore, hbehind, hi, hds⟩
    have ha : readWord64 16 (digitsOf (trim behind)) = .ok f.address :=
      readWord64_digitsOf.2 ⟨mark, digits, ds, hds⟩
    rw [frame?, afterStart?, if_pos rfl, afterStart?, Option.bind_eq_bind, Option.bind_some,
      splitAt?_append hbefore]
    simp [hbehind, ha, Except.toOption, ← hi]

/-! ## Answers -/

/-- A frame as it is shown. -/
def shown (f : Frame) : String :=
  "#0x" ++ String.ofList f.index ++ ": " ++ hex f.address.toNat

/-- What is said about a frame: the nearest of the symbols and how far the address lies behind it,
    or that no symbol has an address up to it. -/
inductive Answer (symbols : List Symbol) (f : Frame) : String → Prop
  | known {s : Symbol} {k : Nat} : Table.IsNearest symbols f.address s →
      s.address.toNat + k = f.address.toNat →
      Answer symbols f (shown f ++ " (" ++ s.displayName ++ "+" ++ hex k ++ ")")
  | unknown : (∀ s ∈ symbols, f.address < s.address) →
      Answer symbols f (shown f ++ " (Unknown)")

/-- The distance from a symbol that does not lie above the address. -/
theorem toNat_address_sub {a b : UInt64} {k : Nat} (hle : b ≤ a) :
    b.toNat + k = a.toNat ↔ k = (a - b).toNat := by
  have h : b.toNat ≤ a.toNat := hle
  rw [UInt64.toNat_sub_of_le a b hle]
  omega

theorem render_of_nearest {s : Symbol} (h : (Table.ofSymbols symbols).nearest? f.address = some s) :
    f.render (.ofSymbols symbols) =
      shown f ++ " (" ++ s.displayName ++ "+" ++ hex (f.address - s.address).toNat ++ ")" := by
  rw [Frame.render, h]
  simp [shown, toString]

theorem render_of_none (h : (Table.ofSymbols symbols).nearest? f.address = none) :
    f.render (.ofSymbols symbols) = shown f ++ " (Unknown)" := by
  rw [Frame.render, h]
  rfl

theorem answer_iff : Answer symbols f answer ↔ f.render (.ofSymbols symbols) = answer := by
  constructor
  · rintro (⟨hs, hk⟩ | hs)
    · rw [render_of_nearest (Table.nearest?_eq_some_iff.2 hs), (toNat_address_sub hs.le).1 hk]
    · exact render_of_none (Table.nearest?_eq_none_iff.2 hs)
  · rintro rfl
    cases hn : (Table.ofSymbols symbols).nearest? f.address with
    | none =>
      rw [render_of_none hn]
      exact .unknown (Table.nearest?_eq_none_iff.1 hn)
    | some s =>
      have hs := Table.nearest?_eq_some_iff.1 hn
      rw [render_of_nearest hn]
      exact .known hs ((toNat_address_sub hs.le).2 rfl)

/-- A line is annotated exactly if it is a line of a trace, and the answer is the nearest of the
    symbols with the distance from it, or that there is none. A trace is annotated line by line. -/
theorem annotated_iff (symbols : List Symbol) :
    (∀ line : String,
      ((annotateLine? (.ofSymbols symbols) line).isSome ↔ ∃ f, IsFrameLine line.toList f) ∧
      ∀ answer, annotateLine? (.ofSymbols symbols) line = some answer ↔
        ∃ f, IsFrameLine line.toList f ∧ Answer symbols f answer) ∧
    ∀ trace : String, annotate (.ofSymbols symbols) trace =
      ((lines trace.toList).map String.ofList).filterMap
        (annotateLine? (.ofSymbols symbols)) := by
  refine ⟨fun line => ⟨?_, fun answer => ?_⟩, fun trace => ?_⟩
  · rw [annotateLine?, Option.isSome_map, Option.isSome_iff_exists]
    exact exists_congr fun f => frame?_eq_some_iff
  · rw [annotateLine?, Option.map_eq_some_iff]
    exact exists_congr fun f => and_congr frame?_eq_some_iff answer_iff.symm
  · rw [annotate, List.filterMap_map]
    refine List.filterMap_congr fun line _ => ?_
    rw [Function.comp_apply, annotateLine?, String.toList_ofList]

end KernelProbe.Symbols.Trace
