import KernelProbe.Mi.Literal
import KernelProbe.Proofs.Text.Rest
import KernelProbe.Proofs.Text.Utf8
import KernelProbe.Text.Digits

/-!
# The grammar of string literals

The inside of a literal is a row of units, each of which stands for bytes (`Units`): a character
other than a quote or backslash, or a backslash with a letter for a control character, with one
to three octal digits, of which it takes as many as there are, or with any other character.

* `gives_read` and `exists_of_read`: a literal is read exactly if its inside is a row of units;
* `Written.units`: a text may be written in many ways (`Written`), each of its characters as it is,
  by an escape, or byte by byte in octal digits, and each of them is a row of units for the text's
  own bytes;
* `written_escape`: what `quote` writes is one of these ways.
-/

namespace KernelProbe.Mi.Literal

open Text Rest

/-- The letters behind a backslash that stand for control characters. -/
def controls : List (Char × UInt8) := [('n', 10), ('t', 9), ('r', 13)]

/-- The octal digits, each in the place of its value. -/
def octals : List Char := ['0', '1', '2', '3', '4', '5', '6', '7']

/-- The text does not go on with an octal digit. -/
def StopsOctal (s : List Char) : Prop :=
  ∀ c, s.head? = some c → c ∉ octals

/-- The number that a value becomes when octal digits are appended to it. -/
def octalValue (value : Nat) (ds : List Char) : Nat :=
  ds.foldl (fun v d => v * 8 + octals.idxOf d) value

/-- The inside of a literal, and the bytes it stands for. -/
inductive Units : List Char → List UInt8 → Prop
  | nil : Units [] []
  /-- A character that stands for itself. -/
  | plain {c t bytes} : c ≠ '"' → c ≠ '\\' → Units t bytes →
      Units (c :: t) (Utf8.encodeChar c ++ bytes)
  /-- A control character. -/
  | control {e b t bytes} : (e, b) ∈ controls → Units t bytes →
      Units ('\\' :: e :: t) (b :: bytes)
  /-- A byte by its octal digits: three, or as many as there are. -/
  | octal {ds t bytes} : ds ≠ [] → ds.length ≤ 3 → (∀ d ∈ ds, d ∈ octals) →
      ds.length = 3 ∨ StopsOctal t → Units t bytes →
      Units ('\\' :: (ds ++ t)) ((octalValue 0 ds).toUInt8 :: bytes)
  /-- Any other character behind a backslash. -/
  | other {e t bytes} : (∀ b, (e, b) ∉ controls) → e ∉ octals → Units t bytes →
      Units ('\\' :: e :: t) (Utf8.encodeChar e ++ bytes)

/-! ## Octal digits -/

variable {s t r ds : List Char} {bytes more : List UInt8} {c e : Char} {b : UInt8}

theorem octalDigit?_of_mem (h : c ∈ octals) : octalDigit? c = some (octals.idxOf c) := by
  simp only [octals, List.mem_cons, List.not_mem_nil, or_false] at h
  rcases h with rfl | rfl | rfl | rfl | rfl | rfl | rfl | rfl <;> rfl

theorem octalDigit?_of_notMem (h : c ∉ octals) : octalDigit? c = none := by
  refine if_neg fun ⟨h0, h7⟩ => h ?_
  -- A character in the range is given by a number in it, and these are eight.
  have all : ∀ n ≤ 55, 48 ≤ n → Char.ofNat n ∈ octals := by decide
  rw [← Char.ofNat_toNat c]
  exact all c.toNat h7 h0

theorem StopsOctal.append (h : StopsOctal t) : StopsOctal (t ++ '"' :: r) := by
  cases t with
  | nil =>
    rintro c ⟨⟩
    decide
  | cons d t => exact h

theorem StopsOctal.of_append (h : StopsOctal (t ++ r)) : StopsOctal t := by
  cases t with
  | nil => exact fun c hc => by cases hc
  | cons d t => exact h

theorem appendOctal_append {count value : Nat} (hd : ∀ d ∈ ds, d ∈ octals)
    (hl : ds.length ≤ count) (hs : ds.length = count ∨ StopsOctal r) :
    appendOctal count value (ds ++ r) = (octalValue value ds, r) := by
  induction ds generalizing count value with
  | nil =>
    cases count with
    | zero => rfl
    | succ count =>
      have hs := hs.resolve_left (by simp)
      cases r with
      | nil => rfl
      | cons c r => rw [List.nil_append, appendOctal, octalDigit?_of_notMem (hs c rfl)]; rfl
  | cons d ds ih =>
    cases count with
    | zero => simp at hl
    | succ count =>
      rw [List.cons_append, appendOctal, octalDigit?_of_mem (hd d List.mem_cons_self)]
      dsimp only
      rw [ih (fun e he => hd e (List.mem_cons_of_mem _ he)) (Nat.le_of_succ_le_succ hl)
        (hs.imp_left Nat.succ.inj), octalValue, octalValue, List.foldl_cons]

/-- Every text has the digits at its start, up to a count. -/
theorem exists_octalDigits (count : Nat) (s : List Char) : ∃ ds r, s = ds ++ r ∧
    (∀ d ∈ ds, d ∈ octals) ∧ ds.length ≤ count ∧
      (ds.length = count ∨ StopsOctal r) := by
  induction count generalizing s with
  | zero => exact ⟨[], s, rfl, by simp, Nat.le_refl _, .inl rfl⟩
  | succ count ih =>
    cases s with
    | nil => exact ⟨[], [], rfl, by simp, by simp, .inr fun c hc => by cases hc⟩
    | cons c s =>
      by_cases hc : c ∈ octals
      · obtain ⟨ds, r, rfl, hd, hl, hs⟩ := ih s
        exact ⟨c :: ds, r, rfl, List.forall_mem_cons.2 ⟨hc, hd⟩, Nat.succ_le_succ hl,
          hs.imp_left (congrArg Nat.succ)⟩
      · refine ⟨[], c :: s, rfl, by simp, by simp, .inr ?_⟩
        rintro d ⟨⟩
        exact hc

/-! ## Units -/

theorem gives_plain (hq : c ≠ '"') (hb : c ≠ '\\') :
    Gives (unit? (c :: r)) (Utf8.encodeChar c) r := by
  rw [unit?, if_neg hq, if_neg hb]
  exact gives_some

theorem gives_backslash {found : Option (List UInt8 × Rest s)} (hs : escaped? s = found)
    (hf : Gives found bytes r) : Gives (unit? ('\\' :: s)) bytes r := by
  obtain ⟨h, rfl⟩ := hf
  rw [unit?, if_neg (by decide), if_pos rfl, hs]
  exact gives_some

theorem gives_control (h : (e, b) ∈ controls) : Gives (unit? ('\\' :: e :: r)) [b] r := by
  have hs : escaped? (e :: r) = some ([b], Rest.tail e r) := by
    simp only [controls, List.mem_cons, Prod.mk.injEq, List.not_mem_nil, or_false] at h
    rcases h with ⟨rfl, rfl⟩ | ⟨rfl, rfl⟩ | ⟨rfl, rfl⟩ <;> rfl
  exact gives_backslash hs gives_some

theorem ne_of_not_mem_controls (h : ∀ b, (e, b) ∉ controls) : e ≠ 'n' ∧ e ≠ 't' ∧ e ≠ 'r' := by
  simp only [controls, List.mem_cons, Prod.mk.injEq, List.not_mem_nil, or_false] at h
  exact ⟨fun he => h 10 (.inl ⟨he, rfl⟩), fun he => h 9 (.inr (.inl ⟨he, rfl⟩)),
    fun he => h 13 (.inr (.inr ⟨he, rfl⟩))⟩

theorem gives_other (h : ∀ b, (e, b) ∉ controls) (ho : e ∉ octals) :
    Gives (unit? ('\\' :: e :: r)) (Utf8.encodeChar e) r := by
  obtain ⟨hn, ht, hr⟩ := ne_of_not_mem_controls h
  have hs : escaped? (e :: r) = some (Utf8.encodeChar e, Rest.tail e r) := by
    rw [escaped?, if_neg hn, if_neg ht, if_neg hr, octalDigit?_of_notMem ho]
  exact gives_backslash hs gives_some

/-- An octal digit is no letter for a control character. -/
theorem not_mem_controls (h : e ∈ octals) (b : UInt8) : (e, b) ∉ controls := by
  intro hm
  simp only [controls, List.mem_cons, Prod.mk.injEq, List.not_mem_nil, or_false] at hm
  rcases hm with ⟨rfl, -⟩ | ⟨rfl, -⟩ | ⟨rfl, -⟩ <;> exact absurd h (by decide)

theorem gives_octal (hn : ds ≠ []) (hl : ds.length ≤ 3) (hd : ∀ d ∈ ds, d ∈ octals)
    (hs : ds.length = 3 ∨ StopsOctal r) :
    Gives (unit? ('\\' :: (ds ++ r))) [(octalValue 0 ds).toUInt8] r := by
  cases ds with
  | nil => exact absurd rfl hn
  | cons d ds =>
    have hv := hd d List.mem_cons_self
    let v := octals.idxOf d
    have ha : appendOctal 2 v (ds ++ r) = (octalValue v ds, r) :=
      appendOctal_append (fun e he => hd e (List.mem_cons_of_mem _ he))
        (Nat.le_of_succ_le_succ hl) (hs.imp_left Nat.succ.inj)
    have ho : octalValue 0 (d :: ds) = octalValue v ds := by
      rw [octalValue, octalValue, List.foldl_cons, Nat.zero_mul, Nat.zero_add]
    obtain ⟨hn, ht, hr⟩ := ne_of_not_mem_controls (not_mem_controls hv)
    have he : escaped? (d :: (ds ++ r)) = some ([(appendOctal 2 v (ds ++ r)).1.toUInt8],
        ⟨(appendOctal 2 v (ds ++ r)).2, Nat.lt_succ_of_le (length_appendOctal ..)⟩) := by
      rw [escaped?, if_neg hn, if_neg ht, if_neg hr, octalDigit?_of_mem hv]
    obtain ⟨_, hg⟩ := gives_backslash he gives_some
    refine ⟨?_, hg.trans ?_⟩
    · simp only [List.cons_append, List.length_cons, List.length_append]
      omega
    · simp only [ha, ho]

/-- Every unit that is read is one of the grammar's, in front of any units. -/
theorem exists_unit (h : Gives (unit? s) bytes r) : ∃ u, s = u ++ r ∧
    ∀ t rest more, r = t ++ rest → Units t more → Units (u ++ t) (bytes ++ more) := by
  cases s with
  | nil => exact absurd h not_gives_none
  | cons c s =>
    by_cases hq : c = '"'
    · rw [unit?, if_pos hq] at h
      exact absurd h not_gives_none
    by_cases hb : c = '\\'
    · subst hb
      cases s with
      | nil => exact absurd h not_gives_none
      | cons e s =>
        by_cases hm : ∃ b, (e, b) ∈ controls
        · obtain ⟨b, hm⟩ := hm
          obtain ⟨rfl, rfl⟩ := (gives_control hm).unique h
          exact ⟨['\\', e], rfl, fun t rest more _ ht => .control hm ht⟩
        have hm := not_exists.1 hm
        by_cases ho : e ∈ octals
        · -- Fewer than three digits end at the start of the rest, and so in front of any units
          -- that the rest starts with.
          obtain ⟨ds, r', rfl, hd, hl, hs⟩ := exists_octalDigits 2 s
          have hd' : ∀ d ∈ e :: ds, d ∈ octals := List.forall_mem_cons.2 ⟨ho, hd⟩
          have hs' : (e :: ds).length = 3 ∨ StopsOctal r' := hs.imp_left (congrArg Nat.succ)
          have hl' : (e :: ds).length ≤ 3 := Nat.succ_le_succ hl
          obtain ⟨rfl, rfl⟩ := (gives_octal (List.cons_ne_nil e ds) hl' hd' hs').unique h
          refine ⟨'\\' :: e :: ds, rfl, fun t rest more hr ht => ?_⟩
          subst hr
          exact .octal (List.cons_ne_nil e ds) hl' hd' (hs'.imp_right StopsOctal.of_append) ht
        · obtain ⟨rfl, rfl⟩ := (gives_other hm ho).unique h
          exact ⟨['\\', e], rfl, fun t rest more _ ht => .other hm ho ht⟩
    · obtain ⟨rfl, rfl⟩ := (gives_plain hq hb).unique h
      exact ⟨[c], rfl, fun t rest more _ ht => .plain hq hb ht⟩

/-! ## Literals -/

/-- A unit in front of an inside that is read. -/
theorem gives_body_of_unit {rest : List Char} (hu : Gives (unit? s) bytes r)
    (hb : Gives (body? r) more rest) : Gives (body? s) (bytes ++ more) rest := by
  obtain ⟨hr, hu⟩ := hu
  obtain ⟨hrest, hb⟩ := hb
  cases s with
  | nil => cases hu
  | cons c s =>
    have hq : c ≠ '"' := by
      intro hq
      rw [unit?, if_pos hq] at hu
      cases hu
    rw [body?, if_neg hq, hu]
    dsimp only
    rw [hb]
    exact gives_some

theorem gives_body (h : Units t bytes) (r : List Char) :
    Gives (body? (t ++ '"' :: r)) bytes r := by
  induction h with
  | nil =>
    rw [List.nil_append, body?, if_pos rfl]
    exact gives_some
  | plain hq hb _ ih => exact gives_body_of_unit (gives_plain hq hb) ih
  | control hm _ ih => exact gives_body_of_unit (gives_control hm) ih
  | @octal ds t bytes hn hl hd hs _ ih =>
    rw [List.cons_append, List.append_assoc]
    exact gives_body_of_unit (gives_octal hn hl hd (hs.imp_right StopsOctal.append)) ih
  | other hm ho _ ih => exact gives_body_of_unit (gives_other hm ho) ih

/-- An inside that is read ends at once, or has a unit in front. -/
theorem body_cases (h : Gives (body? s) bytes r) :
    (s = '"' :: r ∧ bytes = []) ∨ ∃ first t more, Gives (unit? s) first t ∧
      Gives (body? t) more r ∧ bytes = first ++ more := by
  cases s with
  | nil =>
    rw [body?] at h
    exact absurd h not_gives_none
  | cons c s =>
    by_cases hq : c = '"'
    · rw [body?, if_pos hq] at h
      obtain ⟨rfl, rfl⟩ := gives_some.unique h
      exact .inl ⟨by rw [hq, val_tail], rfl⟩
    rw [body?, if_neg hq] at h
    split at h
    · exact absurd h not_gives_none
    · next first t shorter hu =>
      split at h
      · exact absurd h not_gives_none
      · next more rest hb =>
        obtain ⟨rfl, rfl⟩ := gives_some.unique h
        exact .inr ⟨first, t, more, gives_of_eq hu, gives_of_eq hb, rfl⟩

theorem exists_of_body (h : Gives (body? s) bytes r) :
    ∃ t, s = t ++ '"' :: r ∧ Units t bytes := by
  -- By induction on the length: what is left behind a unit is shorter, by one to four characters.
  induction hn : s.length using Nat.strongRecOn generalizing s bytes with
  | ind n ih =>
    rcases body_cases h with ⟨rfl, rfl⟩ | ⟨first, t, more, hu, hb, rfl⟩
    · exact ⟨[], rfl, .nil⟩
    · obtain ⟨u, hs, unit⟩ := exists_unit hu
      obtain ⟨t', ht, units⟩ := ih t.length (hn ▸ hu.length_lt) hb rfl
      refine ⟨u ++ t', ?_, unit _ _ _ ht units⟩
      rw [hs, ht, List.append_assoc]

/-- A literal is read as its bytes' text, whatever follows it. -/
theorem gives_read (h : Units t bytes) (r : List Char) :
    Gives (read? ('"' :: (t ++ '"' :: r))) (String.ofList (Utf8.decodeLossy bytes)) r := by
  obtain ⟨_, hb⟩ := gives_body h r
  rw [read?, hb]
  exact gives_some

/-- What is read as a literal is one. -/
theorem exists_of_read {text : String} (h : Gives (read? s) text r) : ∃ t bytes,
    s = '"' :: (t ++ '"' :: r) ∧ Units t bytes ∧
      text = String.ofList (Utf8.decodeLossy bytes) := by
  unfold read? at h
  split at h
  · next s =>
    obtain ⟨⟨bytes, rest⟩, hb, rfl, rfl⟩ := exists_of_map h
    obtain ⟨t, hs, ht⟩ := exists_of_body (gives_of_eq hb)
    exact ⟨t, bytes, congrArg _ hs, ht, rfl⟩
  · exact absurd h not_gives_none

/-! ## Ways of writing a text -/

/-- The characters that have an escape, with the character behind its backslash. -/
def escapes : List (Char × Char) :=
  [('"', '"'), ('\\', '\\'), ('\n', 'n'), ('\t', 't'), ('\r', 'r')]

/-- The three octal digits of a byte. -/
def octalDigits (b : UInt8) : List Char :=
  [digitChar (b.toNat / 64), digitChar (b.toNat / 8 % 8), digitChar (b.toNat % 8)]

/-- A byte as a backslash and three octal digits. -/
def octalEscape (b : UInt8) : List Char :=
  '\\' :: octalDigits b

/-- The ways of writing a character inside a literal. -/
inductive CharWritten : Char → List Char → Prop
  /-- As it is. -/
  | plain {c : Char} : c ≠ '"' → c ≠ '\\' → CharWritten c [c]
  /-- By its escape. -/
  | escape {c e : Char} : (c, e) ∈ escapes → CharWritten c ['\\', e]
  /-- By its bytes. -/
  | bytes {c : Char} : CharWritten c ((Utf8.encodeChar c).flatMap octalEscape)

/-- The ways of writing a text inside a literal: each character in one of its ways. -/
inductive Written : List Char → List Char → Prop
  | nil : Written [] []
  | cons {c : Char} {u s t : List Char} : CharWritten c u → Written s t →
      Written (c :: s) (u ++ t)

theorem digitChar_mem_octals {d : Nat} (h : d < 8) : digitChar d ∈ octals := by
  have all : ∀ d < 8, digitChar d ∈ octals := by decide
  exact all d h

theorem idxOf_digitChar {d : Nat} (h : d < 8) : octals.idxOf (digitChar d) = d := by
  have all : ∀ d < 8, octals.idxOf (digitChar d) = d := by decide
  exact all d h

theorem mem_octals_of_mem_octalDigits {d : Char} (h : d ∈ octalDigits b) : d ∈ octals := by
  have hb := b.toNat_lt
  simp only [octalDigits, List.mem_cons, List.not_mem_nil, or_false] at h
  rcases h with rfl | rfl | rfl <;> exact digitChar_mem_octals (by omega)

theorem octalValue_octalDigits (b : UInt8) : octalValue 0 (octalDigits b) = b.toNat := by
  have hb := b.toNat_lt
  rw [octalValue, octalDigits, List.foldl_cons, List.foldl_cons, List.foldl_cons, List.foldl_nil,
    idxOf_digitChar (by omega), idxOf_digitChar (by omega), idxOf_digitChar (by omega)]
  omega

/-- The three digits of a byte are all that its escape takes, whatever follows. -/
theorem units_octalEscape (b : UInt8) (h : Units t bytes) :
    Units (octalEscape b ++ t) (b :: bytes) := by
  have hu : Units (octalEscape b ++ t) ((octalValue 0 (octalDigits b)).toUInt8 :: bytes) :=
    .octal (List.cons_ne_nil _ _) (Nat.le_refl 3) (fun _ => mem_octals_of_mem_octalDigits)
      (.inl rfl) h
  have hv : (octalValue 0 (octalDigits b)).toUInt8 = b :=
    (congrArg Nat.toUInt8 (octalValue_octalDigits b)).trans UInt8.ofNat_toNat
  rw [hv] at hu
  exact hu

theorem units_octalEscapes (bs : List UInt8) (h : Units t bytes) :
    Units (bs.flatMap octalEscape ++ t) (bs ++ bytes) := by
  induction bs with
  | nil => exact h
  | cons b bs ih =>
    rw [List.flatMap_cons, List.append_assoc, List.cons_append]
    exact units_octalEscape b ih

/-- In whichever way a character is written, it stands for its own bytes. -/
theorem CharWritten.units (hc : CharWritten c s) (h : Units t bytes) :
    Units (s ++ t) (Utf8.encodeChar c ++ bytes) := by
  cases hc with
  | plain hq hb => exact .plain hq hb h
  | escape he =>
    simp only [escapes, List.mem_cons, Prod.mk.injEq, List.not_mem_nil, or_false] at he
    rcases he with ⟨rfl, rfl⟩ | ⟨rfl, rfl⟩ | ⟨rfl, rfl⟩ | ⟨rfl, rfl⟩ | ⟨rfl, rfl⟩
    · exact .other (by simp [controls]) (by decide) h
    · exact .other (by simp [controls]) (by decide) h
    all_goals exact .control (by decide) h
  | bytes => exact units_octalEscapes _ h

/-- In whichever way a text is written, it stands for its own bytes. -/
theorem Written.units (h : Written s t) : Units t (Utf8.encode s) := by
  induction h with
  | nil => exact .nil
  | cons hc _ ih =>
    rw [Utf8.encode, List.flatMap_cons, ← Utf8.encode]
    exact hc.units ih

/-- A text is read from every way of writing it. -/
theorem Written.gives_read (h : Written s t) (r : List Char) :
    Gives (read? ('"' :: (t ++ '"' :: r))) (String.ofList s) r := by
  have hs := Literal.gives_read h.units r
  rw [Utf8.decodeLossy_encode] at hs
  exact hs

/-! ## Quoting -/

theorem charWritten_escape (c : Char) : CharWritten c (escape c) := by
  unfold escape
  split
  · next h => subst h; exact .escape (by decide)
  split
  · next h => subst h; exact .escape (by decide)
  split
  · next h => subst h; exact .escape (by decide)
  split
  · next h => subst h; exact .escape (by decide)
  split
  · next h => subst h; exact .escape (by decide)
  · next hq hb _ _ _ => exact .plain hq hb

/-- What is written for a text between the quotes is a way of writing it. -/
theorem written_escape (s : List Char) : Written s (s.flatMap escape) := by
  induction s with
  | nil => exact .nil
  | cons c s ih => exact .cons (charWritten_escape c) ih

/-- A text is read back from its literal. -/
theorem gives_quote (s : String) : Gives (read? (quote s).toList) s [] := by
  have hs := (written_escape s.toList).gives_read []
  rw [String.ofList_toList] at hs
  rw [quote, String.toList_ofList]
  exact hs

/-- Texts with the same literal are the same. -/
theorem quote_injective : Function.Injective quote := by
  intro s s' h
  exact ((gives_quote s).unique (h ▸ gives_quote s')).1

end KernelProbe.Mi.Literal
