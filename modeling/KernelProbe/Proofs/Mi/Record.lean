import KernelProbe.Mi.Record
import KernelProbe.Proofs.Mi.Value
import KernelProbe.Proofs.Text.Blank
import KernelProbe.Proofs.Text.Digits
import KernelProbe.Proofs.Text.Search

/-!
# Records read back

A record that can be written (`Record.WellFormed`) is read back from its spelling, and every
record that is read can be written. So a record is read from some line exactly if it is read
from its own spelling.
-/

namespace KernelProbe.Mi

open Text

/-- A record whose spelling is read as the record. -/
structure Record.WellFormed (r : Record) : Prop where
  ne_nil : r.className.toList ≠ []
  comma_not_mem : ',' ∉ r.className.toList
  /-- A class at the end of the line does not lose its end when the line is trimmed. -/
  noBlankEnd : r.results = [] → NoBlankEnd r.className.toList
  wellNamed : Results.WellNamed r.results

variable {s t body : List Char} {xs : List (String × Value)} {r : Record}

/-! ## Ends -/

/-- Results end in no blank. -/
theorem Results.Spells.noBlankEnd (h : Results.Spells t xs) : NoBlankEnd t := by
  obtain ⟨s, c, rfl, hc⟩ := h.last
  refine noBlankEnd_concat ?_ s
  rcases hc with rfl | rfl | rfl <;> rfl

/-! ## Tokens and sigils -/

theorem splitToken?_render (token : Option UInt64) {c : Char} (hc : isDecimalDigit c = false)
    (body : List Char) :
    splitToken? (renderToken token ++ c :: body) = some (token, c :: body) := by
  -- The digits of the token end at the sigil.
  cases token with
  | none =>
    rw [renderToken, List.nil_append, splitToken?, List.takeWhile_cons_of_neg (by simp [hc])]
  | some n =>
    have hd : ∀ c ∈ digits 10 n.toNat, isDecimalDigit c = true := fun c hc =>
      isDecimalDigit_of_mem_digits hc
    rw [renderToken, splitToken?, List.takeWhile_append_of_pos hd,
      List.dropWhile_append_of_pos hd, List.takeWhile_cons_of_neg (by simp [hc]),
      List.dropWhile_cons_of_neg (by simp [hc]), List.append_nil]
    have hr : readWord64 10 (digits 10 n.toNat) = .ok n :=
      readWord64_digits (by decide) (by decide) n
    have hn : digits 10 n.toNat ≠ [] := digits_ne_nil (by decide) _
    obtain ⟨d, ds, hds⟩ := List.exists_cons_of_ne_nil hn
    rw [hds] at hr ⊢
    dsimp only
    rw [hr]

/-- The text behind a token is an end of the text. -/
theorem exists_of_splitToken? {token : Option UInt64} (h : splitToken? s = some (token, t)) :
    ∃ ds, s = ds ++ t := by
  unfold splitToken? at h
  split at h
  · cases h
    exact ⟨[], rfl⟩
  · split at h
    · cases h
      exact ⟨_, List.takeWhile_append_dropWhile.symm⟩
    · cases h

theorem ofSigil?_sigil (k : RecordKind) : RecordKind.ofSigil? k.sigil = some k := by
  cases k <;> rfl

theorem isDecimalDigit_sigil (k : RecordKind) : isDecimalDigit k.sigil = false := by
  cases k <;> rfl

/-! ## Bodies -/

namespace Record

/-- The spelling of a record behind its sigil. -/
def renderBody (r : Record) : List Char :=
  r.className.toList ++ (if r.results.isEmpty then [] else ',' :: Results.render r.results)

theorem toList_render (r : Record) :
    r.render.toList = renderToken r.token ++ r.kind.sigil :: r.renderBody := by
  rw [render, String.toList_ofList, renderBody]
  simp

/-- A class with a comma behind it. -/
theorem readBody?_append {name : List Char} (hn : name ≠ []) (hm : ',' ∉ name) (t : List Char) :
    readBody? (name ++ ',' :: t) =
      (Results.read? t).map fun xs => (String.ofList name, xs) := by
  have he : name.isEmpty = false := by simpa using hn
  rw [readBody?, splitAt?_append hm]
  simp [he]

/-- A class alone. -/
theorem readBody?_of_not_mem {name : List Char} (hn : name ≠ []) (hm : ',' ∉ name) :
    readBody? name = some (String.ofList name, []) := by
  have he : name.isEmpty = false := by simpa using hn
  rw [readBody?, splitAt?_eq_none_iff.2 hm]
  simp [he]

theorem readBody?_renderBody (h : r.WellFormed) :
    readBody? r.renderBody = some (r.className, r.results) := by
  obtain ⟨token, kind, className, results⟩ := r
  cases results with
  | nil =>
    rw [renderBody, List.isEmpty_nil, if_pos rfl, List.append_nil,
      readBody?_of_not_mem h.ne_nil h.comma_not_mem, String.ofList_toList]
  | cons x xs =>
    have hx : Results.read? (Results.render (x :: xs)) = some (x :: xs) :=
      read?_results_iff.2 (Results.spells_render _ (List.cons_ne_nil _ _) h.wellNamed)
    rw [renderBody, List.isEmpty_cons, if_neg Bool.false_ne_true,
      readBody?_append h.ne_nil h.comma_not_mem, hx, Option.map_some, String.ofList_toList]

/-- What is read as a class and results: the whole text is the class, or the results stand
    behind its comma. -/
theorem readBody?_eq_some {name : String} (h : readBody? body = some (name, xs)) :
    name.toList ≠ [] ∧ ',' ∉ name.toList ∧
      ((xs = [] ∧ body = name.toList) ∨
        ∃ t, body = name.toList ++ ',' :: t ∧ Results.Spells t xs) := by
  cases hs : splitAt? ',' body with
  | none =>
    simp only [readBody?, hs] at h
    split at h
    · cases h
    · next hn =>
      cases h
      rw [String.toList_ofList]
      exact ⟨by simpa using hn, splitAt?_eq_none_iff.1 hs, .inl ⟨rfl, rfl⟩⟩
  | some found =>
    obtain ⟨before, t⟩ := found
    obtain ⟨hb, hm⟩ := splitAt?_eq_some hs
    simp only [readBody?, hs] at h
    split at h
    · cases h
    · next hn =>
      obtain ⟨ys, hy, hq⟩ := Option.map_eq_some_iff.1 h
      cases hq
      rw [String.toList_ofList]
      exact ⟨by simpa using hn, hm, .inr ⟨t, hb, read?_results_iff.1 hy⟩⟩

theorem noBlankEnd_renderBody (h : r.WellFormed) : NoBlankEnd r.renderBody := by
  unfold renderBody
  split
  · next hx =>
    rw [List.append_nil]
    exact h.noBlankEnd (List.isEmpty_iff.1 hx)
  · next hx =>
    have hs := Results.spells_render r.results (by simpa using hx) h.wellNamed
    exact (noBlankEnd_behind hs.ne_nil).2 hs.noBlankEnd

theorem isBlank_sigil (k : RecordKind) : isBlank k.sigil = false := by
  cases k <;> rfl

/-- What stands behind a token and a sigil is read as class and results. -/
theorem read?_behind_sigil (token : Option UInt64) (kind : RecordKind) (body : List Char) :
    read? (String.ofList (renderToken token ++ kind.sigil :: body)) =
      (readBody? (trimEnd body)).map fun found => ⟨token, kind, found.1, found.2⟩ := by
  rw [read?, String.toList_ofList, trimEnd_append_cons (isBlank_sigil kind),
    splitToken?_render token (isDecimalDigit_sigil kind)]
  simp only [ofSigil?_sigil, Option.bind_eq_bind, Option.bind_some]
  rw [Option.map_eq_bind]
  rfl

/-- A record that can be written is read back. -/
theorem read?_render (h : r.WellFormed) : read? r.render = some r := by
  have hl : r.render = String.ofList (renderToken r.token ++ r.kind.sigil :: r.renderBody) := by
    rw [← toList_render, String.ofList_toList]
  rw [hl, read?_behind_sigil, trimEnd_eq_self (noBlankEnd_renderBody h), readBody?_renderBody h]
  rfl

/-- What is read as a record can be written. -/
theorem wellFormed_of_read? {line : String} (h : read? line = some r) : r.WellFormed := by
  have he := noBlankEnd_trimEnd line.toList
  unfold read? at h
  obtain ⟨⟨token, rest⟩, ht, h⟩ := Option.bind_eq_some_iff.1 h
  obtain ⟨ds, hs⟩ := exists_of_splitToken? ht
  -- The body is the end of the trimmed line, and so is a class without results.
  rw [hs] at he
  cases rest with
  | nil => cases h
  | cons c body =>
    obtain ⟨kind, -, h⟩ := Option.bind_eq_some_iff.1 h
    obtain ⟨⟨name, xs⟩, hb, h⟩ := Option.bind_eq_some_iff.1 h
    cases h
    obtain ⟨hn, hm, ⟨rfl, rfl⟩ | ⟨t, rfl, hx⟩⟩ := readBody?_eq_some hb
    · refine ⟨hn, hm, fun _ => (noBlankEnd_behind hn).1 he, ?_⟩
      rw [Results.WellNamed]
      trivial
    · exact ⟨hn, hm, fun hnil => (hx.results_ne_nil hnil).elim, hx.wellNamed⟩

/-- A record is read back from its spelling exactly if it can be written, and every record that
    is read from a line can be written. -/
theorem read_render_round_trip :
    (∀ r : Record, r.WellFormed ↔ read? r.render = some r) ∧
      ∀ line r, read? line = some r → r.WellFormed ∧ read? r.render = some r := by
  refine ⟨fun r => ⟨read?_render, wellFormed_of_read?⟩, fun line r h => ?_⟩
  have hr := wellFormed_of_read? h
  exact ⟨hr, read?_render hr⟩

end Record

end KernelProbe.Mi
