import KernelProbe.Proofs.Mi.Record
import KernelProbe.Proofs.Mi.Results

/-!
# Texts in their many spellings

A debugger need not write a text as `Literal.quote` does: it writes what is not in the ASCII set byte
by byte in octal digits, and other characters as they are or by an escape (`Literal.Written`). The
text is read from all of these spellings alike, and what is read next begins right behind its
closing quote (`text_read_as_written`).
-/

namespace KernelProbe.Mi

open Text Rest

variable {n t r : List Char} {s : String} {x : String × Value} {ys : Results}

/-- The text of a result whose value is a string with the inside `t`. -/
def textResult (n t : List Char) : List Char :=
  n ++ '=' :: '"' :: (t ++ ['"'])

/-- What may stand behind a result: nothing, or a comma and further results. -/
inductive Results.Behind : List Char → Results → Prop
  | nothing : Behind [] []
  | more {t : List Char} {xs : Results} : Results.read? t = some xs → Behind (',' :: t) xs

/-- The results in a text that starts with one. -/
theorem read?_append_iff (h : Result.Spells t x) : Results.read? (t ++ r) = some ys ↔
    ∃ xs, ys = x :: xs ∧ Results.Behind r xs := by
  rw [read?_results_iff, spells_append_iff (.one h)]
  constructor
  · rintro (⟨rfl, rfl⟩ | ⟨u, xs, rfl, hu, rfl⟩)
    · exact ⟨[], rfl, .nothing⟩
    · exact ⟨xs, rfl, .more (read?_results_iff.2 hu)⟩
  · rintro ⟨xs, rfl, hr⟩
    cases hr with
    | nothing => exact .inl ⟨rfl, rfl⟩
    | @more u xs hu => exact .inr ⟨u, xs, rfl, read?_results_iff.1 hu, rfl⟩

theorem spells_textResult (hn : IsName n) (h : Literal.Written s.toList t) :
    Result.Spells (textResult n t) (String.ofList n, .text s) := by
  have hv := Value.spells_of_written h
  rw [String.ofList_toList] at hv
  exact .mk hn hv

theorem trimEnd_textResult (u n t r : List Char) :
    trimEnd (u ++ (textResult n t ++ r)) = u ++ (textResult n t ++ trimEnd r) := by
  have h := trimEnd_append_cons (c := '"') (by decide) (u ++ (n ++ '=' :: '"' :: t)) r
  simpa [textResult] using h

/-- However a text is written as the value of a result, it is read as the value, and reading goes on
    right behind its closing quote: there, results end or go on with a comma. In a line, this is so
    for the first result of a record, up to blanks at the end of the line. -/
theorem text_read_as_written {className : List Char} (hn : IsName n)
    (h : Literal.Written s.toList t) (hc : className ≠ []) (hm : ',' ∉ className) :
    (∀ r, Gives (Results.readOne? (textResult n t ++ r)) (String.ofList n, .text s) r) ∧
    (∀ r ys, Results.read? (textResult n t ++ r) = some ys ↔
      ∃ xs, ys = (String.ofList n, .text s) :: xs ∧ Results.Behind r xs) ∧
    ∀ token kind r record,
      Record.read? (String.ofList
        (renderToken token ++ kind.sigil :: (className ++ ',' :: (textResult n t ++ r)))) =
          some record ↔
      ∃ xs, record = ⟨token, kind, String.ofList className, (String.ofList n, .text s) :: xs⟩ ∧
        Results.Behind (trimEnd r) xs := by
  have hx := spells_textResult hn h
  refine ⟨fun r => hx.gives r, fun r ys => read?_append_iff hx, fun token kind r record => ?_⟩
  have htrim : trimEnd (className ++ ',' :: (textResult n t ++ r)) =
      className ++ ',' :: (textResult n t ++ trimEnd r) := by
    simpa using trimEnd_textResult (className ++ [',']) n t r
  rw [Record.read?_behind_sigil, htrim, Record.readBody?_append hc hm, Option.map_map,
    Option.map_eq_some_iff]
  simp only [read?_append_iff hx]
  constructor
  · rintro ⟨_, ⟨xs, rfl, hb⟩, rfl⟩
    exact ⟨xs, rfl, hb⟩
  · rintro ⟨xs, rfl, hb⟩
    exact ⟨_, ⟨xs, rfl, hb⟩, rfl⟩

/-- A text in three styles, with a blank behind the record: a character of two bytes in octal digits,
    a digit right behind them as it is, and an escape. -/
theorem text_read_as_written_mixed :
    IsName "value".toList ∧ Literal.Written "é7\n".toList "\\303\\2517\\n".toList ∧
      Record.read? "^done,value=\"\\303\\2517\\n\" " =
        some ⟨none, .result, "done", [("value", .text "é7\n")]⟩ := by
  have hn : IsName "value".toList := by decide
  have h : Literal.Written "é7\n".toList "\\303\\2517\\n".toList :=
    .cons .bytes (.cons (.plain (by decide) (by decide)) (.cons (.escape (by decide)) .nil))
  have hline : "^done,value=\"\\303\\2517\\n\" " = String.ofList (renderToken none ++
      RecordKind.result.sigil ::
        ("done".toList ++ ',' :: (textResult "value".toList "\\303\\2517\\n".toList ++ [' ']))) := by
    decide
  have hread := (text_read_as_written hn h (by decide : "done".toList ≠ []) (by decide)).2.2
  rw [hline]
  exact ⟨hn, h, (hread none .result [' '] _).2 ⟨[], rfl, .nothing⟩⟩

end KernelProbe.Mi
