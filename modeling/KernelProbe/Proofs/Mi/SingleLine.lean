import KernelProbe.Proofs.Mi.Record
import KernelProbe.Proofs.Text.Lines
import KernelProbe.Proofs.Text.Numerals

/-!
# Records on one line

Whatever text a literal stands for, the literal has no line feed and no carriage return
(`singleLine_quote`), and so no text ends the record in which it is quoted.

* `lines_of_singleLine`: such a record with a line feed behind it is one line;
* `consoleInput?_consoleRequest`: from a request to carry out a console command, with any token,
  the command is read back;
* `read?_resultRecord`: the answer to a request of the operator is read back as a record.
-/

namespace KernelProbe.Mi

open Text Rest

/-- The text has no line feed and no carriage return. -/
def SingleLine (s : List Char) : Prop :=
  ∀ c ∈ s, c ≠ '\n' ∧ c ≠ '\r'

instance (s : List Char) : Decidable (SingleLine s) :=
  List.decidableBAll (fun c => c ≠ '\n' ∧ c ≠ '\r') s

variable {s t : List Char} {token : Option UInt64}

theorem singleLine_append : SingleLine (s ++ t) ↔ SingleLine s ∧ SingleLine t :=
  List.forall_mem_append

theorem singleLine_cons {c : Char} : SingleLine (c :: s) ↔ (c ≠ '\n' ∧ c ≠ '\r') ∧ SingleLine s :=
  List.forall_mem_cons

/-- A text without line feed and carriage return is one line. -/
theorem lines_of_singleLine (h : SingleLine s) : lines (s ++ ['\n']) = [s] := by
  have hlf : '\n' ∉ s := fun hm => (h _ hm).1 rfl
  have hcr : s.getLast? ≠ some '\r' := fun hl => (h _ (List.mem_of_getLast? hl)).2 rfl
  rw [lines, splitLines_line hlf]
  dsimp only [splitLines]
  rw [List.map_singleton, dropReturn, if_neg (by simpa using hcr)]
  rfl

/-! ## What is on one line -/

theorem singleLine_escape (c : Char) : SingleLine (Literal.escape c) := by
  unfold Literal.escape
  split
  · decide
  split
  · decide
  split
  · decide
  split
  · decide
  split
  · decide
  · next hn _ hr => exact List.forall_mem_singleton.2 ⟨hn, hr⟩

/-- A literal is on one line, whatever its text is. -/
theorem singleLine_quote (s : String) : SingleLine (Literal.quote s).toList := by
  rw [Literal.quote, String.toList_ofList, singleLine_append, singleLine_cons]
  refine ⟨⟨by decide, fun c hc => ?_⟩, by decide⟩
  obtain ⟨d, -, hc⟩ := List.mem_flatMap.1 hc
  exact singleLine_escape d c hc

theorem singleLine_digits {base : Nat} (hb : 2 ≤ base) (hb' : base ≤ 16) (n : Nat) :
    SingleLine (digits base n) := by
  have all : ∀ d < 16, digitChar d ≠ '\n' ∧ digitChar d ≠ '\r' := by decide
  intro c hc
  obtain ⟨d, hd, rfl⟩ := exists_of_mem_digits hb hc
  exact all d (by omega)

theorem singleLine_renderToken (token : Option UInt64) : SingleLine (renderToken token) := by
  cases token with
  | none => exact List.forall_mem_nil _
  | some n => exact singleLine_digits (by decide) (by decide) n.toNat

theorem singleLine_consoleRequest (command : String) :
    SingleLine (consoleRequest command).toList := by
  unfold consoleRequest
  rw [String.toList_append, singleLine_append]
  exact ⟨by decide, singleLine_quote command⟩

theorem singleLine_consoleRecord (line : String) : SingleLine (consoleRecord line).toList := by
  unfold consoleRecord
  rw [String.toList_append, singleLine_append]
  exact ⟨by decide, singleLine_quote _⟩

theorem singleLine_resultRecord (token : Option UInt64) (error : Option String) :
    SingleLine (resultRecord token error).toList := by
  unfold resultRecord
  rw [String.toList_append, String.toList_ofList, singleLine_append]
  refine ⟨singleLine_renderToken token, ?_⟩
  cases error with
  | none => decide
  | some message =>
    dsimp only
    rw [String.toList_append, singleLine_append]
    exact ⟨by decide, singleLine_quote message⟩

/-! ## What is read back -/

/-- A token is no blank at its start. -/
theorem exists_renderToken_append (token : Option UInt64) {c : Char} (hc : isBlank c = false)
    (body : List Char) :
    ∃ d r, renderToken token ++ c :: body = d :: r ∧ isBlank d = false := by
  cases token with
  | none => exact ⟨c, body, rfl, hc⟩
  | some n =>
    have hn : digits 10 n.toNat ≠ [] := digits_ne_nil (by decide) _
    obtain ⟨d, ds, hds⟩ := List.exists_cons_of_ne_nil hn
    refine ⟨d, ds ++ c :: body, by rw [renderToken, hds, List.cons_append], ?_⟩
    exact isBlank_of_isHexDigit
      (isHexDigit_of_mem_digits (by decide) (by decide) (hds ▸ List.mem_cons_self))

/-- A request behind its dash. -/
def behindDash (command : String) : List Char :=
  "interpreter-exec".toList ++ ' ' :: ("console".toList ++ ' ' :: (Literal.quote command).toList)

theorem toList_withToken (token : Option UInt64) (command : String) :
    (String.ofList (renderToken token) ++ consoleRequest command).toList =
      renderToken token ++ '-' :: behindDash command := by
  unfold consoleRequest
  rw [String.toList_append, String.toList_ofList, String.toList_append]
  rfl

/-- Neither the token at the start nor the quote at the end is a blank. -/
theorem trim_withToken (token : Option UInt64) (command : String) :
    trim (renderToken token ++ '-' :: behindDash command) =
      renderToken token ++ '-' :: behindDash command := by
  have he : NoBlankEnd (renderToken token ++ '-' :: behindDash command) := by
    have hq : (Literal.quote command).toList =
        ('"' :: command.toList.flatMap Literal.escape) ++ ['"'] := String.toList_ofList
    unfold behindDash
    rw [hq]
    simp only [← List.cons_append, ← List.append_assoc]
    exact noBlankEnd_concat rfl _
  obtain ⟨d, r, hd, hb⟩ := exists_renderToken_append token (c := '-') rfl (behindDash command)
  rw [hd] at he ⊢
  exact trim_eq_self hb he

/-- A command of the console is read back from the request to carry it out. -/
theorem consoleInput?_consoleRequest (token : Option UInt64) (command : String) :
    consoleInput? (String.ofList (renderToken token) ++ consoleRequest command) =
      some (token, command) := by
  have hexec : afterStart? "-interpreter-exec".toList (trimStart ('-' :: behindDash command)) =
      some (' ' :: ("console".toList ++ ' ' :: (Literal.quote command).toList)) :=
    afterStart?_append "-interpreter-exec".toList _
  have hconsole : afterStart? "console".toList
      (trimStart (' ' :: ("console".toList ++ ' ' :: (Literal.quote command).toList))) =
        some (' ' :: (Literal.quote command).toList) :=
    afterStart?_append "console".toList _
  have hquote : trimStart (' ' :: (Literal.quote command).toList) =
      (Literal.quote command).toList := by
    rw [Literal.quote, String.toList_ofList]
    rfl
  obtain ⟨_, hread⟩ := Literal.gives_quote command
  rw [consoleInput?, toList_withToken, trim_withToken, splitToken?_render token rfl]
  simp only [Option.bind_eq_bind, Option.bind_some, hexec, hconsole]
  -- What is read depends on the text that it is read from.
  generalize trimStart (' ' :: (Literal.quote command).toList) = literal at hquote ⊢
  subst hquote
  rw [hread]
  rfl

/-- A line of the console is read back from its record, with a line feed at its end. -/
theorem exists_consoleRecord (line : String) : ∃ literal,
    (consoleRecord line).toList = '~' :: literal ∧
      Gives (Literal.read? literal) (line ++ "\n") [] :=
  ⟨_, String.toList_append, Literal.gives_quote _⟩

/-- The answer to a request of the operator, as a record. -/
def answerOf (token : Option UInt64) : Option String → Record
  | none => ⟨token, .result, "done", []⟩
  | some message => ⟨token, .result, "error", [("msg", .text message)]⟩

theorem wellFormed_answerOf (token : Option UInt64) (error : Option String) :
    (answerOf token error).WellFormed := by
  cases error with
  | none =>
    have hn : "done".toList ≠ [] ∧ ',' ∉ "done".toList := by decide
    have he : NoBlankEnd "done".toList := noBlankEnd_concat (c := 'e') rfl ['d', 'o', 'n']
    refine ⟨hn.1, hn.2, fun _ => he, ?_⟩
    rw [answerOf, Results.WellNamed]
    trivial
  | some message =>
    have hn : "error".toList ≠ [] ∧ ',' ∉ "error".toList := by decide
    have hm : IsName "msg".toList := ⟨by decide, by simp [marks]⟩
    refine ⟨hn.1, hn.2, fun h => absurd h (List.cons_ne_nil _ _), ?_⟩
    rw [answerOf, Results.WellNamed, Value.WellNamed, Results.WellNamed]
    exact ⟨hm, trivial, trivial⟩

theorem render_answerOf (token : Option UInt64) (error : Option String) :
    (answerOf token error).render = resultRecord token error := by
  rw [← String.toList_inj, Record.toList_render]
  unfold resultRecord
  rw [String.toList_append, String.toList_ofList]
  cases error with
  | none => simp [answerOf, Record.renderBody, RecordKind.sigil]
  | some message =>
    simp [answerOf, Record.renderBody, RecordKind.sigil, Results.render, Value.render]

/-- The answer to a request of the operator is read back. -/
theorem read?_resultRecord (token : Option UInt64) (error : Option String) :
    Record.read? (resultRecord token error) = some (answerOf token error) := by
  rw [← render_answerOf]
  exact Record.read?_render (wellFormed_answerOf token error)

end KernelProbe.Mi
