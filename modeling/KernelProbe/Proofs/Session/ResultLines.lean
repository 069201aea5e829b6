import KernelProbe.Proofs.Mi.Record
import KernelProbe.Proofs.Mi.Results
import KernelProbe.Proofs.Session.Requests

/-!
# Lines that answer a request

The debugger answers a request by a line with the request's token and the sigil of a result
behind it. The line counts as the answer only if it is read as a record whole, and so the rest of
it decides: it must be a class, alone or with results behind a comma (`Mi.Record.Body`).

* `read?_of_token`: the record in such a line is the one in its rest;
* `result_line_completes_iff`: the line is kept from the operator and completes the request
  exactly if its rest is a class with readable results;
* `unreadable_answer_shown`: a run in which the debugger answers otherwise, by results of which
  one has no name (`not_body_of_unnamed`).
-/

namespace KernelProbe

/-! ## Reading -/

namespace Mi.Record

open Text

/-- What stands behind the sigil of a record: a class, alone or with results behind a comma. -/
inductive Body : List Char → String → Results → Prop
  | alone {name : String} : name.toList ≠ [] → ',' ∉ name.toList → Body name.toList name []
  | followed {name : String} {t : List Char} {xs : Results} : name.toList ≠ [] →
      ',' ∉ name.toList → Results.Spells t xs → Body (name.toList ++ ',' :: t) name xs

variable {s : List Char} {name : String} {xs : Results}

theorem readBody?_iff : readBody? s = some (name, xs) ↔ Body s name xs := by
  constructor
  · intro h
    obtain ⟨hn, hm, ⟨rfl, rfl⟩ | ⟨t, rfl, hx⟩⟩ := readBody?_eq_some h
    · exact .alone hn hm
    · exact .followed hn hm hx
  · rintro (⟨hn, hm⟩ | ⟨hn, hm, hx⟩)
    · rw [readBody?_of_not_mem hn hm, String.ofList_toList]
    · rw [readBody?_append hn hm, read?_results_iff.2 hx, Option.map_some, String.ofList_toList]

/-- Results with something without a name behind them do not stand behind a class. -/
theorem not_body_of_unnamed {n t u : List Char} {c : Char} (hn : ',' ∉ n)
    (ht : Results.Spells t xs) (hc : c ∈ marks) (name : String) (ys : Results) :
    ¬Body (n ++ ',' :: (t ++ ',' :: c :: u)) name ys := by
  intro h
  generalize hb : n ++ ',' :: (t ++ ',' :: c :: u) = body at h
  cases h with
  | alone _ hm => exact hm (hb ▸ List.mem_append_right n List.mem_cons_self)
  | followed _ hm hy =>
    -- The class ends at the first comma, and the results at the second one.
    have hs := (splitAt?_append hn _).symm.trans (hb ▸ splitAt?_append hm _)
    obtain ⟨-, rfl⟩ := Prod.mk.inj (Option.some.inj hs)
    obtain ⟨_, -, hu⟩ := ht.of_append hy
    obtain ⟨_, _, ⟨⟩, hm⟩ := hu.head
    exact hm hc

/-- The text of a line that begins with a token and the sigil of a result. -/
def resultLine (token : UInt64) (rest : String) : String :=
  decimal token.toNat ++ "^" ++ rest

theorem read?_of_token (token : UInt64) (rest : String) :
    read? (resultLine token rest) = (readBody? (trimEnd rest.toList)).map fun body =>
      ⟨some token, .result, body.1, body.2⟩ := by
  have hl : (resultLine token rest).toList = renderToken (some token) ++ '^' :: rest.toList := by
    simp [resultLine, decimal, renderToken]
  rw [← String.ofList_toList (s := resultLine token rest), hl]
  exact read?_behind_sigil (some token) .result rest.toList

end Mi.Record

namespace Session

open Mi Program

variable {c : Config} {i i' : Instance} {token : UInt64} {q : Nat} {rest : String}
  {log : Log surroundings} {o : Option InstanceEnd}

/-- A line with the token of a pending request answers it if it is read as a record, and is shown
    otherwise. -/
theorem resultLine_cases (ha : i.automated = true) (hq : i.pending.find? token.toNat = some q)
    (hp : Path (i.onEvent c (.debuggerLine i.generation (Record.resultLine token rest))) log
      (i', o)) :
    (∃ name xs, Record.Body (Text.trimEnd rest.toList) name xs ∧ forwards log = [] ∧
        replies log = [(q, some ⟨some token, .result, name, xs⟩)] ∧
        i'.pending = i.pending.erase token.toNat) ∨
      ((∀ name xs, ¬Record.Body (Text.trimEnd rest.toList) name xs) ∧
        forwards log = [Record.resultLine token rest] ∧ replies log = [] ∧
        i'.pending = i.pending) := by
  have hr := Record.read?_of_token token rest
  cases (Instance.reaction_of_path (e := .debuggerLine _ _) ha rfl hp).2 with
  | answered hl hk hf =>
    rw [hr] at hl
    obtain ⟨⟨name, xs⟩, hb, rfl⟩ := Option.map_eq_some_iff.1 hl
    obtain rfl := Option.some.inj hk
    rw [hq] at hf
    obtain rfl := Option.some.inj hf
    exact .inl ⟨name, xs, Record.readBody?_iff.1 hb, rfl, rfl, rfl⟩
  | shown hn hs =>
    refine .inr ⟨fun name xs hb => ?_, forwards_shown hs, replies_shown hs, rfl⟩
    -- A record would have the token of a request that is not pending.
    rw [Record.readBody?_iff.2 hb] at hr
    rw [hn _ _ hr rfl] at hq
    cases hq

/-- A line with the token of a pending request and the sigil of a result is kept from the operator
    and completes the request exactly if a class stands behind the sigil, alone or with results
    behind a comma; the requester then gets that record. Any other line is shown to the operator,
    and the request stays without an answer. -/
theorem result_line_completes_iff (ha : i.automated = true)
    (hq : i.pending.find? token.toNat = some q)
    (hp : Path (i.onEvent c (.debuggerLine i.generation (Record.resultLine token rest))) log
      (i', o)) :
    ((forwards log = [] ∧ (∃ record, replies log = [(q, record)]) ∧
        i'.pending.find? token.toNat = none) ↔
      ∃ name xs, Record.Body (Text.trimEnd rest.toList) name xs) ∧
    (∀ name xs, Record.Body (Text.trimEnd rest.toList) name xs →
      replies log = [(q, some ⟨some token, .result, name, xs⟩)]) ∧
    ((∀ name xs, ¬Record.Body (Text.trimEnd rest.toList) name xs) →
      forwards log = [Record.resultLine token rest] ∧ replies log = [] ∧
        i'.pending.find? token.toNat = some q) := by
  rcases resultLine_cases ha hq hp with ⟨name, xs, hb, hf, hr, hi⟩ | ⟨hb, hf, hr, hi⟩
  · refine ⟨iff_of_true ⟨hf, ⟨_, hr⟩, ?_⟩ ⟨name, xs, hb⟩, fun name' xs' hb' => ?_, fun hn => ?_⟩
    · rw [hi, Dict.find?_erase, if_pos rfl]
    · have := (Record.readBody?_iff.2 hb).symm.trans (Record.readBody?_iff.2 hb')
      obtain ⟨⟩ := Option.some.inj this
      exact hr
    · exact absurd hb (hn name xs)
  · refine ⟨iff_of_false ?_ ?_, fun name xs h => absurd h (hb name xs), fun _ => ⟨hf, hr, hi ▸ hq⟩⟩
    · rintro ⟨hn, -⟩
      rw [hf] at hn
      cases hn
    · rintro ⟨name, xs, h⟩
      exact hb name xs h

/-- The first request of a session, answered without results. -/
theorem result_line_completes_iff_done :
    let c : Config := { root := "/", debugger := ["gdb"], automation := some {} }
    let i : Instance := { Instance.new c 1 with pending := Dict.insert .empty 900000000 0 }
    ∃ log i' o, Path (i.onEvent c (.debuggerLine 1 (Record.resultLine 900000000 "done "))) log
        (i', o) ∧
      forwards log = [] ∧ replies log = [(0, some ⟨some 900000000, .result, "done", []⟩)] := by
  intro c i
  obtain ⟨log, ⟨i', o⟩, hp⟩ := exists_path (I := surroundings) compliant
    (i.onEvent c (.debuggerLine 1 (Record.resultLine 900000000 "done ")))
  have hb : Record.Body (Text.trimEnd "done ".toList) "done" [] := by
    rw [show Text.trimEnd "done ".toList = "done".toList from by decide]
    exact .alone (by decide) (by decide)
  obtain ⟨hiff, hr, -⟩ := result_line_completes_iff (i := i) rfl rfl hp
  exact ⟨log, i', o, hp, (hiff.2 ⟨_, _, hb⟩).1, hr _ _ hb⟩

/-- A session whose first request is answered with a breakpoint at two places, the second of which
    has no name: the answer is shown to the operator, and the request goes on waiting for one. -/
theorem unreadable_answer_shown :
    let c : Config := { root := "/", debugger := ["gdb"], automation := some {} }
    let command := "-break-insert f"
    let written := "900000000" ++ command
    let rest := "done,bkpt=\x7bnumber=\"1\"\x7d,\x7bnumber=\"1.1\"\x7d"
    let line := Record.resultLine 900000000 rest
    ∃ log i, Run c 1 [⟨.automationRequest 1 command 0,
          [⟨.write written, true⟩, ⟨.log (.command written), ()⟩]⟩, ⟨.debuggerLine 1 line, log⟩] i ∧
      forwards log = [line] ∧ replies log = [] ∧ i.pending.find? 900000000 = some 0 := by
  intro c command written rest line
  let i : Instance := { Instance.new c 1 with
    pending := Dict.insert .empty 900000000 0, nextToken := 900000001 }
  have hw : Path ((Instance.new c 1).onEvent c (.automationRequest 1 command 0))
      [⟨.write written, true⟩, ⟨.log (.command written), ()⟩] (i, none) := by
    have hd : written = Text.decimal 900000000 ++ command :=
      congrArg (· ++ command) (by decide +kernel)
    exact path_bind_done.2 ⟨_, Instance.path_onRequest.2 ⟨written, hd, .inl ⟨rfl, rfl⟩⟩, rfl⟩
  obtain ⟨log, ⟨i', o⟩, hp⟩ := exists_path (I := surroundings) compliant
    (i.onEvent c (.debuggerLine 1 line))
  obtain ⟨rfl, -⟩ := Instance.reaction_of_path (e := .debuggerLine _ _) (i := i) rfl rfl hp
  have hb : ∀ name xs, ¬Record.Body (Text.trimEnd rest.toList) name xs := by
    let first : Results := [("bkpt", .tuple [("number", .text "1")])]
    have hs : Results.Spells (Results.render first) first := by
      refine Results.spells_render first nofun ?_
      simp only [first, Results.WellNamed, Value.WellNamed]
      decide
    have ht : Text.trimEnd rest.toList = "done".toList ++ ',' ::
        (Results.render first ++ ',' :: '\x7b' :: "number=\"1.1\"\x7d".toList) := by
      decide +kernel
    rw [ht]
    exact Record.not_body_of_unnamed (by decide) hs (by decide)
  rcases resultLine_cases (i := i) rfl rfl hp with ⟨name, xs, h, -⟩ | ⟨-, hf, hr, hi⟩
  · exact absurd h (hb name xs)
  · have first := (Run.init rfl).step (e := .automationRequest 1 command 0) rfl hw
    exact ⟨log, i', first.step (e := .debuggerLine 1 line) rfl hp, hf, hr, by rw [hi]; rfl⟩

end Session

end KernelProbe
