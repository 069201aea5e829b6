import KernelProbe.Proofs.Interaction.Dict
import KernelProbe.Proofs.Session.Control

/-!
# Requests and their answers

A run of a debugger is the events that it handled, each with what was done at it (`Run`). What
is done at an event follows from the rounds before it (`Follows`), through the requests that are
open: those that were written and whose token no result record has had since (`Open`).

* `Tracks`: the state of the debugger says no more and no less than the rounds so far; one round
  keeps it so (`Tracks.step`), and hence every run does (`Run.tracks`);
* `Run.follows`: every round of a run follows from the rounds before it;
* `Run.exists_step`: a run goes on at every event, whatever the surroundings answer.
-/

namespace KernelProbe.Session

open Mi Program

variable {c : Config} {g n q : Nat} {h before after : List Round} {i i' : Instance} {e : Event}
  {log : Log surroundings}

/-- Whom the answer to a request goes to. -/
def Event.requester? : Event → Option Nat
  | .automationRequest _ _ requester => some requester
  | _ => none

/-- An event with what was done at it. -/
structure Round where
  event : Event
  log : Log surroundings

namespace Round

/-- Whom the answer goes to, in the round of a request. -/
def requester? (r : Round) : Option Nat :=
  r.event.requester?

/-- The token of the result record that came in a round. -/
def token? (r : Round) : Option Nat :=
  match r.event with
  | .debuggerLine _ line => (Record.read? line).bind Record.resultToken?
  | _ => none

/-- The line of the debugger that was shown to the operator in a round. -/
def shownLine? (r : Round) : Option String :=
  match r.event with
  | .debuggerLine _ line => if replies r.log = [] then some line else none
  | _ => none

/-- What the operator is shown in a round. -/
def shows (r : Round) : List String :=
  match r.event with
  | .debuggerLine .. => r.shownLine?.toList
  | .automationOutput _ line => [consoleRecord line]
  | .automationDone _ completion => [resultRecord completion.token completion.error]
  | _ => []

/-- A line was written to the debugger in the round. -/
def Wrote (r : Round) : Prop :=
  ∃ line, (⟨.write line, true⟩ : Exchange surroundings) ∈ r.log

end Round

/-- The requesters in a run, in the order of their requests. -/
def requesters (h : List Round) : List Nat :=
  h.filterMap Round.requester?

/-- The answers to requests in a run, in order, with those whom they went to. -/
def answers (h : List Round) : List (Nat × Option Record) :=
  replies (h.flatMap Round.log)

/-- The `n`-th request in a run was written and has no answer yet: no result record behind it
    has its token. -/
def Open (h : List Round) (n requester : Nat) : Prop :=
  ∃ before r after, h = before ++ r :: after ∧ r.requester? = some requester ∧
    (requesters before).length = n ∧ r.Wrote ∧ ∀ s ∈ after, s.token? ≠ some (900000000 + n)

/-- The multiplexer behind the lines that were shown in a run. -/
def muxAfter (c : Config) (h : List Round) : Multiplexer :=
  (h.filterMap Round.shownLine?).foldl (fun m line => (m.observe line).2)
    (.new c.markers c.initialCommands c.automation.isNone)

/-- What is done at an event behind the rounds of a run. -/
inductive Follows (c : Config) (before : List Round) : Event → Log surroundings → Prop
  /-- The `n`-th request goes to the debugger with the `n`-th token. -/
  | written {g command requester line} :
      line = Text.decimal (900000000 + (requesters before).length) ++ command →
      Follows c before (.automationRequest g command requester)
        [⟨.write line, true⟩, ⟨.log (.command line), ()⟩]
  /-- A request that the debugger does not take is given up. -/
  | refused {g command requester line} :
      line = Text.decimal (900000000 + (requesters before).length) ++ command →
      Follows c before (.automationRequest g command requester)
        [⟨.write line, false⟩, ⟨.reply requester none, ()⟩]
  /-- A result record with the token of an open request goes to the requester alone. -/
  | answered {g line record n requester} : Record.read? line = some record →
      record.resultToken? = some (900000000 + n) → Open before n requester →
      Follows c before (.debuggerLine g line)
        [⟨.log (.output line), ()⟩, ⟨.reply requester (some record), ()⟩]
  /-- Any other line is shown, and goes to the multiplexer and the worker. -/
  | shown {g line mux sent} :
      (∀ record n requester, Record.read? line = some record →
        record.resultToken? = some (900000000 + n) → ¬Open before n requester) →
      mux = muxAfter c before → Path (sendAll c (mux.observe line).1) sent () →
      Follows c before (.debuggerLine g line) (⟨.forward line, ()⟩ ::
        ⟨.log (.output line), ()⟩ :: (sent ++ tellings (Instance.told mux line)))
  /-- A line of the operator goes to the debugger. -/
  | sent {line log} : (∀ e ∈ log, Sends e.call) → Follows c before (.input line) log
  /-- A line of the operator is a command that the worker knows. -/
  | passedOn {line token text} : Follows c before (.input line)
      ([⟨.handles text, true⟩, ⟨.log (.command (Text.trimmed line)), ()⟩] ++
        tellings [.userCommand token text])
  /-- A line of the worker is shown. -/
  | output {g line text} : text = consoleRecord line →
      Follows c before (.automationOutput g line)
        [⟨.forward text, ()⟩, ⟨.log (.output text), ()⟩]
  /-- The end of an operator's command is shown. -/
  | finished {g completion text} : text = resultRecord completion.token completion.error →
      Follows c before (.automationDone g completion)
        [⟨.forward text, ()⟩, ⟨.log (.output text), ()⟩]

/-- A run of the debugger of a generation from its start, for all answers of its surroundings. -/
inductive Run (c : Config) (g : Nat) : List Round → Instance → Prop
  | init : c.automation.isSome → Run c g [] (.new c g)
  | step {h : List Round} {i i' : Instance} {e : Event} {log : Log surroundings} :
      Run c g h i → Concerns g e → Path (i.onEvent c e) log (i', none) →
      Run c g (h ++ [⟨e, log⟩]) i'

/-! ## Open requests -/

/-- An element of a longer list is its last one, or one of the elements before that. -/
theorem concat_eq_append_cons {α : Type} {h before after : List α} {r s : α}
    (hs : h ++ [r] = before ++ s :: after) :
    (h = before ∧ r = s ∧ after = []) ∨
      ∃ rest, h = before ++ s :: rest ∧ after = rest ++ [r] := by
  rcases List.eq_nil_or_concat after with rfl | ⟨rest, t, rfl⟩
  · obtain ⟨rfl, ⟨⟩⟩ := List.append_inj' hs rfl
    exact .inl ⟨rfl, rfl, rfl⟩
  · rw [List.concat_eq_append, ← List.cons_append, ← List.append_assoc] at hs
    obtain ⟨rfl, ⟨⟩⟩ := List.append_inj' hs rfl
    exact .inr ⟨rest, rfl, List.concat_eq_append⟩

@[simp]
theorem requesters_concat (h : List Round) (r : Round) :
    requesters (h ++ [r]) = requesters h ++ r.requester?.toList := by
  rw [requesters, List.filterMap_append, requesters]
  cases hr : r.requester? <;> simp [hr]

@[simp]
theorem answers_concat (h : List Round) (r : Round) :
    answers (h ++ [r]) = answers h ++ replies r.log := by
  simp [answers]

theorem muxAfter_concat (c : Config) (h : List Round) (r : Round) :
    muxAfter c (h ++ [r]) =
      r.shownLine?.elim (muxAfter c h) fun line => ((muxAfter c h).observe line).2 := by
  rw [muxAfter, List.filterMap_append, List.foldl_append, muxAfter]
  cases hr : r.shownLine? <;> simp [hr]

theorem not_open_nil : ¬Open [] n q := by
  rintro ⟨before, r, after, hs, -⟩
  simp at hs

/-- A round opens its own request and closes the one whose token came in it. -/
theorem open_concat {r : Round} : Open (h ++ [r]) n q ↔
    (Open h n q ∧ r.token? ≠ some (900000000 + n)) ∨
      (r.requester? = some q ∧ (requesters h).length = n ∧ r.Wrote) := by
  constructor
  · rintro ⟨before, s, after, hs, hq, hn, hw, ha⟩
    rcases concat_eq_append_cons hs with ⟨rfl, rfl, -⟩ | ⟨rest, rfl, rfl⟩
    · exact .inr ⟨hq, hn, hw⟩
    · rw [List.forall_mem_append] at ha
      exact .inl ⟨⟨before, s, rest, rfl, hq, hn, hw, ha.1⟩, ha.2 _ (List.mem_singleton_self _)⟩
  · rintro (⟨⟨before, s, after, rfl, hq, hn, hw, ha⟩, ht⟩ | ⟨hq, hn, hw⟩)
    · refine ⟨before, s, after ++ [r], by simp, hq, hn, hw, ?_⟩
      rw [List.forall_mem_append]
      exact ⟨ha, by simpa using ht⟩
    · exact ⟨h, r, [], rfl, hq, hn, hw, by simp⟩

theorem Open.lt (ho : Open h n q) : n < (requesters h).length := by
  obtain ⟨before, r, after, rfl, hq, rfl, -⟩ := ho
  simp [requesters, hq]

/-- A round that neither makes a request nor brings a token leaves open what is open. -/
theorem open_concat_of_none {r : Round} (hq : r.requester? = none) (ht : r.token? = none) :
    Open (h ++ [r]) n q ↔ Open h n q := by
  rw [open_concat, hq, ht]
  simp

/-! ## The state of the debugger -/

/-- The state of the debugger tells the rounds so far. -/
structure Tracks (c : Config) (g : Nat) (h : List Round) (i : Instance) : Prop where
  generation : i.generation = g
  automated : i.automated = true
  mux : i.mux = muxAfter c h
  nextToken : i.nextToken = 900000000 + (requesters h).length
  distinct : i.pending.Distinct
  /-- Only tokens of requests have an entry. -/
  token : ∀ e ∈ i.pending.entries, 900000000 ≤ e.1 ∧ e.1 < i.nextToken
  /-- The entries are the open requests. -/
  pending : ∀ n q, i.pending.find? (900000000 + n) = some q ↔ Open h n q
  /-- Every request has had one answer or has an entry. -/
  settled : ∀ q, (answers h).countP (·.1 = q) + i.pending.values.count q = (requesters h).count q

namespace Tracks

theorem init (ha : c.automation.isSome) : Tracks c g [] (.new c g) where
  generation := rfl
  automated := ha
  mux := rfl
  nextToken := rfl
  distinct := Dict.distinct_empty
  token := fun e he => absurd he List.not_mem_nil
  pending := fun n q => iff_of_false (by simp [Instance.new]) not_open_nil
  settled := fun q => rfl

variable {r : Round}

/-- No more requests are open than there are entries. -/
theorem open_unique (ht : Tracks c g h i) (hl : i.pending.size ≤ 1) {n' q' : Nat}
    (ho : Open h n q) (ho' : Open h n' q') : n = n' ∧ q = q' := by
  have hm := Dict.mem_of_find? ((ht.pending n q).2 ho)
  have hm' := Dict.mem_of_find? ((ht.pending n' q').2 ho')
  obtain ⟨hn, hq⟩ := Prod.mk.inj (Dict.eq_of_mem_of_size_le_one hl hm hm')
  exact ⟨Nat.add_left_cancel hn, hq⟩

/-- The entry at a token of a request: another token has none. -/
theorem exists_of_find? (ht : Tracks c g h i) {token : Nat}
    (hf : i.pending.find? token = some q) : ∃ n, token = 900000000 + n ∧ Open h n q := by
  obtain ⟨n, rfl⟩ := Nat.exists_eq_add_of_le (ht.token _ (Dict.mem_of_find? hf)).1
  exact ⟨n, rfl, (ht.pending n q).1 hf⟩

/-- The next token is a new one. -/
theorem find?_nextToken (ht : Tracks c g h i) : i.pending.find? i.nextToken = none := by
  rw [Dict.find?_eq_none_iff]
  intro e he
  exact Nat.ne_of_lt (ht.token e he).2

/-- No requester gets more answers than it made requests. -/
theorem countP_answers_le (ht : Tracks c g h i) (q : Nat) :
    (answers h).countP (·.1 = q) ≤ (requesters h).count q := by
  rw [← ht.settled q]
  exact Nat.le_add_right _ _

/-- A round in which nothing is asked, answered or shown of the debugger changes no state. -/
theorem idle (ht : Tracks c g h i) (hq : r.requester? = none) (hk : r.token? = none)
    (hs : r.shownLine? = none) (hr : replies r.log = []) : Tracks c g (h ++ [r]) i where
  generation := ht.generation
  automated := ht.automated
  mux := by rw [muxAfter_concat, hs, ht.mux]; rfl
  nextToken := by rw [ht.nextToken, requesters_concat, hq]; simp
  distinct := ht.distinct
  token := ht.token
  pending := fun n q => (ht.pending n q).trans (open_concat_of_none hq hk).symm
  settled := fun q => by simpa [hq, hr] using ht.settled q

/-- The round of a request that was written. -/
theorem written (ht : Tracks c g h i) {g' : Nat} {command line : String} :
    Tracks c g (h ++ [⟨.automationRequest g' command q,
        [⟨.write line, true⟩, ⟨.log (.command line), ()⟩]⟩])
      { i with nextToken := i.nextToken + 1, pending := i.pending.insert i.nextToken q } where
  generation := ht.generation
  automated := ht.automated
  mux := by rw [muxAfter_concat, ht.mux]; rfl
  nextToken := by simp [ht.nextToken, Round.requester?, Event.requester?, Nat.add_assoc]
  distinct := ht.distinct.insert _ _
  token := by
    intro e he
    rcases Dict.mem_insert.1 he with ⟨he, -⟩ | rfl
    · have := ht.token e he
      exact ⟨this.1, Nat.lt_succ_of_lt this.2⟩
    · exact ⟨by rw [ht.nextToken]; exact Nat.le_add_right _ _, Nat.lt_succ_self _⟩
  pending := by
    intro n q'
    rw [Dict.find?_insert, open_concat, ht.nextToken]
    by_cases hn : (requesters h).length = n
    · -- The token is the new one, and no older request has it.
      have : ¬Open h n q' := fun ho => Nat.lt_irrefl _ (hn ▸ ho.lt)
      simp [hn, this, Round.requester?, Event.requester?, Round.Wrote]
    · simp [hn, ht.pending, Round.token?]
  settled := by
    intro q'
    have := ht.settled q'
    rw [answers_concat, requesters_concat, Dict.values_insert ht.find?_nextToken]
    simp [Round.requester?, Event.requester?, replies] at this ⊢
    omega

/-- The round of a request that the debugger did not take. -/
theorem refused (ht : Tracks c g h i) {g' : Nat} {command line : String} :
    Tracks c g (h ++ [⟨.automationRequest g' command q,
        [⟨.write line, false⟩, ⟨.reply q none, ()⟩]⟩])
      { i with nextToken := i.nextToken + 1 } where
  generation := ht.generation
  automated := ht.automated
  mux := by rw [muxAfter_concat, ht.mux]; rfl
  nextToken := by simp [ht.nextToken, Round.requester?, Event.requester?, Nat.add_assoc]
  distinct := ht.distinct
  token := fun e he => ⟨(ht.token e he).1, Nat.lt_succ_of_lt (ht.token e he).2⟩
  pending := by
    -- The round has no line that was taken, so that its request is not open.
    intro n q'
    rw [open_concat, ht.pending]
    simp [Round.token?, Round.Wrote]
  settled := by
    intro q'
    have := ht.settled q'
    rw [answers_concat, requesters_concat]
    by_cases hq : q = q'
    · simp [Round.requester?, Event.requester?, replies, hq] at this ⊢
      omega
    · simpa [Round.requester?, Event.requester?, replies, hq] using this

/-- The round of a line that answers a request. -/
theorem answered (ht : Tracks c g h i) {g' : Nat} {line : String} {record : Record}
    (hl : Record.read? line = some record)
    (hn : record.resultToken? = some (900000000 + n))
    (ho : i.pending.find? (900000000 + n) = some q) :
    Tracks c g (h ++ [⟨.debuggerLine g' line,
        [⟨.log (.output line), ()⟩, ⟨.reply q (some record), ()⟩]⟩])
      { i with pending := i.pending.erase (900000000 + n) } where
  generation := ht.generation
  automated := ht.automated
  mux := by rw [muxAfter_concat, ht.mux]; rfl
  nextToken := by simp [ht.nextToken, Round.requester?, Event.requester?]
  distinct := ht.distinct.erase _
  token := fun e he => ht.token e (Dict.mem_erase.1 he).1
  pending := by
    intro n' q'
    rw [Dict.find?_erase, open_concat, ← ht.pending]
    simp only [Round.token?, Round.requester?, Event.requester?, hl, Option.bind_some, hn]
    by_cases hnn : n = n' <;> simp [hnn]
  settled := by
    -- What the answers gain, the entries lose.
    intro q'
    have := ht.settled q'
    have hp := (ht.distinct.perm_values_erase ho).count_eq q'
    rw [answers_concat, requesters_concat]
    by_cases hq : q = q'
    · simp [Round.requester?, Event.requester?, replies, hq] at this hp ⊢
      omega
    · simp [Round.requester?, Event.requester?, replies, hq] at this hp ⊢
      omega

/-- The round of a line that is shown. -/
theorem shown (ht : Tracks c g h i) {g' : Nat} {line : String}
    (hn : ∀ record token, Record.read? line = some record →
      record.resultToken? = some token → i.pending.find? token = none)
    (hl : r.event = .debuggerLine g' line) (hr : replies r.log = []) :
    Tracks c g (h ++ [r]) { i with mux := (i.mux.observe line).2 } where
  generation := ht.generation
  automated := ht.automated
  mux := by
    rw [muxAfter_concat, ht.mux]
    simp [Round.shownLine?, hl, hr]
  nextToken := by simp [ht.nextToken, Round.requester?, Event.requester?, hl]
  distinct := ht.distinct
  token := ht.token
  pending := by
    intro n q
    rw [open_concat, ← ht.pending]
    simp only [Round.token?, Round.requester?, Event.requester?, hl]
    -- A token with an entry would have made the line an answer.
    constructor
    · intro hf
      refine .inl ⟨hf, fun hk => ?_⟩
      obtain ⟨record, hl, hk⟩ := Option.bind_eq_some_iff.1 hk
      rw [hn record _ hl hk] at hf
      cases hf
    · rintro (⟨hf, -⟩ | ⟨⟨⟩, -⟩)
      exact hf
  settled := fun q => by simpa [Round.requester?, Event.requester?, hl, hr] using ht.settled q

end Tracks

/-! ## Rounds -/

/-- A round follows from those before it, and the state goes on telling the rounds. -/
theorem Tracks.step (ht : Tracks c g h i) (hr : i.Reaction c e log i') :
    Follows c h e log ∧ Tracks c g (h ++ [⟨e, log⟩]) i' := by
  cases hr with
  | written hl => exact ⟨.written (by rw [hl, ht.nextToken]), ht.written⟩
  | refused hl => exact ⟨.refused (by rw [hl, ht.nextToken]), ht.refused⟩
  | answered hl hk hf =>
    obtain ⟨n, rfl, ho⟩ := ht.exists_of_find? hf
    exact ⟨.answered hl hk ho, ht.answered hl hk hf⟩
  | shown hn hs =>
    refine ⟨?_, ht.shown hn rfl (replies_shown hs)⟩
    rw [ht.mux] at hs ⊢
    refine .shown (fun record n q hl hk ho => ?_) rfl hs
    rw [← ht.pending, hn record _ hl hk] at ho
    cases ho
  | sent hs => exact ⟨.sent hs, ht.idle rfl rfl rfl (replies_of_sends hs)⟩
  | passedOn => exact ⟨.passedOn, ht.idle rfl rfl rfl rfl⟩
  | output hl => exact ⟨.output hl, ht.idle rfl rfl rfl rfl⟩
  | finished hl => exact ⟨.finished hl, ht.idle rfl rfl rfl rfl⟩

theorem Tracks.reaction {o : Option InstanceEnd} (ht : Tracks c g h i) (he : Concerns g e)
    (hp : Path (i.onEvent c e) log (i', o)) : o = none ∧ i.Reaction c e log i' :=
  Instance.reaction_of_path ht.automated (ht.generation.symm ▸ he) hp

namespace Run

theorem tracks (hr : Run c g h i) : Tracks c g h i := by
  induction hr with
  | init ha => exact .init ha
  | step _ he hp ih => exact (ih.step (ih.reaction he hp).2).2

/-- What is done next follows from the run so far. -/
theorem follows_next (hr : Run c g h i) (he : Concerns g e)
    (hp : Path (i.onEvent c e) log (i', none)) : Follows c h e log :=
  (hr.tracks.step (hr.tracks.reaction he hp).2).1

/-- Whatever the surroundings answer, a run goes on at every event for its debugger. -/
theorem exists_step {σ : Type} (hr : Run c g h i) (he : Concerns g e)
    (answer : (a : Action) → σ → a.Answer × σ) (s : σ) :
    ∃ i', Run c g (h ++ [⟨e, trace answer (i.onEvent c e) s⟩]) i' := by
  have hp := path_run answer (i.onEvent c e) s
  generalize (Program.run answer (i.onEvent c e) s).1 = result at hp
  obtain ⟨i', o⟩ := result
  obtain ⟨rfl, -⟩ := hr.tracks.reaction he hp
  exact ⟨i', hr.step he hp⟩

/-- Every round of a run follows from the rounds before it. -/
theorem follows (hr : Run c g h i) {r : Round} (hs : h = before ++ r :: after) :
    Follows c before r.event r.log := by
  induction hr generalizing before r after with
  | init _ => simp at hs
  | step hr he hp ih =>
    rcases concat_eq_append_cons hs with ⟨rfl, rfl, -⟩ | ⟨rest, rfl, -⟩
    · exact hr.follows_next he hp
    · exact ih rfl

end Run

theorem Follows.forwards_eq (hf : Follows c before e log) :
    forwards log = Round.shows ⟨e, log⟩ := by
  cases hf with
  | shown _ _ hs =>
    rw [Round.shows, Round.shownLine?, replies_shown hs, forwards_shown hs]
    rfl
  | sent hs => exact forwards_of_sends hs
  | output hl => rw [hl]; rfl
  | finished hl => rw [hl]; rfl
  | _ => rfl

/-- The operator sees the lines that are shown, in the order in which they came. -/
theorem Run.forwards_eq (hr : Run c g h i) :
    forwards (h.flatMap Round.log) = h.flatMap Round.shows := by
  induction hr with
  | init _ => rfl
  | step hr he hp ih =>
    have hf := (hr.follows_next he hp).forwards_eq
    simp [List.flatMap_append, ih, hf]

end KernelProbe.Session
