import Mathlib.Data.List.Induction
import KernelProbe.Proofs.Session.Requests
import KernelProbe.Proofs.Text.Numerals
import KernelProbe.Proofs.Text.Search

/-!
# What the worker is told of the debugger's lines

Where the session does the automation, the multiplexer only waits for the first prompt
(`muxAfter_eq`). At that line the initial commands are written and the worker is told of the
attachment, and at every line that is shown it is told of the stop that the line reports.

* `Handles` says what is done at a line that is shown, and `Run.handles` that every run does so;
* `Run.notices_eq`: over a run, the worker is told of one attachment at most, and of the stops of
  the lines that are shown, in their order.
-/

namespace KernelProbe.Session

open Debugger Mi Program

variable {c : Config} {g : Nat} {h before after : List Round} {i : Instance} {e : Event}
  {r : Round} {line : String} {log : Log surroundings}

/-! ## What a log tells and writes -/

/-- The events that the worker is told, in order. -/
def notices (log : Log surroundings) : List WorkerEvent :=
  log.filterMap fun e =>
    match e.call with
    | .notify event => some event
    | _ => none

/-- The lines that are written to the debugger, whether it takes them or not. -/
def writes (log : Log surroundings) : List String :=
  log.filterMap fun e =>
    match e.call with
    | .write line => some line
    | _ => none

@[simp]
theorem notices_append (log more : Log surroundings) :
    notices (log ++ more) = notices log ++ notices more :=
  List.filterMap_append

@[simp]
theorem writes_append (log more : Log surroundings) :
    writes (log ++ more) = writes log ++ writes more :=
  List.filterMap_append

@[simp]
theorem notices_tellings (events : List WorkerEvent) : notices (tellings events) = events := by
  induction events with
  | nil => rfl
  | cons event events ih => exact congrArg (event :: ·) ih

theorem notices_of_sends (h : ∀ e ∈ log, Sends e.call) : notices log = [] := by
  refine filterMap_of_sends ?_ h
  rintro ⟨_ | _, _⟩ he
  all_goals first | rfl | exact he.elim

/-- A command is written once, with the root filled in. -/
theorem writes_sendCommand {command : String} (hp : Path (sendCommand c command) log ()) :
    writes log = [fillRoot command c.root] := by
  obtain ⟨line, taken, rfl, rfl⟩ := path_sendCommand.1 hp
  unfold filledEntry
  split <;> cases taken <;> rfl

theorem writes_sendAll {commands : List String} (hp : Path (sendAll c commands) log ()) :
    writes log = commands.map (fillRoot · c.root) := by
  induction commands generalizing log with
  | nil =>
    obtain ⟨rfl, -⟩ := path_done.1 hp
    rfl
  | cons command commands ih =>
    obtain ⟨first, _, second, h₁, h₂, rfl⟩ := path_bind.1 hp
    rw [writes_append, writes_sendCommand h₁, ih h₂]
    rfl

/-- The breakpoint of the stop that the worker is told of. -/
def WorkerEvent.stop? : WorkerEvent → Option HookId
  | .stopped id => some id
  | _ => none

/-! ## Lines -/

/-- The lines of the debugger that were shown to the operator, in order. -/
def shownLines (h : List Round) : List String :=
  h.filterMap Round.shownLine?

/-- A line is the first one in a run with the marker of a prompt in it. -/
structure IsFirstPrompt (c : Config) (before : List Round) (line : String) : Prop where
  prompt : c.markers.prompt.toList <:+: line.toList
  first : ∀ earlier ∈ shownLines before, ¬c.markers.prompt.toList <:+: earlier.toList

/-- A line reports that the target stopped at a breakpoint. -/
def StopsAt (line : String) (id : HookId) : Prop :=
  ∃ record number, Record.read? line = some record ∧ record.kind = .exec ∧
    record.className = "stopped" ∧ record.get? "reason" = some (.text "breakpoint-hit") ∧
    record.get? "bkptno" = some (.text number) ∧ Text.readWord32 10 number.toList = .ok id

/-- The breakpoint of the stop that a line reports. -/
def stop? (line : String) : Option HookId :=
  (Record.read? line).bind Record.breakpointHit?

theorem text?_eq_some {v : Option Value} {text : String} :
    v.bind Value.text? = some text ↔ v = some (.text text) := by
  rw [Option.bind_eq_some_iff]
  constructor
  · rintro ⟨_ | _, rfl, ⟨⟩⟩
    rfl
  · rintro rfl
    exact ⟨_, rfl, rfl⟩

theorem breakpointHit?_eq_some {record : Record} {id : HookId} :
    record.breakpointHit? = some id ↔ ∃ number, record.kind = .exec ∧
      record.className = "stopped" ∧ record.get? "reason" = some (.text "breakpoint-hit") ∧
      record.get? "bkptno" = some (.text number) ∧
      Text.readWord32 10 number.toList = .ok id := by
  unfold Record.breakpointHit?
  constructor
  · intro h
    split at h
    · next hc =>
      obtain ⟨hk, hn, hr⟩ := hc
      obtain ⟨v, hv, h⟩ := Option.bind_eq_some_iff.1 h
      obtain ⟨number, ht, h⟩ := Option.bind_eq_some_iff.1 h
      refine ⟨number, hk, hn, text?_eq_some.1 hr, text?_eq_some.1 ?_, Text.toOption_eq_some_iff.1 h⟩
      rw [hv, Option.bind_some, ht]
    · cases h
  · rintro ⟨number, hk, hn, hr, hb, h⟩
    rw [if_pos ⟨hk, hn, text?_eq_some.2 hr⟩, hb]
    exact Text.toOption_eq_some_iff.2 h

theorem stop?_eq_some {id : HookId} : stop? line = some id ↔ StopsAt line id := by
  rw [stop?, Option.bind_eq_some_iff]
  refine exists_congr fun record => ?_
  rw [breakpointHit?_eq_some, ← exists_and_left]

/-- What is done at a line that is shown: the initial commands are written at the first prompt and
    at no other line, and then the worker is told, of the attachment at the first prompt and of
    the stop that the line reports. -/
inductive Handles (c : Config) (before : List Round) (line : String) : Log surroundings → Prop
  | mk {first : Bool} {stop : Option HookId} {sent : Log surroundings} :
      (first ↔ IsFirstPrompt c before line) → (∀ id, stop = some id ↔ StopsAt line id) →
      (∀ e ∈ sent, Sends e.call) →
      writes sent = (if first then c.initialCommands.map (fillRoot · c.root) else []) →
      Handles c before line (⟨.forward line, ()⟩ :: ⟨.log (.output line), ()⟩ ::
        (sent ++ tellings ((if first then [.attach] else []) ++ (stop.map .stopped).toList)))

/-! ## The multiplexer of an automated session -/

/-- Whether a prompt was among the lines that were shown. -/
def prompted (c : Config) (h : List Round) : Bool :=
  (shownLines h).any fun line => Text.contains line c.markers.prompt

theorem isFirstPrompt_iff : IsFirstPrompt c before line ↔
    (Text.contains line c.markers.prompt && !prompted c before) = true := by
  rw [Bool.and_eq_true, Bool.not_eq_true', prompted, List.any_eq_false, Text.contains_iff]
  constructor
  · rintro ⟨hp, hf⟩
    exact ⟨hp, fun line hl => Text.contains_iff.not.2 (hf line hl)⟩
  · rintro ⟨hp, hf⟩
    exact ⟨hp, fun line hl => Text.contains_iff.not.1 (hf line hl)⟩

theorem prompted_concat (h : List Round) (r : Round) : prompted c (h ++ [r]) =
    (prompted c h || r.shownLine?.any fun line => Text.contains line c.markers.prompt) := by
  rw [prompted, shownLines, List.filterMap_append, List.any_append, prompted, shownLines]
  cases hr : r.shownLine? <;> simp [hr]

/-- The multiplexer waits for the first prompt and for nothing else. -/
theorem muxAfter_eq (ha : c.automation.isSome) (h : List Round) :
    muxAfter c h = ⟨c.markers, c.initialCommands, false, prompted c h, false⟩ := by
  induction h using List.reverseRecOn with
  | nil =>
    obtain ⟨config, ha⟩ := Option.isSome_iff_exists.1 ha
    simp [muxAfter, Multiplexer.new, prompted, shownLines, ha]
  | append_singleton h r ih =>
    rw [muxAfter_concat, ih, prompted_concat]
    cases r.shownLine? with
    | none => simp
    | some line => simp [Multiplexer.observe, Multiplexer.isPrompt]

theorem observe_muxAfter (ha : c.automation.isSome) (h : List Round) (line : String) :
    (muxAfter c h).observe line =
      (if Text.contains line c.markers.prompt && !prompted c h then c.initialCommands else [],
        ⟨c.markers, c.initialCommands, false,
          prompted c h || Text.contains line c.markers.prompt, false⟩) := by
  rw [muxAfter_eq ha]
  simp [Multiplexer.observe, Multiplexer.isPrompt]

theorem told_muxAfter (ha : c.automation.isSome) (h : List Round) (line : String) :
    Instance.told (muxAfter c h) line =
      (if Text.contains line c.markers.prompt && !prompted c h then [.attach] else []) ++
        ((stop? line).map .stopped).toList := by
  rw [Instance.told, observe_muxAfter ha, muxAfter_eq ha]
  cases prompted c h <;> simp [stop?]

/-! ## Rounds -/

theorem Follows.handles (ha : c.automation.isSome) (hf : Follows c before r.event r.log)
    (hs : r.shownLine? = some line) : Handles c before line r.log := by
  obtain ⟨event, log⟩ := r
  cases hf with
  | @shown _ shown _ _ _ hm hp =>
    obtain rfl : shown = line := by
      rw [Round.shownLine?, replies_shown hp] at hs
      exact Option.some.inj hs
    subst hm
    rw [observe_muxAfter ha] at hp
    rw [told_muxAfter ha]
    refine .mk isFirstPrompt_iff.symm (fun id => stop?_eq_some)
      (fun e he => only_sendAll c _ hp e he) ?_
    rw [writes_sendAll hp]
    split <;> rfl
  | _ => cases hs

/-- Where no line is shown, the worker is told of operator's commands alone, and at a line of the
    debugger nothing is written. -/
theorem Follows.of_shownLine?_eq_none (hf : Follows c before r.event r.log)
    (hs : r.shownLine? = none) :
    (∀ event ∈ notices r.log, ∃ token text, event = .userCommand token text) ∧
      ∀ g line, r.event = .debuggerLine g line → writes r.log = [] := by
  obtain ⟨event, log⟩ := r
  constructor
  · cases hf with
    | shown _ _ hp => simp [Round.shownLine?, replies_shown hp] at hs
    | sent hs => simp [notices_of_sends hs]
    | @passedOn _ token text => exact List.forall_mem_singleton.2 ⟨token, text, rfl⟩
    | _ => exact fun event he => absurd he List.not_mem_nil
  · rintro g line rfl
    cases hf with
    | shown _ _ hp => simp [Round.shownLine?, replies_shown hp] at hs
    | answered _ _ _ => rfl

theorem Handles.notices_eq (hh : Handles c before line log) : notices log =
    (if Text.contains line c.markers.prompt && !prompted c before then [.attach] else []) ++
      ((stop? line).map .stopped).toList := by
  cases hh with
  | @mk first stop sent hf hi hs hw =>
    obtain rfl : stop = stop? line := Option.ext fun id => (hi id).trans stop?_eq_some.symm
    rw [← Bool.eq_iff_iff.2 (hf.trans isFirstPrompt_iff)]
    change notices (sent ++ tellings _) = _
    rw [notices_append, notices_of_sends hs, notices_tellings, List.nil_append]

/-- A round tells of the attachment if a prompt comes in it for the first time, and of the stop of
    the line that is shown in it. -/
theorem Follows.notices_eq (ha : c.automation.isSome) (hf : Follows c before r.event r.log) :
    (prompted c before).toNat + (notices r.log).count .attach =
        (prompted c (before ++ [r])).toNat ∧
      (notices r.log).filterMap WorkerEvent.stop? = (r.shownLine?.bind stop?).toList := by
  rw [prompted_concat]
  cases hs : r.shownLine? with
  | none =>
    have hn := (hf.of_shownLine?_eq_none hs).1
    constructor
    · rw [List.count_eq_zero.2 fun hm => by obtain ⟨_, _, ⟨⟩⟩ := hn _ hm]
      simp
    · refine List.filterMap_eq_nil_iff.2 fun event hm => ?_
      obtain ⟨_, _, rfl⟩ := hn event hm
      rfl
  | some line =>
    rw [(hf.handles ha hs).notices_eq, Option.any_some, Option.bind_some]
    generalize Text.contains line c.markers.prompt = prompt
    generalize stop? line = stop
    constructor
    · cases prompted c before <;> cases prompt <;> cases stop <;> rfl
    · cases prompted c before <;> cases prompt <;> cases stop <;> rfl

/-! ## Runs -/

namespace Run

theorem automated (hr : Run c g h i) : c.automation.isSome := by
  induction hr with
  | init ha => exact ha
  | step _ _ _ ih => exact ih

theorem handles (hr : Run c g h i) (hs : h = before ++ r :: after)
    (hl : r.shownLine? = some line) : Handles c before line r.log :=
  (hr.follows hs).handles hr.automated hl

/-- Over a run, the worker is told of one attachment if there was a prompt and of none otherwise,
    and of the stops that the lines report, in their order. -/
theorem notices_eq (hr : Run c g h i) :
    (notices (h.flatMap Round.log)).count .attach = (prompted c h).toNat ∧
      (notices (h.flatMap Round.log)).filterMap WorkerEvent.stop? =
        (shownLines h).filterMap stop? := by
  induction hr with
  | init _ => exact ⟨rfl, rfl⟩
  | @step h _ _ e log hr he hp ih =>
    obtain ⟨ha, hs⟩ := Follows.notices_eq (r := ⟨e, log⟩) hr.automated (hr.follows_next he hp)
    rw [List.flatMap_append, List.flatMap_singleton, notices_append, List.count_append, ih.1, ha,
      List.filterMap_append, ih.2, hs, shownLines, shownLines, List.filterMap_append]
    refine ⟨rfl, ?_⟩
    cases hl : Round.shownLine? ⟨e, log⟩ with
    | none => simp [hl]
    | some line => cases hi : stop? line <;> simp [hl, hi]

end Run

end KernelProbe.Session
