import Mathlib.Logic.Function.Basic
import KernelProbe.Proofs.Session.Control
import KernelProbe.Proofs.Session.Pump

/-!
# The streams of a debugger

A debugger writes on two streams, each with a pump of its own. What the pumps send waits in one
queue for the control loop, between all that happens besides, and only the pump of the standard
output tells when it has come to its end (`Relays`).

* `Stream.Accounts`: what a stream's pump has sent, and that it was taken or waits, in its order;
  every step keeps it so (`Relays.accounts`);
* `streams_delivered`: each line of text in front of the first line that is none is taken once,
  and then shown or kept as the answer to a request; the debugger is left when the pump of its
  output has come to its end, which is the end of the output if all lines are texts;
* `unreadable_line_ends_debugger`: a line that is no text ends the output before its end.
-/

namespace KernelProbe.Session

open Mi Program

/-- The streams on which a debugger writes. -/
inductive Origin
  | output
  | errors
  deriving DecidableEq

/-- A stream between a debugger and its pump. -/
structure Stream where
  /-- The bytes that the pump has read. -/
  read : List UInt8
  /-- The bytes that wait for the pump. -/
  unread : List UInt8
  /-- Whether the debugger has closed the stream. -/
  ended : Bool
  /-- Whether the pump has come to the end of the stream. -/
  drained : Bool
  pump : Pump

namespace Stream

/-- A stream on which nothing is written. -/
def new : Stream := ⟨[], [], false, false, .new⟩

/-- The lines that the pump has come to. -/
def reached (s : Stream) : List (List UInt8) :=
  Pump.linesIn s.read s.drained

/-- The lines that the debugger has written. -/
def written (s : Stream) : List (List UInt8) :=
  Pump.linesIn (s.read ++ s.unread) s.ended

end Stream

/-- A message for the control loop. -/
inductive Arrival
  /-- A line of the debugger. -/
  | line (origin : Origin) (text : String)
  /-- The end of the debugger's output. -/
  | closed
  /-- Anything else. -/
  | other (e : Event)
  deriving DecidableEq

/-- The event of a message. -/
def Arrival.event (g : Nat) : Arrival → Event
  | .line _ text => .debuggerLine g text
  | .closed => .debuggerClosed g
  | .other e => e

/-- An event that no pump of the debugger sends, and that does not end the session. -/
def IsAside (g : Nat) : Event → Prop
  | .debuggerLine g' _ | .debuggerClosed g' => g' ≠ g
  | .inputClosed => False
  | _ => True

/-- What a pump sends when it has sent lines and is now in another state. -/
def Origin.messages (o : Origin) (r : List String × Pump) : List Arrival :=
  r.1.map (.line o) ++ if o = .output ∧ r.2.isOpen = false then [.closed] else []

/-- A message that the control loop has taken, with what was done at it. -/
structure Taken where
  message : Arrival
  log : Log surroundings

/-- A debugger with its streams and the queue of the control loop. -/
structure Relay where
  streams : Origin → Stream
  /-- What waits for the control loop, oldest first. -/
  queue : List Arrival
  debugger : Instance
  /-- What the control loop has taken, oldest first. -/
  taken : List Taken
  /-- Whether the control loop has left the debugger as one that ended. -/
  left : Bool

/-- A relay with another stream. -/
def Relay.withStream (s : Relay) (o : Origin) (stream : Stream) : Relay :=
  { s with streams := Function.update s.streams o stream }

/-- The relays of a debugger, for all that it writes and for every order in which the pumps and the
    control loop go on, whatever the surroundings answer. -/
inductive Relays (c : Config) (g : Nat) : Relay → Prop
  | start : Relays c g ⟨fun _ => .new, [], .new c g, [], false⟩
  /-- The debugger writes. -/
  | write {s : Relay} (o : Origin) (bytes : List UInt8) : Relays c g s →
      (s.streams o).ended = false → Relays c g
        (s.withStream o { s.streams o with unread := (s.streams o).unread ++ bytes })
  /-- The debugger closes a stream. -/
  | close {s : Relay} (o : Origin) : Relays c g s →
      Relays c g (s.withStream o { s.streams o with ended := true })
  /-- A pump reads some of the bytes that wait for it. -/
  | read {s : Relay} (o : Origin) (bytes unread : List UInt8) : Relays c g s →
      (s.streams o).pump.isOpen = true → (s.streams o).unread = bytes ++ unread → Relays c g
        { s.withStream o { s.streams o with
            read := (s.streams o).read ++ bytes
            unread
            pump := ((s.streams o).pump.feed bytes).2 } with
          queue := s.queue ++ o.messages ((s.streams o).pump.feed bytes) }
  /-- A pump reads the end of its stream. -/
  | drain {s : Relay} (o : Origin) : Relays c g s → (s.streams o).pump.isOpen = true →
      (s.streams o).unread = [] → (s.streams o).ended = true → Relays c g
        { s.withStream o { s.streams o with
            drained := true
            pump := (s.streams o).pump.finish.2 } with
          queue := s.queue ++ o.messages (s.streams o).pump.finish }
  /-- Something else happens. -/
  | arrive {s : Relay} {e : Event} : Relays c g s → IsAside g e →
      Relays c g { s with queue := s.queue ++ [.other e] }
  /-- The control loop takes the oldest message. -/
  | take {s : Relay} {m : Arrival} {queue : List Arrival} {log : Log surroundings}
      {i : Instance} {e : Option InstanceEnd} : Relays c g s → s.left = false →
      s.queue = m :: queue → Path (s.debugger.onEvent c (m.event g)) log (i, e) → Relays c g
        { s with
          queue
          debugger := i
          taken := s.taken ++ [⟨m, log⟩]
          left := e == some .exited }

/-! ## What a pump has sent -/

variable {c : Config} {g : Nat} {s : Relay} {o : Origin} {stream : Stream}
  {messages : List Arrival}

/-- Whether a message comes from a stream. -/
def Arrival.isFrom (o : Origin) : Arrival → Bool
  | .line o' _ => o' = o
  | .closed => o = .output
  | .other _ => false

/-- The line of a stream in a message. -/
def Arrival.line? (o : Origin) : Arrival → Option String
  | .line o' text => if o' = o then some text else none
  | _ => none

/-- The lines of a stream among messages, in order. -/
def linesFrom (o : Origin) (messages : List Arrival) : List String :=
  messages.filterMap (Arrival.line? o)

theorem linesFrom_append (o : Origin) (messages more : List Arrival) :
    linesFrom o (messages ++ more) = linesFrom o messages ++ linesFrom o more :=
  List.filterMap_append

theorem linesFrom_filter (o : Origin) (messages : List Arrival) :
    linesFrom o (messages.filter (Arrival.isFrom o)) = linesFrom o messages := by
  rw [linesFrom, List.filterMap_filter]
  refine congrArg (List.filterMap · messages) (funext fun m => ?_)
  cases m with
  | line o' text => by_cases h : o' = o <;> simp [Arrival.isFrom, Arrival.line?, h]
  | closed => by_cases h : o = .output <;> simp [Arrival.isFrom, Arrival.line?, h]
  | other e => rfl

theorem isFrom_of_mem_messages {r : List String × Pump} {m : Arrival} (hm : m ∈ o.messages r)
    (o' : Origin) : m.isFrom o' = decide (o = o') := by
  rcases List.mem_append.1 hm with hm | hm
  · obtain ⟨text, -, rfl⟩ := List.mem_map.1 hm
    rfl
  · split at hm
    · next h =>
      rw [List.mem_singleton.1 hm, h.1]
      exact decide_eq_decide.2 eq_comm
    · cases hm

theorem filter_messages (o : Origin) (r : List String × Pump) :
    (o.messages r).filter (Arrival.isFrom o) = o.messages r :=
  List.filter_eq_self.2 fun _ hm => (isFrom_of_mem_messages hm o).trans (decide_eq_true rfl)

theorem filter_messages_of_ne {o' : Origin} (h : o ≠ o') (r : List String × Pump) :
    (o.messages r).filter (Arrival.isFrom o') = [] :=
  List.filter_eq_nil_iff.2 fun _ hm => by simp [isFrom_of_mem_messages hm o', h]

/-- A pump that is still open has not told the end of its stream. -/
theorem messages_append {p : Pump} (h : p.isOpen = true) (xs : List String)
    (r : List String × Pump) :
    o.messages (xs, p) ++ o.messages r = o.messages (xs ++ r.1, r.2) := by
  simp [Origin.messages, h]

theorem linesFrom_messages (o : Origin) (r : List String × Pump) :
    linesFrom o (o.messages r) = r.1 := by
  rw [Origin.messages, linesFrom_append]
  have hc : linesFrom o (if o = .output ∧ r.2.isOpen = false then [.closed] else []) = [] := by
    split <;> rfl
  have hl : Arrival.line? o ∘ Arrival.line o = some := funext fun _ => if_pos rfl
  rw [hc, List.append_nil, linesFrom, List.filterMap_map, hl, List.filterMap_some]

/-- A stream's pump is where its reading has brought it, and has sent the texts that it has come
    to, and the end of the stream if that is to be told. -/
structure Stream.Accounts (o : Origin) (stream : Stream) (messages : List Arrival) : Prop where
  pump : stream.pump = if stream.drained then .closed else (Pump.new.feed stream.read).2
  drained : stream.drained = true → stream.ended = true ∧ stream.unread = []
  sent : messages.filter (Arrival.isFrom o) = o.messages (Pump.textsIn stream.reached, stream.pump)

namespace Stream.Accounts

theorem drained_eq_false (h : stream.Accounts o messages) (hp : stream.pump.isOpen = true) :
    stream.drained = false := by
  cases hd : stream.drained with
  | false => rfl
  | true =>
    rw [h.pump, hd] at hp
    cases hp

theorem write (h : stream.Accounts o messages) (he : stream.ended = false) (bytes : List UInt8) :
    Accounts o { stream with unread := stream.unread ++ bytes } messages where
  pump := h.pump
  drained hd := absurd ((h.drained hd).1.symm.trans he) nofun
  sent := h.sent

theorem close (h : stream.Accounts o messages) :
    Accounts o { stream with ended := true } messages where
  pump := h.pump
  drained hd := ⟨rfl, (h.drained hd).2⟩
  sent := h.sent

theorem read {bytes unread : List UInt8} (h : stream.Accounts o messages)
    (hp : stream.pump.isOpen = true) :
    Accounts o
      { stream with
        read := stream.read ++ bytes
        unread
        pump := (stream.pump.feed bytes).2 }
      (messages ++ o.messages (stream.pump.feed bytes)) := by
  have hd := h.drained_eq_false hp
  have hn : stream.pump = (Pump.new.feed stream.read).2 := by rw [h.pump, hd]; rfl
  have hs := Pump.feed_append .new stream.read bytes
  rw [← hn] at hs
  refine ⟨?_, fun hd' => absurd (hd.symm.trans hd') nofun, ?_⟩
  · dsimp only
    rw [hd, if_neg nofun, hs]
  · have hr : Pump.textsIn stream.reached = (Pump.new.feed stream.read).1 := by
      rw [reached, hd, Pump.feed_new_fst]
    rw [List.filter_append, h.sent, filter_messages, messages_append hp, hr]
    dsimp only [reached]
    rw [hd, ← Pump.feed_new_fst, hs]

theorem drain (h : stream.Accounts o messages) (hp : stream.pump.isOpen = true)
    (hu : stream.unread = []) (he : stream.ended = true) :
    Accounts o { stream with drained := true, pump := stream.pump.finish.2 }
      (messages ++ o.messages stream.pump.finish) := by
  have hd := h.drained_eq_false hp
  have hn : stream.pump = (Pump.new.feed stream.read).2 := by rw [h.pump, hd]; rfl
  refine ⟨Pump.finish_snd _, fun _ => ⟨he, hu⟩, ?_⟩
  have hr : Pump.textsIn stream.reached = (Pump.new.feed stream.read).1 := by
    rw [reached, hd, Pump.feed_new_fst]
  rw [List.filter_append, h.sent, filter_messages, messages_append hp, hr]
  dsimp only [reached]
  rw [← Pump.finish_feed_new, ← hn]

theorem append (h : stream.Accounts o messages) {more : List Arrival}
    (hm : more.filter (Arrival.isFrom o) = []) : stream.Accounts o (messages ++ more) where
  pump := h.pump
  drained := h.drained
  sent := by rw [List.filter_append, hm, List.append_nil, h.sent]

end Stream.Accounts

/-! ## What the control loop takes -/

/-- What becomes of a line that was taken: it is shown once, or it is a result record that answers
    a request of the automation. -/
inductive Delivered (c : Config) (line : String) (log : Log surroundings) : Prop
  | shown : forwards log = [line] → replies log = [] → Delivered c line log
  | withheld {record : Record} {token requester : Nat} : c.automation.isSome →
      Record.read? line = some record → record.resultToken? = some token → forwards log = [] →
      replies log = [(requester, some record)] → Delivered c line log

theorem delivered_of_onLine {i i' : Instance} {line : String} {log : Log surroundings}
    (ha : i.automated = c.automation.isSome) (hp : Path (i.onLine c line) log i') :
    Delivered c line log := by
  rcases Instance.path_onLine.1 hp with ⟨r, token, q, hl, ht, -, rfl, -⟩ | ⟨-, ho⟩
  · unfold Instance.record? at hl
    split at hl
    · next h => exact .withheld (ha ▸ h) hl ht rfl rfl
    · cases hl
  · obtain ⟨sent, hs, rfl, -⟩ := Instance.path_onOtherLine.1 ho
    exact .shown (forwards_shown hs) (replies_shown hs)

/-- The debugger is left as one that ended at the end of its output alone. -/
theorem end?_event {i : Instance} {m : Arrival} (hm : ∀ e, m = .other e → IsAside i.generation e) :
    (i.end? (m.event i.generation) == some InstanceEnd.exited) = decide (m = .closed) := by
  cases m with
  | line o text => rfl
  | closed => simp [Arrival.event, Instance.end?]
  | other e =>
    have h := hm e rfl
    cases e with
    | debuggerClosed g => simp [Arrival.event, Instance.end?, show g ≠ i.generation from h]
    | inputClosed => exact h.elim
    | _ => rfl

/-! ## Runs -/

/-- What the pumps have sent, among all that happened besides. -/
def Relay.sent (s : Relay) : List Arrival :=
  s.taken.map Taken.message ++ s.queue

/-- The lines of a stream that were taken, in order. -/
def Relay.linesTaken (s : Relay) (o : Origin) : List String :=
  linesFrom o (s.taken.map Taken.message)

/-- The lines of a stream that wait, in order. -/
def Relay.linesWaiting (s : Relay) (o : Origin) : List String :=
  linesFrom o s.queue

theorem forall_withStream {P : Origin → Stream → Prop} (h : ∀ o', o' ≠ o → P o' (s.streams o'))
    (ho : P o stream) (o' : Origin) : P o' ((s.withStream o stream).streams o') := by
  change P o' (Function.update s.streams o stream o')
  by_cases he : o' = o
  · subst he
    rwa [Function.update_self]
  · rw [Function.update_of_ne he]
    exact h o' he

theorem eq_nil_of_append_eq_concat {α : Type} {xs ys zs : List α} {a : α}
    (h : xs ++ ys = zs ++ [a]) (hx : a ∈ xs) (hz : a ∉ zs) : ys = [] := by
  rcases List.eq_nil_or_concat ys with rfl | ⟨ys, b, rfl⟩
  · rfl
  · rw [List.concat_eq_append, ← List.append_assoc] at h
    obtain ⟨rfl, -⟩ := List.append_inj' h rfl
    exact absurd (List.mem_append_left _ hx) hz

namespace Relays

/-- What was taken or waits is what the pumps have sent. -/
theorem accounts (hs : Relays c g s) (o : Origin) : (s.streams o).Accounts o s.sent := by
  -- A step of one pump adds no message of the other one.
  have others {s : Relay} {o o' : Origin} {stream : Stream} {r : List String × Pump}
      (ih : ∀ o, (s.streams o).Accounts o s.sent)
      (h : stream.Accounts o' (s.sent ++ o'.messages r)) :
      ((s.withStream o' stream).streams o).Accounts o (s.sent ++ o'.messages r) :=
    forall_withStream (P := fun o stream => stream.Accounts o _)
      (fun o ho => (ih o).append (filter_messages_of_ne (Ne.symm ho) r)) h o
  induction hs generalizing o with
  | start =>
    refine ⟨rfl, nofun, ?_⟩
    cases o <;> rfl
  | write o' bytes _ he ih =>
    exact forall_withStream (P := fun o stream => stream.Accounts o _) (fun o _ => ih o)
      ((ih o').write he bytes) o
  | close o' _ ih =>
    exact forall_withStream (P := fun o stream => stream.Accounts o _) (fun o _ => ih o)
      (ih o').close o
  | read _ _ _ _ hp _ ih =>
    rw [Relay.sent, ← List.append_assoc]
    exact others ih ((ih _).read hp)
  | drain _ _ hp hu he ih =>
    rw [Relay.sent, ← List.append_assoc]
    exact others ih ((ih _).drain hp hu he)
  | arrive _ _ ih =>
    rw [Relay.sent, ← List.append_assoc]
    exact (ih o).append rfl
  | take _ _ hq _ ih =>
    have h := ih o
    rw [Relay.sent, hq] at h
    rw [Relay.sent, List.map_append, List.append_assoc]
    exact h

/-- The debugger is the one that was started. -/
theorem debugger (hs : Relays c g s) :
    s.debugger.generation = g ∧ s.debugger.automated = c.automation.isSome := by
  induction hs with
  | start => exact ⟨rfl, rfl⟩
  | take _ _ _ hp ih =>
    have h := (Instance.outcome_of_path hp).1.continues
    exact ⟨h.generation.trans ih.1, h.automated.trans ih.2⟩
  | _ => assumption

theorem isAside (hs : Relays c g s) : ∀ e, .other e ∈ s.queue → IsAside g e := by
  have sent {o : Origin} {r : List String × Pump} {e : Event} (h : .other e ∈ o.messages r) :
      IsAside g e :=
    absurd ((isFrom_of_mem_messages h o).trans (decide_eq_true rfl)) nofun
  induction hs with
  | start => exact fun e he => absurd he List.not_mem_nil
  | read _ _ _ _ _ _ ih | drain _ _ _ _ _ ih =>
    exact fun e he => (List.mem_append.1 he).elim (ih e) sent
  | arrive _ ha ih =>
    refine fun e he => (List.mem_append.1 he).elim (ih e) fun he => ?_
    obtain ⟨⟩ := List.mem_singleton.1 he
    exact ha
  | take _ _ hq _ ih => exact fun e he => ih e (hq ▸ List.mem_cons_of_mem _ he)
  | _ => assumption

theorem left_of_take {m : Arrival} {queue : List Arrival} {log : Log surroundings} {i : Instance}
    {e : Option InstanceEnd} (hs : Relays c g s) (hq : s.queue = m :: queue)
    (hp : Path (s.debugger.onEvent c (m.event g)) log (i, e)) :
    (e == some .exited) = decide (m = .closed) := by
  obtain ⟨-, rfl⟩ := Instance.outcome_of_path hp
  have hm : ∀ e, m = .other e → IsAside s.debugger.generation e := by
    rintro e rfl
    exact hs.debugger.1 ▸ hs.isAside e (hq ▸ List.mem_cons_self)
  have h := end?_event hm
  rwa [hs.debugger.1] at h

/-- What waits can be taken, whatever the surroundings answer. -/
theorem exists_take {m : Arrival} {queue : List Arrival} (hs : Relays c g s)
    (hl : s.left = false) (hq : s.queue = m :: queue) :
    ∃ log i, Relays c g
      { s with
        queue
        debugger := i
        taken := s.taken ++ [⟨m, log⟩]
        left := decide (m = .closed) } := by
  obtain ⟨log, ⟨i, e⟩, hp⟩ := exists_path (I := surroundings) compliant
    (s.debugger.onEvent c (m.event g))
  exact ⟨log, i, hs.left_of_take hq hp ▸ hs.take hl hq hp⟩

/-- The control loop leaves the debugger at the end of its output, and for no other reason. -/
theorem left_eq (hs : Relays c g s) :
    s.left = decide (.closed ∈ s.taken.map Taken.message) := by
  induction hs with
  | start => rfl
  | @take s m queue log i e hs hl hq hp ih =>
    rw [ih, decide_eq_false_iff_not] at hl
    rw [hs.left_of_take hq hp, List.map_append, decide_eq_decide, List.mem_append,
      List.map_singleton, List.mem_singleton, or_iff_right hl, eq_comm]
  | _ => assumption

/-- Each line that was taken was shown once, or kept as the answer to a request. -/
theorem delivered (hs : Relays c g s) :
    ∀ t ∈ s.taken, ∀ o line, t.message = .line o line → Delivered c line t.log := by
  induction hs with
  | start => exact fun t ht => absurd ht List.not_mem_nil
  | @take s m queue log i e hs _ _ hp ih =>
    refine List.forall_mem_append.2 ⟨ih, List.forall_mem_singleton.2 ?_⟩
    rintro o line rfl
    obtain ⟨hg, ha⟩ := hs.debugger
    cases (Instance.outcome_of_path hp).1 with
    | line hl => exact delivered_of_onLine ha hl
    | passedOver h => exact absurd hg.symm h
  | _ => assumption

/-- Where the control loop has left the debugger, the pump of its output has come to its end, and
    none of its lines waits. -/
theorem output_taken (hs : Relays c g s) (hl : s.left = true) :
    s.linesWaiting .output = [] ∧ (s.streams .output).pump.isOpen = false := by
  have ha := (hs.accounts .output).sent
  rw [hs.left_eq, decide_eq_true_iff] at hl
  have hc : Arrival.closed ∈ (s.taken.map Taken.message).filter (Arrival.isFrom .output) :=
    List.mem_filter.2 ⟨hl, rfl⟩
  have hm := List.mem_append_left (s.queue.filter (Arrival.isFrom .output)) hc
  rw [← List.filter_append, ← Relay.sent, ha, Origin.messages] at hm
  have hn : ∀ xs : List String, Arrival.closed ∉ xs.map (.line .output) := by simp
  -- The end is told once, behind all lines, and so nothing waits behind it.
  by_cases hp : (s.streams .output).pump.isOpen = false
  · rw [Relay.sent, List.filter_append, Origin.messages, if_pos ⟨rfl, hp⟩] at ha
    have hq := eq_nil_of_append_eq_concat ha hc (hn _)
    refine ⟨?_, hp⟩
    rw [Relay.linesWaiting, ← linesFrom_filter, hq]
    rfl
  · rw [if_neg fun h => hp h.2, List.append_nil] at hm
    exact absurd hm (hn _)

end Relays

/-- Every line that the debugger has written on a stream was taken, once and in its order. -/
def Relay.AllTaken (s : Relay) (o : Origin) : Prop :=
  (s.linesTaken o).map some = (s.streams o).written.map Pump.text?

theorem Relays.linesTaken_append (hs : Relays c g s) (o : Origin) :
    s.linesTaken o ++ s.linesWaiting o = Pump.textsIn (s.streams o).reached := by
  rw [Relay.linesTaken, Relay.linesWaiting, ← linesFrom_append, ← Relay.sent, ← linesFrom_filter,
    (hs.accounts o).sent, linesFrom_messages]

theorem Relays.allTaken (hs : Relays c g s) (hu : (s.streams o).unread = [])
    (he : (s.streams o).drained = (s.streams o).ended) (hq : s.linesWaiting o = [])
    (ht : Pump.allText (s.streams o).written = true) : s.AllTaken o := by
  have hr : (s.streams o).reached = (s.streams o).written := by
    rw [Stream.reached, Stream.written, hu, List.append_nil, he]
  have h := hs.linesTaken_append o
  rw [hq, List.append_nil, hr] at h
  rw [Relay.AllTaken, h, Pump.map_textsIn ht]

/-- In whichever order a debugger writes and the pumps and the control loop go on: the lines of text
    on a stream, up to the first line that is none, were taken once or wait, in their order, as far
    as the pump has come to them. A line that was taken was shown once, or kept as the answer to a
    request. Where the debugger was left as one that ended, no line of its output waits, and if all
    lines on it are texts, then the debugger has closed it and all its lines were taken. Of a stream
    with texts alone all lines were taken as soon as its pump has come to its end and none waits.
    Lines that wait where the debugger was left lead to nothing with any later debugger. -/
theorem streams_delivered (hs : Relays c g s) :
    (∀ o, s.linesTaken o ++ s.linesWaiting o = Pump.textsIn (s.streams o).reached) ∧
    (∀ t ∈ s.taken, ∀ o line, t.message = .line o line → Delivered c line t.log) ∧
    (s.left = true → s.linesWaiting .output = [] ∧
      (Pump.allText (s.streams .output).written = true →
        (s.streams .output).ended = true ∧ s.AllTaken .output)) ∧
    (∀ o, (s.streams o).unread = [] → (s.streams o).drained = (s.streams o).ended →
      s.linesWaiting o = [] → Pump.allText (s.streams o).written = true → s.AllTaken o) ∧
    ∀ i : Instance, i.generation ≠ g → ∀ line log r,
      Path (i.onEvent c (.debuggerLine g line)) log r → log = [] := by
  refine ⟨hs.linesTaken_append, hs.delivered, fun hl => ?_, fun o => hs.allTaken, ?_⟩
  · obtain ⟨hq, hp⟩ := hs.output_taken hl
    refine ⟨hq, fun ht => ?_⟩
    have ha := hs.accounts .output
    cases hd : (s.streams .output).drained with
    | true =>
      obtain ⟨he, hu⟩ := ha.drained hd
      exact ⟨he, hs.allTaken hu (hd.trans he.symm) hq ht⟩
    | false =>
      -- The pump would have come to its end at a line that is no text.
      rw [ha.pump, hd, if_neg nofun, Pump.isOpen_feed_new, Pump.allText_linesIn_of_append ht] at hp
      cases hp
  · rintro i hi line log ⟨i', e⟩ hp
    cases (Instance.outcome_of_path hp).1 with
    | line _ => exact absurd rfl hi
    | passedOver _ => rfl

/-- A debugger that writes a line on each of its streams and then closes its output: both lines are
    taken before it is left. -/
theorem streams_delivered_both :
    let c : Config := { root := "/", debugger := ["gdb"] }
    ∃ s, Relays c 1 s ∧ s.left = true ∧ s.linesTaken .output = ["~a"] ∧
      s.linesTaken .errors = ["b"] ∧ s.AllTaken .output ∧ s.AllTaken .errors := by
  intro c
  let output : List UInt8 := [126, 97, 10]
  let errors : List UInt8 := [98, 10]
  have he : Pump.new.feed errors = (["b"], .new) := by decide +kernel
  have ho : Pump.new.feed output = (["~a"], .new) := by decide +kernel
  have written := ((Relays.start (c := c) (g := 1).write .output output rfl).write .errors errors
    rfl).close .output
  have read := (written.read .errors errors [] rfl rfl).read .output output [] rfl rfl
  have drained := read.drain .output (congrArg (·.2.isOpen) ho) rfl rfl
  have queued : Origin.errors.messages (Pump.new.feed errors) ++
      Origin.output.messages (Pump.new.feed output) ++
      Origin.output.messages (Pump.new.feed output).2.finish =
        [.line .errors "b", .line .output "~a", .closed] := by
    rw [he, ho]
    rfl
  obtain ⟨_, _, first⟩ := drained.exists_take rfl queued
  obtain ⟨_, _, second⟩ := first.exists_take rfl rfl
  obtain ⟨_, _, third⟩ := second.exists_take rfl rfl
  obtain ⟨-, -, hl, ha, -⟩ := streams_delivered third
  have hto : Pump.allText (Pump.linesIn output true) = true := by decide +kernel
  have hte : Pump.allText (Pump.linesIn errors false) = true := by decide +kernel
  exact ⟨_, third, rfl, rfl, rfl, ((hl rfl).2 hto).2, ha .errors rfl rfl rfl hte⟩

/-- A debugger that writes a byte that is no text, and then a line, is left as one that ended while
    it still runs; its line is never shown. -/
theorem unreadable_line_ends_debugger :
    let c : Config := { root := "/", debugger := ["gdb"] }
    let line := Text.Utf8.encode "~lost".toList
    ∃ s, Relays c 1 s ∧ s.left = true ∧ s.queue = [] ∧ (s.streams .output).ended = false ∧
      (s.streams .output).unread = [] ∧ (s.streams .output).written = [[255], line] ∧
      (s.taken.flatMap fun t => forwards t.log) = [] := by
  intro c line
  have hf : Pump.new.feed (255 :: 10 :: line ++ [10]) = ([], .closed) := by decide +kernel
  have written := Relays.start (c := c) (g := 1).write .output (255 :: 10 :: line ++ [10]) rfl
  have read := written.read .output (255 :: 10 :: line ++ [10]) [] rfl rfl
  have closed : Origin.output.messages (Pump.new.feed (255 :: 10 :: line ++ [10])) = [.closed] := by
    rw [hf]
    rfl
  have left := read.take rfl closed (.done _)
  refine ⟨_, left, ?_, rfl, rfl, rfl, ?_, rfl⟩
  · rfl
  · decide +kernel

end KernelProbe.Session
