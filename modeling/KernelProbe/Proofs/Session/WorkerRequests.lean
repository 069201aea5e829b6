import KernelProbe.Proofs.Session.Requests

/-!
# The requests of one worker

A debugger runs together with its worker (`Joint`): what the control loop tells the worker or
answers reaches it at once, and the messages of the worker wait, in their order, until the
control loop takes the oldest one. In between, lines of the debugger and of the operator may
come at any time.

* `Alone`: a request is on the way or open exactly while the worker waits, and then it is the
  worker's last one. Every round keeps it so (`Joint.run`);
* `requests_and_lines`: what becomes of the requests and of the debugger's lines in every run,
  and that one worker never has two requests outstanding.
-/

namespace KernelProbe.Session

open Mi Program

variable {c : Config} {g n q : Nat} {h : List Round} {i i' : Instance} {log : Log surroundings}

/-! ## The worker -/

/-- Whether a message of the worker is a request. -/
def WorkerMessage.isRequest : WorkerMessage → Bool
  | .request _ => true
  | _ => false

/-- Whether the worker waits for an answer. -/
def Thread.waits (t : Thread) : Bool :=
  t.state.isRight

/-- A program of the worker makes at most one request, and then it waits. -/
theorem Thread.countP_advance (w : Work) (commands : Debugger.Registry) :
    (advance w commands).1.countP WorkerMessage.isRequest =
      (advance w commands).2.2.isRight.toNat := by
  -- A program goes on by itself behind everything but a request, at which it stops.
  induction w generalizing commands with
  | done r =>
    obtain ⟨w, completion⟩ := r
    cases completion <;> rfl
  | call m next ih =>
    cases m with
    | request command => rfl
    | console line => exact (List.countP_cons_of_neg Bool.false_ne_true).trans (ih () commands)
    | register name handler => exact ih () _

/-- A worker that takes its events makes at most one request, and then it waits. -/
theorem Thread.countP_work (commands : Debugger.Registry)
    (state : Worker ⊕ (String × (Except Debugger.Error Record → Work)))
    (mailbox : List WorkerEvent) :
    (work commands state mailbox).1.countP WorkerMessage.isRequest + state.isRight.toNat =
      (work commands state mailbox).2.waits.toNat := by
  -- A worker that waits leaves the mailbox alone, so the event at which it comes to wait is
  -- the last one that it takes.
  induction mailbox generalizing commands state with
  | nil => exact Nat.zero_add _
  | cons e mailbox ih =>
    cases state with
    | inr waiting => rfl
    | inl w =>
      have h₁ := countP_advance (w.react commands e) commands
      rw [work]
      generalize advance (w.react commands e) commands = first at h₁ ⊢
      obtain ⟨sent, commands', state'⟩ := first
      have h₂ := ih commands' state'
      dsimp only [Sum.isRight_inl, Bool.toNat_false] at h₁ ⊢
      rw [List.countP_append]
      omega

theorem Thread.countP_notify (t : Thread) (e : WorkerEvent) :
    (t.notify e).1.countP WorkerMessage.isRequest + t.waits.toNat =
      (t.notify e).2.waits.toNat :=
  countP_work _ _ _

theorem Thread.countP_answer {t : Thread} (ht : t.waits = true) (record : Option Record) :
    (t.answer record).1.countP WorkerMessage.isRequest = (t.answer record).2.waits.toNat := by
  obtain ⟨commands, state, mailbox⟩ := t
  cases state with
  | inl w => cases ht
  | inr waiting =>
    obtain ⟨command, next⟩ := waiting
    rw [answer]
    dsimp only
    have h₁ := countP_advance (next (record.elim (.error (.noReply command)) .ok)) commands
    generalize advance _ commands = first at h₁ ⊢
    obtain ⟨sent, commands', state'⟩ := first
    rw [List.countP_append, h₁, Nat.add_comm]
    exact countP_work _ _ _

/-- A worker and its messages on the way to the control loop. -/
structure WorkerSide where
  worker : Thread
  /-- The messages that the control loop has not taken, oldest first. -/
  outbox : List Event
  /-- The number of requests made so far. -/
  made : Nat

/-- A message of the worker as an event; a request with the number that tells it from others. -/
def WorkerMessage.event (g requester : Nat) : WorkerMessage → Event
  | .request command => .automationRequest g command requester
  | .output line => .automationOutput g line
  | .finished completion => .automationDone g completion

namespace WorkerSide

/-- The worker sends a message. -/
def send (g : Nat) (s : WorkerSide) (m : WorkerMessage) : WorkerSide :=
  { s with outbox := s.outbox ++ [m.event g s.made], made := s.made + m.isRequest.toNat }

/-- The worker has sent messages and is now in another state. -/
def goOn (g : Nat) (s : WorkerSide) (r : List WorkerMessage × Thread) : WorkerSide :=
  r.1.foldl (send g) { s with worker := r.2 }

/-- What an action of the control loop does to the worker: it is told an event, or gets the
    answer to its last request. -/
def hear (g : Nat) (s : WorkerSide) (e : Exchange surroundings) : WorkerSide :=
  match e.call with
  | .notify event => s.goOn g (s.worker.notify event)
  | .reply requester record =>
    if requester + 1 = s.made then s.goOn g (s.worker.answer record) else s
  | _ => s

end WorkerSide

/-- The event is a line of the debugger or of the operator. -/
def IsForeign (g : Nat) : Event → Prop
  | .debuggerLine g' _ => g' = g
  | .input _ => True
  | _ => False

/-- A run of a debugger together with its worker. -/
inductive Joint (c : Config) (g : Nat) : List Round → Instance → WorkerSide → Prop
  | init {config} : c.automation = some config → Joint c g [] (.new c g) ⟨.new config, [], 0⟩
  /-- The control loop takes the oldest message of the worker. -/
  | message {h : List Round} {i i' : Instance} {s : WorkerSide} {e : Event}
      {outbox : List Event} {log : Log surroundings} :
      Joint c g h i s → s.outbox = e :: outbox → Path (i.onEvent c e) log (i', none) →
      Joint c g (h ++ [⟨e, log⟩]) i' (log.foldl (WorkerSide.hear g) { s with outbox })
  /-- A line of the debugger or of the operator comes. -/
  | foreign {h : List Round} {i i' : Instance} {s : WorkerSide} {e : Event}
      {log : Log surroundings} :
      Joint c g h i s → IsForeign g e → Path (i.onEvent c e) log (i', none) →
      Joint c g (h ++ [⟨e, log⟩]) i' (log.foldl (WorkerSide.hear g) s)

/-! ## One request at a time -/

/-- The requests of the worker that are on the way to the control loop. -/
def WorkerSide.requested (s : WorkerSide) : List Nat :=
  s.outbox.filterMap Event.requester?

/-- A worker has a request outstanding exactly while it waits, and then only its last one. -/
structure Alone (outstanding : List Nat) (t : Thread) (made : Nat) : Prop where
  length : outstanding.length = t.waits.toNat
  last : ∀ q ∈ outstanding, q + 1 = made

theorem Alone.perm {l l' : List Nat} {t : Thread} {made : Nat} (ha : Alone l t made)
    (hp : l.Perm l') : Alone l' t made :=
  ⟨hp.length_eq.symm.trans ha.length, fun q hq => ha.last q (hp.mem_iff.2 hq)⟩

/-- A request that is outstanding is the only one. -/
theorem Alone.only {l : List Nat} {t : Thread} {made : Nat} (ha : Alone (q :: l) t made) :
    l = [] ∧ t.waits = true ∧ q + 1 = made := by
  have hl := ha.length
  have hw : t.waits.toNat ≤ 1 := Bool.toNat_le _
  rw [List.length_cons] at hl
  refine ⟨List.eq_nil_of_length_eq_zero (by omega), ?_, ha.last q List.mem_cons_self⟩
  rw [← Bool.toNat_eq_one]
  omega

@[simp]
theorem WorkerMessage.requester?_event (m : WorkerMessage) :
    (m.event g q).requester? = if m.isRequest then some q else none := by
  cases m <;> rfl

theorem WorkerMessage.concerns_event (m : WorkerMessage) : Concerns g (m.event g q) := by
  cases m <;> rfl

namespace WorkerSide

variable {s : WorkerSide} {before pending : List Nat}

/-- Messages of the worker add their requests, under the next numbers. -/
theorem requested_foldl_send (sent : List WorkerMessage) :
    (sent.foldl (send g) s).requested =
        s.requested ++ List.range' s.made (sent.countP WorkerMessage.isRequest) ∧
      (sent.foldl (send g) s).made = s.made + sent.countP WorkerMessage.isRequest ∧
      (sent.foldl (send g) s).worker = s.worker := by
  induction sent generalizing s with
  | nil => simp
  | cons m sent ih =>
    obtain ⟨h₁, h₂, h₃⟩ := ih (s := s.send g m)
    rw [List.foldl_cons, h₁, h₂, h₃, List.countP_cons]
    cases hm : m.isRequest
    · simp [send, requested, hm]
    · simp [send, requested, hm, List.range'_succ, Nat.add_comm, Nat.add_left_comm]

theorem concerns_foldl_send (sent : List WorkerMessage) (hc : ∀ e ∈ s.outbox, Concerns g e) :
    ∀ e ∈ (sent.foldl (send g) s).outbox, Concerns g e := by
  induction sent generalizing s with
  | nil => exact hc
  | cons m sent ih =>
    refine ih (List.forall_mem_append.2 ⟨hc, ?_⟩)
    rw [List.forall_mem_singleton]
    exact m.concerns_event

variable {r : List WorkerMessage × Thread}

theorem requested_goOn : (s.goOn g r).requested =
    s.requested ++ List.range' s.made (r.1.countP WorkerMessage.isRequest) :=
  (requested_foldl_send r.1).1

theorem made_goOn : (s.goOn g r).made = s.made + r.1.countP WorkerMessage.isRequest :=
  (requested_foldl_send r.1).2.1

theorem worker_goOn : (s.goOn g r).worker = r.2 :=
  (requested_foldl_send r.1).2.2

/-- The requests have gone out under consecutive numbers, those in `before` first, and all
    messages are for the debugger of a generation. -/
structure Orderly (g : Nat) (before : List Nat) (s : WorkerSide) : Prop where
  numbered : before ++ s.requested = List.range s.made
  concerns : ∀ e ∈ s.outbox, Concerns g e

theorem Orderly.goOn (ho : Orderly g before s) : Orderly g before (s.goOn g r) where
  numbered := by
    rw [requested_goOn, made_goOn, ← List.append_assoc, ho.numbered, List.range_eq_range',
      List.range_eq_range', ← List.range'_append_1, Nat.zero_add]
  concerns := concerns_foldl_send r.1 ho.concerns

theorem Orderly.hear (ho : Orderly g before s) (e : Exchange surroundings) :
    Orderly g before (s.hear g e) := by
  unfold WorkerSide.hear
  split
  · exact ho.goOn
  · split
    · exact ho.goOn
    · exact ho
  · exact ho

theorem Orderly.hearAll (ho : Orderly g before s) (log : Log surroundings) :
    Orderly g before (log.foldl (WorkerSide.hear g) s) := by
  induction log generalizing s with
  | nil => exact ho
  | cons e log ih => exact ih (ho.hear e)

/-- Whether the requests of `pending` and those on the way are at most one in all. -/
abbrev IsAlone (pending : List Nat) (s : WorkerSide) : Prop :=
  Alone (s.requested ++ pending) s.worker s.made

/-- What the worker sends leaves it alone: it sends no second request before the answer. -/
theorem isAlone_goOn
    (hl : (s.requested ++ pending).length + r.1.countP WorkerMessage.isRequest = r.2.waits.toNat)
    (hq : ∀ q ∈ s.requested ++ pending, q + 1 = s.made) : IsAlone pending (s.goOn g r) := by
  have hw : r.2.waits.toNat ≤ 1 := Bool.toNat_le _
  unfold IsAlone
  rw [requested_goOn, made_goOn, worker_goOn]
  generalize r.1.countP WorkerMessage.isRequest = k at hl ⊢
  constructor
  · rw [← hl]
    simp only [List.length_append, List.length_range']
    omega
  · intro q hm
    rcases Nat.eq_zero_or_pos k with rfl | hk
    · rw [List.range'_zero, List.append_nil] at hm
      exact hq q hm
    · -- The worker waits now, so that no other request is outstanding.
      obtain rfl : k = 1 := by omega
      have hn : s.requested ++ pending = [] := List.eq_nil_of_length_eq_zero (by omega)
      rw [List.append_eq_nil_iff] at hn
      rw [hn.1, hn.2, List.nil_append, List.append_nil, List.range'_one,
        List.mem_singleton] at hm
      rw [hm]

theorem IsAlone.tell (ha : IsAlone pending s) (e : WorkerEvent) :
    IsAlone pending (s.hear g ⟨.notify e, ()⟩) := by
  refine isAlone_goOn ?_ ha.last
  rw [ha.length, Nat.add_comm]
  exact s.worker.countP_notify e

/-- The answer to its only request lets the worker go on. -/
theorem isAlone_reply {record : Option Record} (hn : s.requested ++ pending = [])
    (hw : s.worker.waits = true) (hq : q + 1 = s.made) :
    IsAlone pending (s.hear g ⟨.reply q record, ()⟩) := by
  have hs : s.hear g ⟨.reply q record, ()⟩ = s.goOn g (s.worker.answer record) := if_pos hq
  rw [hs]
  refine isAlone_goOn ?_ (by simp [hn])
  rw [hn, List.length_nil, Nat.zero_add]
  exact Thread.countP_answer hw record

/-- Without an answer, the worker makes no request while one is outstanding. -/
theorem IsAlone.hearAll (ha : IsAlone pending s) (hr : replies log = []) :
    IsAlone pending (log.foldl (WorkerSide.hear g) s) := by
  induction log generalizing s with
  | nil => exact ha
  | cons e log ih =>
    obtain ⟨call, answer⟩ := e
    cases call with
    | notify event => exact ih (ha.tell event) hr
    | reply q record => cases hr
    | _ => exact ih ha hr

/-- A round leaves the worker alone with its last request. -/
theorem isAlone_of_reaction {e : Event} (ht : Tracks c g h i) (hr : i.Reaction c e log i')
    (ha : Alone (e.requester?.toList ++ s.requested ++ i.pending.values) s.worker s.made) :
    IsAlone i'.pending.values (log.foldl (WorkerSide.hear g) s) := by
  -- The request that is outstanding is the one of the event, one on the way, or an entry. Only
  -- an answer lets the worker go on, and then none of the three is left.
  cases hr with
  | @written _ _ q =>
    have hp : ([q] ++ s.requested ++ i.pending.values).Perm
        (s.requested ++ (i.pending.values ++ [q])) := by
      rw [List.append_assoc, ← List.append_assoc s.requested]
      exact List.perm_append_comm
    rw [Dict.values_insert ht.find?_nextToken]
    exact ha.perm hp
  | refused _ =>
    rw [List.append_assoc] at ha
    obtain ⟨hn, hw, hq⟩ := ha.only
    exact isAlone_reply hn hw hq
  | @answered _ _ _ token q hl hk hf =>
    have hp := (ht.distinct.perm_values_erase hf).append_left s.requested
    obtain ⟨hn, hw, hq⟩ := (ha.perm (hp.trans List.perm_middle)).only
    exact isAlone_reply hn hw hq
  | shown hn hs => exact IsAlone.hearAll ha (replies_shown hs)
  | sent hs => exact IsAlone.hearAll ha (replies_of_sends hs)
  | passedOn => exact IsAlone.hearAll ha rfl
  | output _ => exact IsAlone.hearAll ha rfl
  | finished _ => exact IsAlone.hearAll ha rfl

end WorkerSide

namespace Joint

variable {s : WorkerSide}

/-- A debugger with its worker is a run of the debugger, in which the worker is alone with its
    last request. -/
theorem run (hj : Joint c g h i s) :
    Run c g h i ∧ s.Orderly g (requesters h) ∧ s.IsAlone i.pending.values := by
  induction hj with
  | init hc => exact ⟨.init (by rw [hc]; rfl), ⟨rfl, by simp⟩, ⟨rfl, by simp [WorkerSide.requested,
      Instance.new, Dict.empty, Dict.values]⟩⟩
  | @message h i i' s e outbox log _ hs hp ih =>
    obtain ⟨hr, ho, ha⟩ := ih
    have he : Concerns g e := ho.concerns e (by rw [hs]; exact List.mem_cons_self)
    -- The oldest message leaves the outbox, and with it the request, if it is one.
    have hq : s.requested = e.requester?.toList ++ WorkerSide.requested { s with outbox } := by
      rw [WorkerSide.requested, hs, WorkerSide.requested]
      cases hq : e.requester? <;> simp [hq]
    refine ⟨hr.step he hp, WorkerSide.Orderly.hearAll ⟨?_, fun e' he' => ?_⟩ log,
      WorkerSide.isAlone_of_reaction hr.tracks (hr.tracks.reaction he hp).2 ?_⟩
    · rw [requesters_concat, List.append_assoc]
      exact hq ▸ ho.numbered
    · exact ho.concerns e' (by rw [hs]; exact List.mem_cons_of_mem _ he')
    · exact hq ▸ ha
  | @foreign h i i' s e log _ hf hp ih =>
    obtain ⟨hr, ho, ha⟩ := ih
    have he : Concerns g e ∧ e.requester? = none := by
      cases e <;> first | exact hf.elim | exact ⟨hf, rfl⟩
    refine ⟨hr.step he.1 hp, WorkerSide.Orderly.hearAll ⟨?_, ho.concerns⟩ log,
      WorkerSide.isAlone_of_reaction hr.tracks (hr.tracks.reaction he.1 hp).2 ?_⟩
    · rw [requesters_concat, Round.requester?, he.2]
      simpa using ho.numbered
    · rw [he.2]
      exact ha

end Joint

/-- In every run, what is done at each event follows from the rounds before it: the `n`-th
    request has the `n`-th token, a line is withheld exactly if it is a result record with the
    token of an open request, whose requester gets it, and any other line is shown once, in its
    place, and is all that the multiplexer and the worker hear of. No requester gets more answers
    than it made requests. A debugger with one worker has at most one request outstanding, and
    all its requests are told apart. -/
theorem requests_and_lines (c : Config) (g : Nat) :
    (∀ h i, Run c g h i →
      (∀ before r after, h = before ++ r :: after → Follows c before r.event r.log) ∧
      forwards (h.flatMap Round.log) = h.flatMap Round.shows ∧
      i.mux = muxAfter c h ∧
      ∀ q, (answers h).countP (·.1 = q) ≤ (requesters h).count q) ∧
    ∀ h i s, Joint c g h i s →
      Run c g h i ∧ (requesters h).Nodup ∧
      (∀ q, (answers h).countP (·.1 = q) ≤ 1) ∧
      s.requested.length + i.pending.size ≤ 1 ∧
      ∀ n q n' q', Open h n q → Open h n' q' → n = n' ∧ q = q' := by
  refine ⟨fun h i hr => ⟨fun before r after hs => hr.follows hs, hr.forwards_eq, hr.tracks.mux,
    hr.tracks.countP_answers_le⟩, fun h i s hj => ?_⟩
  obtain ⟨hr, ho, ha⟩ := hj.run
  have hn : (requesters h ++ s.requested).Nodup := ho.numbered ▸ List.nodup_range
  have hl : s.requested.length + i.pending.size ≤ 1 := by
    have hw : (s.requested ++ i.pending.values).length ≤ 1 := by
      rw [ha.length]
      exact Bool.toNat_le _
    rwa [List.length_append, Dict.values, List.length_map] at hw
  refine ⟨hr, hn.of_append_left, fun q => ?_, hl, fun n q n' q' => hr.tracks.open_unique ?_⟩
  · have h₁ := List.nodup_iff_count_le_one.1 hn.of_append_left q
    exact Nat.le_trans (hr.tracks.countP_answers_le q) h₁
  · exact Nat.le_trans (Nat.le_add_left _ _) hl

end KernelProbe.Session
