import KernelProbe.Proofs.Session.Transcript

/-!
# Events of other debuggers

When a debugger has ended, lines of its streams and messages of its worker may still wait in the
queue, and the debugger that is started next takes them. They are *stray*: of another generation
than the debugger of the moment.

A stray event is as good as none. A course of steps with stray events is the course without them,
with the same debugger in the same state at every other step and at the end, and stray events can
come in wherever a debugger runs. The one thing that is done at them is that a stray request is
told that there will be no answer.

* `path_onEvent_stray` and `eq_strayStep`: what is done at a stray event;
* `Steps.withoutStrays` and `Steps.insert`: stray events taken out of a course, and put into it;
* `strays_change_nothing`: the two courses, and all that is seen of them.
-/

namespace KernelProbe.Session

open Mi Program

variable {c : Config} {i i' : Instance} {e : Event} {g : Nat} {log : Log surroundings}
  {phase phase' : Phase} {advances before after : List Advance}

/-- The event is of a debugger, and not of the one of a generation. -/
def IsStray (g : Nat) : Event → Prop
  | .debuggerLine g' _ | .debuggerClosed g' | .automationRequest g' _ _ | .automationOutput g' _
  | .automationDone g' _ => g' ≠ g
  | .input _ | .inputClosed => False

instance (g : Nat) : DecidablePred (IsStray g)
  | .debuggerLine g' _ | .debuggerClosed g' | .automationRequest g' _ _ | .automationOutput g' _
  | .automationDone g' _ => inferInstanceAs (Decidable (g' ≠ g))
  | .input _ | .inputClosed => .isFalse id

/-- What is done at a stray event: a request is told that there will be no answer. -/
def strayActions : Event → Log surroundings
  | .automationRequest _ _ requester => [⟨.reply requester none, ()⟩]
  | _ => []

/-- A step that takes an event with a debugger for which it is stray. -/
def strayStep (i : Instance) (e : Event) : Advance :=
  ⟨.running i, ⟨.awaitEvent, .event e⟩ :: (strayActions e).map ofControl⟩

/-- Whether a step takes a stray event. -/
def Advance.isStray (a : Advance) : Bool :=
  match a.phase with
  | .running i => (awaited a.log).any fun e => IsStray i.generation e
  | _ => false

/-- The steps that take no stray events. -/
def withoutStrays (advances : List Advance) : List Advance :=
  advances.filter (!·.isStray)

/-- All that the control loop does in a course of steps, in order. -/
def doneIn (advances : List Advance) : Log surroundings :=
  advances.flatMap fun a => actions a.log

/-! ## One stray event -/

theorem path_onEvent_stray (he : IsStray i.generation e) {r : Instance × Option InstanceEnd} :
    Path (i.onEvent c e) log r ↔ log = strayActions e ∧ r = (i, none) := by
  cases e with
  | automationRequest g command requester =>
    rw [Instance.onEvent, if_neg he]
    refine path_bind_done.trans ?_
    constructor
    · rintro ⟨_, h, rfl⟩
      exact ⟨path_ask.1 h, rfl⟩
    · rintro ⟨rfl, rfl⟩
      exact ⟨(), path_ask.2 rfl, rfl⟩
  | input _ | inputClosed => exact he.elim
  | _ =>
    rw [Instance.onEvent, if_neg he]
    exact path_done

/-- With a debugger, a session takes one event in a step at most, and before all else. -/
theorem awaited_of_path {e : Event} {rest : Log system}
    (hp : Path (step c (.running i)) (⟨.awaitEvent, .event e⟩ :: rest) phase') :
    awaited (⟨.awaitEvent, .event e⟩ :: rest) = [e] := by
  have first : (awaited (⟨.awaitEvent, .event e⟩ :: rest)).head? = some e := rfl
  cases path_step_running hp with
  | goesOn hw _ | leaves hw _ _ _ _ =>
    rw [hw] at first ⊢
    rw [Option.some.inj first]
  | interrupted hw _ =>
    rw [hw] at first
    cases first

/-- A step that takes a stray event leaves the session as it is. -/
theorem eq_strayStep {log : Log system} (hp : Path (step c phase) log phase')
    (hs : Advance.isStray ⟨phase, log⟩ = true) :
    phase' = phase ∧ ∃ i e, IsStray i.generation e ∧ ⟨phase, log⟩ = strayStep i e := by
  cases phase with
  | running i =>
    obtain ⟨stimulus, rest, rfl, h⟩ := path_ask_bind.1 hp
    cases stimulus with
    | interrupt =>
      obtain ⟨_, h, -⟩ := path_bind_done.1 h
      rw [path_endDebugger h] at hs
      cases hs
    | event e =>
      have he : IsStray i.generation e := by
        dsimp only [Advance.isStray] at hs
        rw [awaited_of_path hp, List.any_cons, List.any_nil, Bool.or_false] at hs
        exact of_decide_eq_true hs
      obtain ⟨first, r, second, h₁, h₂, rfl⟩ := path_bind.1 h
      obtain ⟨done, hd, rfl⟩ := path_control.1 h₁
      obtain ⟨rfl, rfl⟩ := (path_onEvent_stray he).1 hd
      obtain ⟨rfl, rfl⟩ := path_done.1 h₂
      rw [List.append_nil]
      exact ⟨rfl, i, e, he, rfl⟩
  | _ => cases hs

/-- Wherever a debugger runs, a stray event can be taken. -/
theorem path_strayStep (he : IsStray i.generation e) :
    Path (step c (.running i)) (strayStep i e).log (.running i) :=
  path_step_of_path ((path_onEvent_stray he).2 ⟨rfl, rfl⟩)

theorem actions_strayStep (i : Instance) (e : Event) :
    actions (strayStep i e).log = strayActions e :=
  actions_ofControl _

/-! ## Courses of steps -/

namespace Steps

theorem append (h : Steps c phase before phase') {next : Phase} (h' : Steps c phase' after next) :
    Steps c phase (before ++ after) next := by
  induction h with
  | refl _ => exact h'
  | step hp _ ih => exact .step hp (ih h')

/-- A stray event can come in wherever a debugger runs. -/
theorem insert (hb : Steps c phase before (.running i)) (ha : Steps c (.running i) after phase')
    (he : IsStray i.generation e) : Steps c phase (before ++ strayStep i e :: after) phase' :=
  hb.append (.step (path_strayStep he) ha)

/-- A course goes on without its stray events as it does with them. -/
theorem withoutStrays (hs : Steps c phase advances phase') :
    Steps c phase (withoutStrays advances) phase' := by
  induction hs with
  | refl p => exact .refl p
  | @step p p' q log advances hp _ ih =>
    unfold Session.withoutStrays at ih ⊢
    rw [List.filter_cons]
    cases hs : Advance.isStray ⟨p, log⟩ with
    | true =>
      -- The step leads back to the phase that it was taken in.
      obtain ⟨rfl, -⟩ := eq_strayStep hp hs
      exact ih
    | false => exact .step hp ih

theorem eq_strayStep (hs : Steps c phase advances phase') {a : Advance} (ha : a ∈ advances)
    (h : a.isStray = true) : ∃ i e, IsStray i.generation e ∧ a = strayStep i e := by
  obtain ⟨_, hp⟩ := hs.path a ha
  exact (Session.eq_strayStep hp h).2

/-- Who does not see which requests are told that there will be no answer sees the same of both
    courses. -/
theorem filterMap_doneIn {α : Type} {f : Exchange surroundings → Option α}
    (hf : ∀ requester, f ⟨.reply requester none, ()⟩ = none)
    (hs : Steps c phase advances phase') :
    (doneIn (Session.withoutStrays advances)).filterMap f = (doneIn advances).filterMap f := by
  induction hs with
  | refl _ => rfl
  | @step p p' q log advances hp _ ih =>
    have hall : doneIn (⟨p, log⟩ :: advances) = actions log ++ doneIn advances := List.flatMap_cons
    rw [hall, List.filterMap_append, ← ih, Session.withoutStrays, List.filter_cons]
    cases hs : Advance.isStray ⟨p, log⟩ with
    | true =>
      obtain ⟨-, i, e, -, ha⟩ := Session.eq_strayStep hp hs
      have hl : actions log = strayActions e :=
        (congrArg (fun a => actions (Advance.log a)) ha).trans (actions_strayStep i e)
      have hn : (strayActions e).filterMap f = [] := by
        cases e with
        | automationRequest _ _ requester => exact List.filterMap_cons_none (hf requester)
        | _ => rfl
      rw [hl, hn]
      rfl
    | false => exact List.filterMap_append

end Steps

theorem replies_strayActions (e : Event) : ∀ r ∈ replies (strayActions e), r.2 = none := by
  cases e with
  | automationRequest _ _ requester => exact List.forall_mem_singleton.2 rfl
  | _ => exact fun r hr => absurd hr List.not_mem_nil

/-- A course of steps with stray events leads where it leads without them, through the same states
    of the same debuggers, and the same is written to the debugger, shown to the operator, recorded
    and told to the worker. A stray request gets no record. And to any course, wherever a debugger
    runs, any event that is stray for it can be added. -/
theorem strays_change_nothing (c : Config) (phase : Phase) :
    (∀ advances phase', Steps c phase advances phase' →
      Steps c phase (withoutStrays advances) phase' ∧
      (writes (doneIn (withoutStrays advances)) = writes (doneIn advances) ∧
        forwards (doneIn (withoutStrays advances)) = forwards (doneIn advances) ∧
        entries (doneIn (withoutStrays advances)) = entries (doneIn advances) ∧
        notices (doneIn (withoutStrays advances)) = notices (doneIn advances)) ∧
      ∀ a ∈ advances, a.isStray = true →
        (∃ i e, IsStray i.generation e ∧ a = strayStep i e) ∧
          ∀ r ∈ replies (actions a.log), r.2 = none) ∧
    ∀ before i after phase' e, Steps c phase before (.running i) →
      Steps c (.running i) after phase' → IsStray i.generation e →
      Steps c phase (before ++ strayStep i e :: after) phase' := by
  refine ⟨fun advances phase' hs => ⟨hs.withoutStrays, ?_, fun a ha hn => ?_⟩,
    fun before i after phase' e hb ha he => hb.insert ha he⟩
  · exact ⟨hs.filterMap_doneIn fun _ => rfl, hs.filterMap_doneIn fun _ => rfl,
      hs.filterMap_doneIn fun _ => rfl, hs.filterMap_doneIn fun _ => rfl⟩
  · obtain ⟨i, e, he, rfl⟩ := hs.eq_strayStep ha hn
    refine ⟨⟨i, e, he, rfl⟩, ?_⟩
    rw [actions_strayStep]
    exact replies_strayActions e

/-- The end of the last debugger's output, and then a request of its worker, come before the first
    line of the next debugger. -/
theorem strays_change_nothing_restart :
    let c : Config := { root := "/", debugger := ["gdb"], automation := some {} }
    let i := Instance.new c 2
    ∃ advances i', Steps c (.running i) advances (.running i') ∧
      (advances.flatMap fun a => awaited a.log) = [.debuggerClosed 1,
        .automationRequest 1 "-exec-continue" 7, .debuggerLine 2 "ok"] ∧
      ((withoutStrays advances).flatMap fun a => awaited a.log) = [.debuggerLine 2 "ok"] ∧
      Steps c (.running i) (withoutStrays advances) (.running i') := by
  intro c i
  let i' := { i with mux := (i.mux.observe "ok").2 }
  let shown : Log surroundings :=
    ⟨.forward "ok", ()⟩ :: ⟨.log (.output "ok"), ()⟩ :: ([] ++ tellings (i.heard "ok"))
  have hl : Path (i.onLine c "ok") shown i' := by
    have silent : (i.mux.observe "ok").1 = [] := by decide +kernel
    have unread : i.record? "ok" = none := by decide +kernel
    refine Instance.path_onLine.2 (.inr ⟨fun r token hr => ?_, Instance.path_onOtherLine.2
      ⟨[], ?_, rfl, rfl⟩⟩)
    · rw [unread] at hr
      cases hr
    · rw [silent]
      exact .done _
  have line : Steps c (.running i) [_] (.running i') :=
    .step (path_step_of_path (e := .debuggerLine 2 "ok") (path_bind_done.2 ⟨_, hl, rfl⟩)) (.refl _)
  obtain ⟨taken, put⟩ := strays_change_nothing c (.running i)
  have request := put [] i _ _ (.automationRequest 1 "-exec-continue" 7) (.refl _) line nofun
  have both := put [] i _ _ (.debuggerClosed 1) (.refl _) request nofun
  exact ⟨_, i', both, by decide +kernel, by decide +kernel, (taken _ _ both).1⟩

end KernelProbe.Session
