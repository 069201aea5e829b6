import KernelProbe.Interaction.Program

/-!
# Paths of programs

A path of a program is one way in which its surroundings may carry it out: the calls with the
answers they got, in order, and the result. What holds on all paths holds whatever the
surroundings answer.

* `path_bind`: a path of one program behind another is a path of the first, then one of the
  second;
* `path_run`: surroundings with a state carry a program out along one of its paths;
* `Only`: all calls of a program are of one kind, whatever they are answered;
* `Reaches`: a program in the middle of a path, with what is left of it.
-/

namespace KernelProbe

/-- A call and the answer that it got. -/
structure Exchange (I : Interface) where
  call : I.Call
  answer : I.Answer call

/-- Calls with their answers, oldest first. -/
abbrev Log (I : Interface) := List (Exchange I)

namespace Program

variable {I : Interface} {α β σ : Type}

/-- A way to carry a program out: the calls with their answers, and the result. -/
inductive Path : Program I α → Log I → α → Prop
  | done (a : α) : Path (.done a) [] a
  | call {c : I.Call} {next : I.Answer c → Program I α} {log : Log I} {a : α}
      (r : I.Answer c) : Path (next r) log a → Path (.call c next) (⟨c, r⟩ :: log) a

@[simp]
theorem path_done {a b : α} {log : Log I} : Path (.done a) log b ↔ log = [] ∧ b = a := by
  constructor
  · rintro ⟨⟩
    exact ⟨rfl, rfl⟩
  · rintro ⟨rfl, rfl⟩
    exact .done _

@[simp]
theorem path_call {c : I.Call} {next : I.Answer c → Program I α} {log : Log I} {a : α} :
    Path (.call c next) log a ↔ ∃ r rest, log = ⟨c, r⟩ :: rest ∧ Path (next r) rest a := by
  constructor
  · rintro (_ | ⟨r, h⟩)
    exact ⟨r, _, rfl, h⟩
  · rintro ⟨r, rest, rfl, h⟩
    exact .call r h

theorem path_ask {c : I.Call} {log : Log I} {r : I.Answer c} :
    Path (.ask I c) log r ↔ log = [⟨c, r⟩] := by
  constructor
  · rintro (_ | ⟨_, _ | _⟩)
    rfl
  · rintro rfl
    exact .call r (.done r)

theorem path_bind {p : Program I α} {f : α → Program I β} {log : Log I} {b : β} :
    Path (bind p f) log b ↔
      ∃ first a second, Path p first a ∧ Path (f a) second b ∧ log = first ++ second := by
  induction p generalizing log with
  | done a =>
    constructor
    · intro h
      exact ⟨[], a, log, .done a, h, rfl⟩
    · rintro ⟨_, _, second, ⟨⟩, hf, rfl⟩
      exact hf
  | call c next ih =>
    constructor
    · rintro (_ | ⟨r, h⟩)
      obtain ⟨first, a, second, hp, hf, rfl⟩ := (ih r).1 h
      exact ⟨_, a, second, .call r hp, hf, rfl⟩
    · rintro ⟨_, a, second, _ | ⟨r, hp⟩, hf, rfl⟩
      exact .call r ((ih r).2 ⟨_, a, second, hp, hf, rfl⟩)

/-- The path of a call and what follows its answer. -/
theorem path_ask_bind {c : I.Call} {f : I.Answer c → Program I β} {log : Log I} {b : β} :
    Path (bind (.ask I c) f) log b ↔
      ∃ r rest, log = ⟨c, r⟩ :: rest ∧ Path (f r) rest b :=
  path_call

/-- The path of a program whose result is only looked at. -/
theorem path_bind_done {p : Program I α} {f : α → β} {log : Log I} {b : β} :
    Path (bind p fun a => .done (f a)) log b ↔ ∃ a, Path p log a ∧ b = f a := by
  rw [path_bind]
  constructor
  · rintro ⟨first, a, _, hp, ⟨⟩, rfl⟩
    exact ⟨a, by rwa [List.append_nil], rfl⟩
  · rintro ⟨a, hp, rfl⟩
    exact ⟨log, a, [], hp, .done _, by rw [List.append_nil]⟩

/-- The calls that surroundings with a state are asked for, with their answers. -/
def trace (answer : (c : I.Call) → σ → I.Answer c × σ) : Program I α → σ → Log I
  | .done _, _ => []
  | .call c next, s => ⟨c, (answer c s).1⟩ :: trace answer (next (answer c s).1) (answer c s).2

/-- Surroundings with a state carry a program out along one of its paths. -/
theorem path_run (answer : (c : I.Call) → σ → I.Answer c × σ) (p : Program I α) (s : σ) :
    Path p (trace answer p s) (run answer p s).1 := by
  induction p generalizing s with
  | done a => exact .done a
  | call c next ih => exact .call _ (ih _ _)

theorem trace_bind (answer : (c : I.Call) → σ → I.Answer c × σ) (p : Program I α)
    (f : α → Program I β) (s : σ) : trace answer (bind p f) s =
      trace answer p s ++ trace answer (f (run answer p s).1) (run answer p s).2 := by
  induction p generalizing s with
  | done a => rfl
  | call c next ih => rw [call_bind, trace, trace, ih, List.cons_append, run]

/-- What is answered to a call is what the surroundings answer in some state. -/
theorem answer_of_mem_trace {answer : (c : I.Call) → σ → I.Answer c × σ} {p : Program I α} {s : σ}
    {e : Exchange I} (he : e ∈ trace answer p s) : ∃ s', e.answer = (answer e.call s').1 := by
  induction p generalizing s with
  | done a => exact absurd he List.not_mem_nil
  | call c next ih =>
    rcases List.mem_cons.1 he with rfl | he
    · exact ⟨s, rfl⟩
    · exact ih _ he

/-- A program is carried out by any answers. -/
theorem exists_path (answer : (c : I.Call) → I.Answer c) (p : Program I α) :
    ∃ log a, Path p log a :=
  ⟨_, _, path_run (fun c (_ : Unit) => (answer c, ())) p ()⟩

theorem substitute_bind {J : Interface} (meaning : (c : I.Call) → Program J (I.Answer c))
    (p : Program I α) (f : α → Program I β) :
    substitute meaning (bind p f) =
      bind (substitute meaning p) fun a => substitute meaning (f a) := by
  induction p with
  | done a => rfl
  | call c next ih =>
    rw [call_bind, substitute, substitute, bind_assoc]
    exact congrArg (bind (meaning c)) (funext fun r => ih r)

/-- All calls of a program are of one kind. -/
def Only (P : I.Call → Prop) (p : Program I α) : Prop :=
  ∀ ⦃log a⦄, Path p log a → ∀ e ∈ log, P e.call

theorem Only.mono {P Q : I.Call → Prop} {p : Program I α} (hp : Only P p) (h : ∀ c, P c → Q c) :
    Only Q p :=
  fun _ _ hpath e he => h _ (hp hpath e he)

theorem Only.done {P : I.Call → Prop} (a : α) : Only P (.done a : Program I α) := by
  intro log b h e he
  obtain ⟨rfl, -⟩ := path_done.1 h
  exact absurd he List.not_mem_nil

theorem Only.ask {P : I.Call → Prop} {c : I.Call} (hc : P c) : Only P (.ask I c) := by
  intro log r h e he
  rw [path_ask.1 h, List.mem_singleton] at he
  exact he ▸ hc

theorem Only.bind {P : I.Call → Prop} {p : Program I α} {f : α → Program I β}
    (hp : Only P p) (hf : ∀ a, Only P (f a)) : Only P (bind p f) := by
  intro log b h e he
  obtain ⟨first, a, second, h₁, h₂, rfl⟩ := path_bind.1 h
  rcases List.mem_append.1 he with he | he
  · exact hp h₁ e he
  · exact hf a h₂ e he

/-! ## The middle of a path -/

/-- The beginning of a way to carry a program out: the calls with their answers, and what is left
    of the program. -/
inductive Reaches : Program I α → Log I → Program I α → Prop
  | refl (p : Program I α) : Reaches p [] p
  | call {c : I.Call} {next : I.Answer c → Program I α} {log : Log I} {q : Program I α}
      (r : I.Answer c) : Reaches (next r) log q → Reaches (.call c next) (⟨c, r⟩ :: log) q

variable {p q : Program I α} {log more : Log I} {a : α}

theorem reaches_done : Reaches (.done a) log q ↔ log = [] ∧ q = .done a := by
  constructor
  · rintro ⟨⟩
    exact ⟨rfl, rfl⟩
  · rintro ⟨rfl, rfl⟩
    exact .refl _

theorem Path.reaches (h : Path p log a) : Reaches p log (.done a) := by
  induction h with
  | done a => exact .refl _
  | call r _ ih => exact .call r ih

/-- A program that is done in the end is done along a path. -/
theorem Reaches.path (h : Reaches p log q) (hq : Path q more a) : Path p (log ++ more) a := by
  induction h with
  | refl p => exact hq
  | call r _ ih => exact .call r (ih hq)

/-- At a call, a program goes on with what follows the answer. -/
theorem Reaches.answer {c : I.Call} {next : I.Answer c → Program I α} {r : I.Answer c}
    (h : Reaches p log (.call c next)) (hq : Reaches (next r) more q) :
    Reaches p (log ++ ⟨c, r⟩ :: more) q := by
  generalize hn : Program.call c next = p' at h
  induction h with
  | refl p =>
    subst hn
    exact .call r hq
  | call r _ ih => exact .call r (ih hn)

/-- Behind a whole path nothing is left to do. -/
theorem Reaches.of_path (h : Reaches p (log ++ more) q) (hp : Path p log a) :
    more = [] ∧ q = .done a := by
  induction hp with
  | done a => exact reaches_done.1 h
  | call r _ ih =>
    cases h with
    | call _ h => exact ih h

/-- No path goes on behind the end of another one. -/
theorem Path.unique {log' : Log I} {a' : α} (h : Path p log a) (h' : Path p log' a')
    (hl : log <+: log') : log = log' ∧ a = a' := by
  obtain ⟨more, rfl⟩ := hl
  obtain ⟨rfl, hd⟩ := h'.reaches.of_path h
  exact ⟨(List.append_nil log).symm, (Program.done.inj hd).symm⟩

/-- A program behind another one is in the middle of the first, at a call, or of the second. -/
theorem reaches_bind {f : α → Program I β} {q : Program I β} (h : Reaches (bind p f) log q) :
    (∃ c next, Reaches p log (.call c next) ∧ q = bind (.call c next) f) ∨
      ∃ first a second, Path p first a ∧ Reaches (f a) second q ∧ log = first ++ second := by
  induction p generalizing log with
  | done a => exact .inr ⟨[], a, log, .done a, h, rfl⟩
  | call c next ih =>
    cases h with
    | refl => exact .inl ⟨c, next, .refl _, rfl⟩
    | call r h =>
      rcases ih r h with ⟨c', next', hr, rfl⟩ | ⟨first, a, second, hp, hf, rfl⟩
      · exact .inl ⟨c', next', .call r hr, rfl⟩
      · exact .inr ⟨_, a, second, .call r hp, hf, rfl⟩

/-- In the middle of a path, too, all calls are of one kind, and so is the one that comes next. -/
theorem Only.reaches {P : I.Call → Prop} (hp : Only P p) (h : Reaches p log q)
    (answer : (c : I.Call) → I.Answer c) :
    (∀ e ∈ log, P e.call) ∧ ∀ c next, q = .call c next → P c := by
  -- Whatever is left, some answers lead to its end.
  obtain ⟨more, a, hq⟩ := exists_path answer q
  have hall := hp (h.path hq)
  rw [List.forall_mem_append] at hall
  refine ⟨hall.1, ?_⟩
  rintro c next rfl
  obtain ⟨r, rest, rfl, -⟩ := path_call.1 hq
  exact hall.2 _ List.mem_cons_self

end Program

end KernelProbe
