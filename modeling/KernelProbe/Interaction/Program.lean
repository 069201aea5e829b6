/-!
# Programs that call their surroundings

A program is a tree: it is done with a result, or it makes a call and goes on with the answer.
What it may call is its interface. Whoever carries a program out decides the answers: `run`
does so with a state, `interpret` with the effects of a monad, and `substitute` by programs of
another interface. A statement about all surroundings is a statement about all paths of the
tree.
-/

namespace KernelProbe

/-- What programs may call, and the type of the answer to each call. -/
structure Interface where
  /-- The calls. -/
  Call : Type
  /-- The answers to a call. -/
  Answer : Call → Type

/-- A program over an interface that ends with a result of type `α`. -/
inductive Program (I : Interface) (α : Type) where
  | done (result : α)
  | call (c : I.Call) (next : I.Answer c → Program I α)

namespace Program

variable {I J : Interface} {α β γ σ : Type}

/-- Goes on with another program when this one is done. -/
def bind : Program I α → (α → Program I β) → Program I β
  | done a, f => f a
  | call c next, f => call c fun r => bind (next r) f

instance : Monad (Program I) where
  pure := done
  bind := bind

/-- The program that makes one call. -/
def ask (I : Interface) (c : I.Call) : Program I (I.Answer c) :=
  call c done

/-- Carries a program out, with a state from which each call gets its answer. -/
def run (answer : (c : I.Call) → σ → I.Answer c × σ) : Program I α → σ → α × σ
  | done a, s => (a, s)
  | call c next, s =>
    let (r, s') := answer c s
    run answer (next r) s'

/-- Carries a program out in a monad that gives the answers. -/
def interpret {m : Type → Type} [Monad m] (answer : (c : I.Call) → m (I.Answer c)) :
    Program I α → m α
  | done a => pure a
  | call c next => do interpret answer (next (← answer c))

/-- Carries a program out by programs of another interface. -/
def substitute (meaning : (c : I.Call) → Program J (I.Answer c)) :
    Program I α → Program J α
  | done a => done a
  | call c next => bind (meaning c) fun r => substitute meaning (next r)

@[simp]
theorem pure_eq (a : α) : (pure a : Program I α) = done a := rfl

@[simp]
theorem bind_eq (p : Program I α) (f : α → Program I β) : p >>= f = bind p f := rfl

@[simp]
theorem done_bind (a : α) (f : α → Program I β) : bind (done a) f = f a := rfl

@[simp]
theorem call_bind (c : I.Call) (next : I.Answer c → Program I α) (f : α → Program I β) :
    bind (call c next) f = call c fun r => bind (next r) f := rfl

@[simp]
theorem bind_done (p : Program I α) : bind p done = p := by
  induction p with
  | done a => rfl
  | call c next ih => simp [bind, ih]

theorem bind_assoc (p : Program I α) (f : α → Program I β) (g : β → Program I γ) :
    bind (bind p f) g = bind p fun a => bind (f a) g := by
  induction p with
  | done a => rfl
  | call c next ih => simp [bind, ih]

instance : LawfulMonad (Program I) :=
  LawfulMonad.mk' (Program I) (fun p => bind_done p) (fun _ _ => rfl)
    (fun p f g => bind_assoc p f g)

theorem run_bind (answer : (c : I.Call) → σ → I.Answer c × σ) (p : Program I α)
    (f : α → Program I β) (s : σ) :
    run answer (bind p f) s = run answer (f (run answer p s).1) (run answer p s).2 := by
  induction p generalizing s with
  | done a => rfl
  | call c next ih => simp [bind, run, ih]

end Program

end KernelProbe
