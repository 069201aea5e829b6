import KernelProbe.Debugger.Script

/-!
# Hooks

A hook is a breakpoint at a symbol with a kind, which says what a stop there leads to. A hook
table has one hook for each breakpoint: a hook that gets the breakpoint of another one takes
its place.
-/

namespace KernelProbe.Automation

open Debugger

/-- What a stop at a hook leads to. -/
inductive HookKind
  /-- A fault handler: shows the state of the hooks and the stack. -/
  | faultVerbose
  /-- A fault handler: shows the stack. -/
  | faultSilent
  /-- A place to stop at. -/
  | genericStop
  /-- A module is being loaded. -/
  | moduleLoad
  /-- A module is being unloaded. -/
  | moduleUnload
  deriving DecidableEq, Repr

/-- A hook that is set. -/
structure Hook where
  id : HookId
  /-- The symbol at which the hook is set. -/
  name : String
  /-- The address of the symbol when the hook was set. -/
  address : UInt64
  kind : HookKind
  deriving DecidableEq, Repr

/-- The address of a symbol. -/
def resolveSymbol {H : Type} (name : String) : Script H (Except Error UInt64) :=
  evaluate ("&" ++ name)

/-- The hooks that are set, by breakpoint. -/
structure HookTable where
  hooks : Dict HookId Hook

namespace HookTable

/-- The table without hooks. -/
def empty : HookTable := ⟨.empty⟩

/-- The table with a hook set at its breakpoint. -/
def insert (t : HookTable) (h : Hook) : HookTable :=
  ⟨t.hooks.insert h.id h⟩

/-- The hook at a breakpoint. -/
def get? (t : HookTable) (id : HookId) : Option Hook :=
  t.hooks.find? id

/-- A hook with a name. -/
def find? (t : HookTable) (name : String) : Option Hook :=
  t.hooks.values.find? (·.name = name)

/-- The number of hooks. -/
def count (t : HookTable) : Nat :=
  t.hooks.size

/-- Finds the symbol, sets a breakpoint at it and puts the hook into the table; a failure leaves
    the table as it is. -/
def install {H : Type} (t : HookTable) (name : String) (kind : HookKind) :
    Script H (Except Error HookId × HookTable) := do
  match ← resolveSymbol name with
  | .error e => pure (.error e, t)
  | .ok address =>
    match ← setBreakpoint address with
    | .error e => pure (.error e, t)
    | .ok id => pure (.ok id, t.insert ⟨id, name, address, kind⟩)

end HookTable

end KernelProbe.Automation
