import KernelProbe.Automation.Config
import KernelProbe.Automation.ModuleName
import KernelProbe.Text.Search

/-!
# Symbols of modules

Whenever the kernel loads or unloads a module, the debugger gets or loses its symbol file. The
modules tracked here are those whose symbol files the debugger holds: a record comes in when
the debugger took the file, and goes out when it dropped it. Both hooks let the target go on,
whatever fails.
-/

namespace KernelProbe.Automation

open Debugger Text

/-- A module whose symbols the debugger holds. -/
structure Module where
  /-- The path that the kernel gave. -/
  name : String
  /-- The address at which the module runs. -/
  base : UInt64
  /-- The file that the debugger holds. -/
  symbolFile : String
  deriving DecidableEq, Repr

/-- The tracked modules, and where their names, bases and files are found. -/
structure Modules where
  frame : Nat
  pathArgument : String
  baseArgument : String
  symbolRoot : String
  /-- The tracked modules by base. -/
  loaded : Dict UInt64 Module

/-- Why the hook of a module is passed over. -/
inductive SkipReason
  /-- A value of the frame could not be read. -/
  | frame (cause : Error)
  /-- The name could not be read. -/
  | name (cause : NameError)
  deriving DecidableEq, Repr

/-- The wording of a reason, with the error behind it. -/
def SkipReason.message : SkipReason → String
  | .frame cause => cause.message
  | .name cause =>
    match cause.cause? with
    | none => cause.message
    | some e => s!"{cause.message}: {e.message}"

namespace Modules

/-- No tracked modules, under a configuration. -/
def new (c : Config) : Modules where
  frame := c.moduleFrame
  pathArgument := c.modulePathArgument
  baseArgument := c.moduleBaseArgument
  symbolRoot := c.symbolRoot
  loaded := .empty

/-- The part of a path behind its last slash or backslash. -/
def fileName : List Char → List Char
  | [] => []
  | c :: r =>
    if r.any (fun d => d = '/' || d = '\\') then fileName r
    else if c = '/' || c = '\\' then r
    else c :: r

/-- The symbol file of a module. -/
def symbolFile (m : Modules) (name : String) : String :=
  let file := String.ofList (fileName name.toList)
  match trimEndOf '/' m.symbolRoot.toList with
  | [] => file
  | root => String.ofList root ++ "/" ++ file

/-- The command that makes the debugger drop a symbol file. -/
def removeCommand (file : String) : String :=
  "remove-symbol-file " ++ file

/-- The command that makes the debugger take a symbol file. -/
def addCommand (file : String) (base : UInt64) : String :=
  s!"add-symbol-file {file} -o {hex base.toNat} -readnow"

/-- Makes the debugger drop the file of the module tracked at a base, if there is one. -/
def dropStale {H : Type} (m : Modules) (base : UInt64) :
    Script H (Except Error Unit × Modules) := do
  match m.loaded.find? base with
  | none => pure (.ok (), m)
  | some stale =>
    match ← execute (removeCommand stale.symbolFile) with
    | .error e => pure (.error e, m)
    | .ok () => pure (.ok (), { m with loaded := m.loaded.erase base })

/-- Makes the debugger take the symbols of a module; those of another one at the same base go
    first, and where they cannot go nothing is taken. -/
def load {H : Type} (m : Modules) (name : String) (base : UInt64) :
    Script H (Except Error Unit × Modules) := do
  match ← m.dropStale base with
  | (.error e, m) => pure (.error e, m)
  | (.ok (), m) =>
    let file := m.symbolFile name
    match ← execute (addCommand file base) with
    | .error e => pure (.error e, m)
    | .ok () => pure (.ok (), { m with loaded := m.loaded.insert base ⟨name, base, file⟩ })

/-- Makes the debugger drop the symbols of a module; one that is not tracked with this name at
    this base is passed over. -/
def unload {H : Type} (m : Modules) (name : String) (base : UInt64) :
    Script H (Except Error Unit × Modules) := do
  match m.loaded.find? base with
  | none => pure (.ok (), m)
  | some tracked =>
    if tracked.name = name then
      match ← execute (removeCommand tracked.symbolFile) with
      | .error e => pure (.error e, m)
      | .ok () => pure (.ok (), { m with loaded := m.loaded.erase base })
    else pure (.ok (), m)

/-- Reads the name and base of the module that a hook is about. -/
def readModule {H : Type} (m : Modules) :
    Script H (Except SkipReason (String × UInt64)) := do
  match ← frameValue m.frame m.pathArgument with
  | .error e => pure (.error (.frame e))
  | .ok path =>
    match ← frameValue m.frame m.baseArgument with
    | .error e => pure (.error (.frame e))
    | .ok base =>
      match ← readUtf16 path with
      | .error e => pure (.error (.name e))
      | .ok name => pure (.ok (name, base))

/-- A stop where a module is loaded. -/
def onLoad {H : Type} (m : Modules) : Script H (Decision × Modules) := do
  match ← m.readModule with
  | .error reason =>
    print s!"Module load skipped: {reason.message}"
    pure (.resume, m)
  | .ok (name, base) =>
    let (_, m) ← m.load name base
    pure (.resume, m)

/-- A stop where a module is unloaded. -/
def onUnload {H : Type} (m : Modules) : Script H (Decision × Modules) := do
  match ← m.readModule with
  | .error reason =>
    print s!"Module unload skipped: {reason.message}"
    pure (.resume, m)
  | .ok (name, base) =>
    let (_, m) ← m.unload name base
    pure (.resume, m)

end Modules

end KernelProbe.Automation
