import KernelProbe.CommandLine.Options
import KernelProbe.Session.Config
import KernelProbe.Text.Blank
import KernelProbe.Text.Digits

/-!
# Invocations

What the program can be asked to do on the command line: to run a session, to annotate a stack
trace, or to embed a file.
-/

namespace KernelProbe.CommandLine

/-- Where the symbols of a trace come from. -/
inductive SymbolSource
  /-- A linker map. -/
  | linkerMap (path : String)
  /-- An ELF file. -/
  | elf (path : String)
  deriving DecidableEq, Repr

/-- The options of a session. -/
structure SessionOptions where
  /-- The root directory, if it is not the default one. -/
  root : Option String
  /-- The command line of the emulator, its words between blanks. -/
  emulator : String
  /-- The file to record the session in. -/
  log : String
  /-- Whether nothing is recorded. -/
  noLog : Bool
  /-- Whether a script of the debugger does the automation. -/
  debuggerScript : Bool
  restartDelay : Nat
  /-- The command line of the debugger. -/
  debugger : List String
  deriving DecidableEq, Repr

/-- What the program is asked to do. -/
inductive Invocation
  | session (o : SessionOptions)
  | annotate (symbols : SymbolSource) (trace : String) (output : Option String)
  | embed (input outputBase : String)
  deriving DecidableEq, Repr

/-- The options that all commands have. -/
def commonOptions : List Choice :=
  [⟨"verbose", some 'v', .switch⟩, ⟨"help", some 'h', .help⟩]

/-- The arguments before the command. -/
def mainGrammar : Grammar where
  options := ⟨"version", some 'V', .version⟩ :: commonOptions
  operands := .command

/-- The arguments of a session. -/
def sessionGrammar : Grammar where
  options := commonOptions ++
    [⟨"root", none, .value⟩, ⟨"emulator", none, .value⟩, ⟨"log", none, .nonemptyValue⟩,
      ⟨"no-log", none, .switch⟩, ⟨"gdb-script", none, .switch⟩,
      ⟨"restart-delay-ms", none, .number⟩, ⟨"gdb", none, .value⟩]
  operands := .passedOn

/-- The arguments for annotating a trace. -/
def annotateGrammar : Grammar where
  options := commonOptions ++
    [⟨"map", some 'm', .nonemptyValue⟩, ⟨"elf", some 'e', .nonemptyValue⟩,
      ⟨"input", some 'i', .nonemptyValue⟩, ⟨"output", some 'o', .nonemptyValue⟩]
  operands := .atMost 0

/-- The arguments for embedding a file. -/
def embedGrammar : Grammar where
  options := commonOptions
  operands := .atMost 2

/-- The names of the commands. -/
def commandNames : List String :=
  ["shim", "annotate", "embed", "help"]

/-- A value or a misuse. -/
def require {α : Type} : Option α → Except Halt α
  | some a => .ok a
  | none => .error .misuse

/-- The invocation of a session. -/
def readSession (arguments : List String) : Except Halt Invocation := do
  let a ← sessionGrammar.read arguments
  let delay ← require (Text.readWord64 10
    ((a.value? "restart-delay-ms").getD "500").toList).toOption
  pure (.session {
    root := a.value? "root"
    emulator := (a.value? "emulator").getD "sh run.sh"
    log := (a.value? "log").getD Session.defaultTranscript
    noLog := a.has "no-log"
    debuggerScript := a.has "gdb-script"
    restartDelay := delay.toNat
    debugger := (a.value? "gdb").getD "gdb" :: a.operands })

/-- The invocation for annotating a trace. -/
def readAnnotate (arguments : List String) : Except Halt Invocation := do
  let a ← annotateGrammar.read arguments
  let trace ← require (a.value? "input")
  match a.value? "map", a.value? "elf" with
  | some path, none => pure (.annotate (.linkerMap path) trace (a.value? "output"))
  | none, some path => pure (.annotate (.elf path) trace (a.value? "output"))
  | _, _ => throw .misuse

/-- The invocation for embedding a file. -/
def readEmbed (arguments : List String) : Except Halt Invocation := do
  let a ← embedGrammar.read arguments
  match a.operands with
  | [input, outputBase] => pure (.embed input outputBase)
  | _ => throw .misuse

/-- The help, if the arguments name at most a command. -/
def readHelp : List String → Except Halt Invocation
  | [] => throw .help
  | [name] => throw (if commandNames.contains name then .help else .misuse)
  | _ => throw .misuse

/-- What the arguments of the program ask for. -/
def Invocation.read (arguments : List String) : Except Halt Invocation := do
  let a ← mainGrammar.read arguments
  match a.operands with
  | "shim" :: rest => readSession rest
  | "annotate" :: rest => readAnnotate rest
  | "embed" :: rest => readEmbed rest
  | "help" :: rest => readHelp rest
  | _ => throw .misuse

/-- The configuration of a session under a root directory. -/
def SessionOptions.config (o : SessionOptions) (root : String) : Session.Config :=
  let c : Session.Config := {
    root
    debugger := o.debugger
    emulator := (Text.words o.emulator.toList).map String.ofList
    transcript := if o.noLog then none else some o.log
    restartDelay := o.restartDelay }
  if o.debuggerScript then c else c.withAutomation {}

end KernelProbe.CommandLine
