import KernelProbe.CommandLine.Invocation
import KernelProbe.Elf.Symbols
import KernelProbe.Embedding
import KernelProbe.Interaction.Program
import KernelProbe.Session.Supervisor
import KernelProbe.Symbols.LinkerMap
import KernelProbe.Symbols.Trace
import KernelProbe.Text.Quoted
import KernelProbe.Text.Utf8

/-!
# Carrying out invocations

An invocation is a program over files and the standard output. It ends with success, with a
failure, or with a session that is to be run. `Report` says what the program tells its caller.
-/

namespace KernelProbe.CommandLine

open Text

/-- What an invocation asks of its surroundings. -/
inductive ShellCall where
  /-- Read a file, or say why that failed. -/
  | readFile (path : String)
  /-- Write a file, or say why that failed. -/
  | writeFile (path text : String)
  /-- Write a line to the standard output. -/
  | printLine (line : String)
  /-- Ask for the home directory of the user. -/
  | homeDirectory

/-- The answer to a call. -/
abbrev ShellCall.Answer : ShellCall → Type
  | .readFile _ => Except String (List UInt8)
  | .writeFile .. => Except String Unit
  | .printLine _ => Unit
  | .homeDirectory => Option String

/-- The interface of invocations. -/
abbrev shell : Interface := ⟨ShellCall, ShellCall.Answer⟩

/-- Why an invocation failed. -/
inductive Failure
  | linkerMap (path cause : String)
  | elfFile (path cause : String)
  | elfFormat (e : Elf.FormatError)
  | input (path cause : String)
  | output (path cause : String)
  /-- One of the two files of an embedded file could not be written. -/
  | generated (path cause : String)
  | noHome
  | session (e : Session.StartError)
  deriving DecidableEq, Repr

/-- The wording of a failure. -/
def Failure.message : Failure → String
  | .linkerMap path cause => s!"Failed to read linker map {quoted path}: {cause}"
  | .elfFile path cause => s!"Failed to read file {quoted path}: {cause}"
  | .elfFormat e => Elf.failureText e
  | .input path cause => s!"Failed to read {quoted path}: {cause}"
  | .output path cause => s!"Failed to write {quoted path}: {cause}"
  | .generated path cause => s!"Failed to write {path}: {cause}"
  | .noHome => "Cannot determine the home directory; pass --root"
  | .session e => e.message

/-- The error that led to a failure and is told beside it. -/
def Failure.cause? : Failure → Option String
  | .session e => e.cause?
  | _ => none

/-- How an invocation ends. -/
inductive Ending
  | done
  | failed (f : Failure)
  /-- A session is to be run. -/
  | session (c : Session.Config)

/-- A part of an invocation, which may fail. -/
abbrev Task (α : Type) := ExceptT Failure (Program shell) α

/-- Makes a call. -/
def request (c : ShellCall) : Task c.Answer :=
  ExceptT.lift (.ask shell c)

/-- The value of an answer, or the failure that its error leads to. -/
def orFail {ε α : Type} (failure : ε → Failure) : Except ε α → Task α
  | .ok a => pure a
  | .error cause => throw (failure cause)

/-- Reads a file. -/
def readFile (path : String) (failure : String → Failure) : Task (List UInt8) := do
  orFail failure (← request (.readFile path))

/-- Reads a file that holds a text. -/
def readText (path : String) (failure : String → Failure) : Task String := do
  match Utf8.decode? (← readFile path failure) with
  | some text => pure (String.ofList text)
  | none => throw (failure "stream did not contain valid UTF-8")

/-- Writes a file. -/
def writeText (path text : String) (failure : String → Failure) : Task Unit := do
  orFail failure (← request (.writeFile path text))

/-- Reads the symbols of a source. -/
def SymbolSource.load : SymbolSource → Task Symbols.Table
  | .linkerMap path => do
    return Symbols.LinkerMap.read (← readText path (.linkerMap path))
  | .elf path => do
    orFail .elfFormat (Elf.readSymbols (← readFile path (.elfFile path)).toArray)

/-- Annotates a trace. -/
def annotateTrace (symbols : SymbolSource) (trace : String) (output : Option String) :
    Task Unit := do
  let table ← symbols.load
  let lines := Symbols.Trace.annotate table (← readText trace (.input trace))
  match output with
  | some path => writeText path (String.join (lines.map (· ++ "\n"))) (.output path)
  | none => lines.forM fun line => request (.printLine line)

/-- Embeds a file. -/
def embedFile (input outputBase : String) : Task Unit := do
  let bytes ← readFile input (.input input)
  let base := Embedding.symbolBase input
  let write (extension text : String) : Task Unit :=
    let path := outputBase ++ extension
    writeText path text (.generated path)
  write ".cpp" (Embedding.source base bytes)
  write ".h" (Embedding.header base)

/-- The configuration of a session. -/
def configure (o : SessionOptions) : Task Session.Config := do
  match o.root with
  | some root => pure (o.config root)
  | none =>
    match ← request .homeDirectory with
    | some home => pure (o.config (Session.defaultRoot home))
    | none => throw .noHome

/-- Carries out an invocation. -/
def Invocation.task : Invocation → Task Ending
  | .session o => do return .session (← configure o)
  | .annotate symbols trace output => do
    annotateTrace symbols trace output
    return .done
  | .embed input outputBase => do
    embedFile input outputBase
    return .done

/-- Carries out an invocation; a failure is one of its endings. -/
def Invocation.perform (i : Invocation) : Program shell Ending := do
  match ← ExceptT.run i.task with
  | .ok ending => pure ending
  | .error f => pure (.failed f)

/-- What the program tells its caller in the end. -/
structure Report where
  exitCode : Nat
  /-- Text on the standard output, behind the lines that were printed. -/
  output : String
  /-- Text on the standard error. -/
  errors : String
  deriving DecidableEq, Repr

namespace Report

/-- The report of a success. -/
def success : Report := ⟨0, "", ""⟩

/-- The text that shows the version. -/
def version : String := "enkel 0.1.0\n"

/-- The report of arguments that are not carried out. -/
def ofHalt : Halt → Report
  | .misuse => ⟨2, "", "error: invalid arguments\n"⟩
  | .help => ⟨0, "Usage: enkel <COMMAND>\n", ""⟩
  | .version => ⟨0, version, ""⟩

/-- The report of a failure, with the error behind it. -/
def ofFailure (f : Failure) : Report :=
  let cause := match f.cause? with
    | none => ""
    | some cause => s!"\nCaused by:\n    {cause}\n"
  ⟨1, "", s!"Error: {f.message}\n{cause}"⟩

/-- The report of a session. -/
def ofSession : Except Session.StartError Session.SessionEnd → Report
  | .ok _ => success
  | .error e => ofFailure (.session e)

end Report

end KernelProbe.CommandLine
