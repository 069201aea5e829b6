import KernelProbe.Rehearsal.Rulebook
import KernelProbe.Text.Lines
import KernelProbe.Text.Utf8

/-!
# The debugger's part

In a rehearsed session the debugger has a part: what each instance says when it starts, and a
rulebook of what it does with a line of input. A line is matched without the token in front of
it, and the token can be repeated in what the debugger says.
-/

namespace KernelProbe.Rehearsal

open Text

/-- What the debugger does with a line. -/
structure Reaction where
  /-- Lines for the standard output. -/
  output : List String
  /-- Bytes for the standard output, behind the lines. -/
  raw : List UInt8
  /-- Lines for the standard error. -/
  errors : List String
  /-- Whether the debugger ends then. -/
  exits : Bool
  /-- Whether the debugger stops taking input, before it says anything. -/
  closesInput : Bool

/-- A rule, for one generation or for all. -/
structure PartRule where
  generation : Option Nat
  rule : Rule Reaction

/-- What the debuggers of a session do. -/
structure Part where
  /-- The first lines of each instance; the last entry is for all further ones. -/
  greetings : List (List String)
  rules : List PartRule

/-- Lines as bytes. -/
def lineBytes (lines : List String) : List UInt8 :=
  lines.flatMap fun line => Utf8.encode line.toList ++ [10]

/-- The lines that a reader finds in a written line: it may hold ends of lines itself. -/
def linesOf (line : String) : List String :=
  (lines (line.toList ++ ['\n'])).map String.ofList

/-- An instance of the debugger. -/
structure Actor where
  rules : Rulebook Reaction
  /-- The lines that are written to it and not yet taken. -/
  input : List String
  takesInput : Bool
  isRunning : Bool

/-- What an instance wrote to its two outputs. -/
structure Written where
  output : List UInt8
  errors : List UInt8

namespace Actor

/-- An instance that does not run. -/
def gone : Actor := ⟨[], [], false, false⟩

/-- The instance of a generation, with what it says first. -/
def start (part : Part) (generation : Nat) : Actor × Written :=
  let mine (r : PartRule) := r.generation.all (· = generation)
  (⟨(part.rules.filter mine).map (·.rule), [], true, true⟩,
    ⟨lineBytes ((nthOrLast? part.greetings generation).getD []), []⟩)

/-- The token in front of a line, and what is behind it. -/
def splitToken (line : List Char) : List Char × List Char :=
  (line.takeWhile isDecimalDigit, line.dropWhile isDecimalDigit)

/-- What an instance says to a line without a rule. -/
def echo (token line : List Char) : String :=
  if token.isEmpty then String.ofList ('~' :: line)
  else String.ofList token ++ "^done"

/-- A text of a reaction with the token, the number of the use and the line filled in. -/
def fill (token line : List Char) (n : Nat) (text : String) : String :=
  let put (letter : Char) :=
    if letter = 't' then some token
    else if letter = 'n' then some (digits 10 n)
    else if letter = 'l' then some line
    else none
  String.ofList (fillIn put text.toList)

/-- Takes a line. -/
def react (a : Actor) (line : String) : Actor × Written :=
  let (token, body) := splitToken line.toList
  match a.rules.use (String.ofList body) with
  | (none, rules) => ({ a with rules }, ⟨lineBytes [echo token line.toList], []⟩)
  | (some (reaction, n), rules) =>
    let filled := List.map (fill token line.toList n)
    ({ a with
        rules
        takesInput := a.takesInput && !reaction.closesInput && !reaction.exits
        isRunning := !reaction.exits },
      ⟨lineBytes (filled reaction.output) ++ reaction.raw, lineBytes (filled reaction.errors)⟩)

/-- Takes the next line that was written to it, if it can. -/
def takeLine? (a : Actor) : Option (Actor × Written) :=
  if a.isRunning && a.takesInput then
    match a.input with
    | [] => none
    | line :: input => some ({ a with input }.react line)
  else none

/-- Writes a line to it, if it takes input. -/
def write? (a : Actor) (line : String) : Option Actor :=
  if a.isRunning && a.takesInput then
    some { a with input := a.input ++ linesOf line }
  else none

end Actor

end KernelProbe.Rehearsal
