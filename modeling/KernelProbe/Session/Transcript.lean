import KernelProbe.Text.Blank

/-!
# The transcript

A file that records what goes to the debugger and what comes from it, a line for each. The
first write that fails ends the recording, and the session goes on without it.
-/

namespace KernelProbe.Session

/-- What is recorded. -/
inductive Entry
  /-- The root directory, at the start of the file. -/
  | root (directory : String)
  /-- A command that went to the debugger or to the automation. -/
  | command (text : String)
  /-- A line that came from the debugger or the automation. -/
  | output (line : String)
  /-- A command before and after the placeholder was replaced. -/
  | filled (before after : String)
  deriving DecidableEq, Repr

/-- The lines of an entry. -/
def Entry.lines : Entry → List String
  | .root directory => ["# ROOT:" ++ directory]
  | .command text => ["> " ++ text]
  | .output line => ["< " ++ String.ofList (Text.trimEnd line.toList)]
  | .filled before after => ["# Before:" ++ before, "# After:" ++ after]

/-- The state of the recording. -/
inductive Transcript
  /-- Nothing is recorded, or no longer. -/
  | off
  /-- The lines written so far. -/
  | on (written : List String)
  deriving DecidableEq, Repr

namespace Transcript

/-- Whether lines are still recorded. -/
def isOn : Transcript → Bool
  | off => false
  | on _ => true

/-- The lines that are in the file. -/
def written : Transcript → List String
  | off => []
  | on written => written

/-- Writes a line, to a file that takes lines or not. -/
def write (takes : Bool) (t : Transcript) (line : String) : Transcript :=
  match t with
  | off => off
  | on written => if takes then on (written ++ [line]) else off

/-- Records an entry. -/
def record (takes : Bool) (t : Transcript) (e : Entry) : Transcript :=
  e.lines.foldl (write takes) t

/-- The text of the file. -/
def text : Transcript → Option String
  | off => none
  | on written => some (String.join (written.map (· ++ "\n")))

end Transcript

end KernelProbe.Session
