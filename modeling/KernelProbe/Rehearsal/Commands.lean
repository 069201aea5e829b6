import KernelProbe.Debugger.Script

/-!
# Commands for rehearsals

Registered commands that show what they were called with.
-/

namespace KernelProbe.Rehearsal

open Debugger

/-- The command that prints its argument text. -/
def echoCommand : Handler := fun argument => do
  print s!"echo [{argument}]"
  pure (.ok ())

/-- The command that executes its argument text. -/
def executeCommand : Handler := fun argument =>
  execute argument

end KernelProbe.Rehearsal
