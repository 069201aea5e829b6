import KernelProbe.Text.Search

/-!
# The placeholder for the root directory

The development environment does not know the root directory and writes a placeholder for it.
Every command to the debugger has the placeholder replaced by the root, without the slashes at
the root's end, because a slash follows the placeholder.
-/

namespace KernelProbe.Session

open Text

/-- The text that stands for the root directory. -/
def placeholder : String := "/mnt//INVALID_CWD"

/-- Whether a command has the placeholder in it. -/
def hasPlaceholder (command : String) : Bool :=
  contains command placeholder

/-- The command with the root in place of the placeholder. -/
def fillRoot (command root : String) : String :=
  String.ofList (replaceAll placeholder.toList (trimEndOf '/' root.toList) command.toList)

end KernelProbe.Session
