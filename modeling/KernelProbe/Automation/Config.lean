import KernelProbe.Automation.Hook

/-!
# Configuration of the automation

Which commands prepare the debugger, which symbols get hooks of which kind, and where the name
and base of a module are found. The defaults are the symbols of the kernel that this tool is
for.
-/

namespace KernelProbe.Automation

/-- A hook to set. -/
structure HookSpec where
  name : String
  kind : HookKind
  deriving DecidableEq, Repr

/-- The configuration of the automation. -/
structure Config where
  /-- Commands to execute before all else. -/
  preamble : List String :=
    ["set logging overwrite on", "set logging on", "set output-radix 16",
      "add-symbol-file boot_iso/boot_part/kernel/enkel.elf"]
  /-- The function that the kernel calls first once a debugger may attach. -/
  entryHook : String := "OnKernelMainHook"
  /-- The kernel's variable that says that a debugger is there. -/
  attachedFlag : String := "GIsDebuggerPresent"
  /-- The hooks to set at the first stop at the entry hook. -/
  hooks : List HookSpec :=
    [⟨"DebuggerHook", .genericStop⟩, ⟨"HaltPermanently", .genericStop⟩,
      ⟨"ISR_GeneralProtectionFault", .faultVerbose⟩, ⟨"ISR_PageFault", .faultVerbose⟩,
      ⟨"ISR_InvalidOpcode", .faultSilent⟩, ⟨"ISR_Breakpoint", .faultSilent⟩,
      ⟨"OnBinaryLoadHook_Inner", .moduleLoad⟩, ⟨"OnBinaryUnloadHook_Inner", .moduleUnload⟩]
  /-- The frame that has a module's name and base. -/
  moduleFrame : Nat := 1
  /-- The argument that points to the module's path, in UTF-16. -/
  modulePathArgument : String := "programName"
  /-- The variable with the address at which the module runs. -/
  moduleBaseArgument : String := "imageBase"
  /-- The directory with the symbol files of modules. -/
  symbolRoot : String := "boot_iso/boot_part"
  /-- The command that shows the state of the hooks. -/
  hookStateCommand : String := "info break"
  /-- The command that shows the top of the stack. -/
  stackDumpCommand : String := "x/16gx $rsp"
  deriving DecidableEq, Repr

end KernelProbe.Automation
