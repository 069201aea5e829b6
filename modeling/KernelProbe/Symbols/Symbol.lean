import KernelProbe.Symbols.Legacy
import KernelProbe.Symbols.Printer

/-!
# Symbols

A symbol has a name, a name for display, an address and a size. The name for display is the
path that a mangled name stands for, in either scheme; any other name is displayed as it is.
-/

namespace KernelProbe.Symbols

open Text

/-- Whether a character may stand in the mark that a linking step puts behind a name. -/
def isImportDigit (c : Char) : Bool :=
  isDecimalDigit c || ('A' ≤ c && c ≤ 'F') || c = '@'

/-- The text before the first occurrence of `part` and the text behind it. -/
def splitAtPart? (part : List Char) : List Char → Option (List Char × List Char)
  | [] => none
  | c :: r =>
    match afterStart? part (c :: r) with
    | some behind => some ([], behind)
    | none => (splitAtPart? part r).map fun (before, behind) => (c :: before, behind)

/-- The name without the mark of a linking step. -/
def withoutImport (s : List Char) : List Char :=
  match splitAtPart? ".llvm.".toList s with
  | some (name, mark) => if mark.all isImportDigit then name else s
  | none => s

/-- Whether what stands behind a mangled name may stand there: words with points before
    them. -/
def isSuffix : List Char → Bool
  | [] => true
  | c :: r => c = '.' && r.all fun d => '!' ≤ d && d ≤ '~'

/-- The path that a mangled name stands for, with the words behind it. -/
def demangle? (name : String) : Option String := do
  let s := withoutImport name.toList
  let (path, suffix) ← Legacy.demangle? s <|> demangleStructured? s
  if isSuffix suffix then some (path ++ String.ofList suffix) else none

/-- A symbol. -/
structure Symbol where
  name : String
  /-- The name for display. -/
  displayName : String
  address : UInt64
  /-- The size in bytes; 0 where it is not known. -/
  size : UInt64
  deriving DecidableEq, Repr

namespace Symbol

/-- A symbol whose name is displayed demangled. -/
def new (name : String) (address size : UInt64) : Symbol :=
  ⟨name, (demangle? name).getD name, address, size⟩

/-- A symbol whose name is displayed as it is. -/
def verbatim (name : String) (address size : UInt64) : Symbol :=
  ⟨name, name, address, size⟩

end Symbol

end KernelProbe.Symbols
