import KernelProbe.Symbols.Table
import KernelProbe.Text.Blank
import KernelProbe.Text.Digits
import KernelProbe.Text.Lines
import KernelProbe.Text.Search

/-!
# Stack traces

The kernel prints a stack trace as lines with the index of a frame and an address. Annotating
such a line names the nearest symbol and the distance from it; all other lines are dropped.
-/

namespace KernelProbe.Symbols.Trace

open Text

/-- A line of a trace. -/
structure Frame where
  /-- The text of the index. -/
  index : List Char
  address : UInt64
  deriving DecidableEq, Repr

/-- The text of an address without the mark of its base. -/
def digitsOf : List Char → List Char
  | '0' :: 'x' :: ds => ds
  | '0' :: 'X' :: ds => ds
  | ds => ds

/-- The frame in a line. -/
def frame? (line : List Char) : Option Frame := do
  let body ← afterStart? ['#'] line
  let (index, address) ← splitAt? ':' body
  if address.contains ':' then none
  else
    let a ← (readWord64 16 (digitsOf (trim address))).toOption
    some ⟨trim index, a⟩

/-- A frame with the symbol that it is in. -/
def Frame.render (table : Table) (f : Frame) : String :=
  let place := "#0x" ++ String.ofList f.index ++ ": " ++ hex f.address.toNat
  match table.nearest? f.address with
  | some s =>
    s!"{place} ({s.displayName}+{hex (f.address - s.address).toNat})"
  | none => place ++ " (Unknown)"

/-- The annotated form of a line, if it is a line of a trace. -/
def annotateLine? (table : Table) (line : String) : Option String :=
  (frame? line.toList).map (Frame.render table)

/-- The annotated lines of a trace. -/
def annotate (table : Table) (trace : String) : List String :=
  (lines trace.toList).filterMap fun line => (frame? line).map (Frame.render table)

end KernelProbe.Symbols.Trace
