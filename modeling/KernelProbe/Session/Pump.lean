import KernelProbe.Text.Lines
import KernelProbe.Text.Utf8

/-!
# Streams read by lines

A pump turns the bytes of a stream into lines as they come. It closes at the end of the stream,
where the piece behind the last line feed is a line of its own, and at the first line that is
no text; nothing is read behind that.
-/

namespace KernelProbe.Session

/-- A stream in the middle of its reading. -/
structure Pump where
  /-- The bytes behind the last line feed. -/
  carry : List UInt8
  isOpen : Bool
  deriving DecidableEq, Repr

namespace Pump

/-- A stream of which nothing is read. -/
def new : Pump := ⟨[], true⟩

/-- A stream that is no longer read. -/
def closed : Pump := ⟨[], false⟩

/-- The lines before the first one that is no text, and whether all are texts. -/
def readable : List (List UInt8) → List String × Bool
  | [] => ([], true)
  | line :: r =>
    match Text.Utf8.decode? line with
    | none => ([], false)
    | some text =>
      let (more, all) := readable r
      (String.ofList text :: more, all)

/-- Takes bytes; gives the lines that are finished. -/
def feed (p : Pump) (bytes : List UInt8) : List String × Pump :=
  if p.isOpen then
    let (done, carry) := Text.byteLines (p.carry ++ bytes)
    match readable done with
    | (lines, true) => (lines, ⟨carry, true⟩)
    | (lines, false) => (lines, closed)
  else ([], p)

/-- Takes the end of the stream; gives the last line. -/
def finish (p : Pump) : List String × Pump :=
  if p.isOpen && !p.carry.isEmpty then ((readable [p.carry]).1, closed)
  else ([], closed)

end Pump

end KernelProbe.Session
