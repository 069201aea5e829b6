/-!
# Lines

A line ends at a line feed, and a carriage return right before that belongs to the line end. A
last piece without a line feed is a line unless it is empty.
-/

namespace KernelProbe.Text

/-- The line without the carriage return that ends it. -/
def dropReturn {α : Type} [BEq α] (cr : α) (line : List α) : List α :=
  if line.getLast? == some cr then line.dropLast else line

/-- The finished lines of a stream, and the piece behind the last line feed. -/
def splitLines {α : Type} [BEq α] (lf cr : α) : List α → List (List α) × List α
  | [] => ([], [])
  | c :: r =>
    match splitLines lf cr r with
    | (done, rest) =>
      if c == lf then ([] :: done, rest)
      else
        match done with
        | [] => ([], c :: rest)
        | line :: more => ((c :: line) :: more, rest)

/-- The lines of a text. -/
def lines (s : List Char) : List (List Char) :=
  let (done, rest) := splitLines '\n' '\r' s
  done.map (dropReturn '\r') ++ (if rest.isEmpty then [] else [rest])

/-- The finished lines of a stream of bytes, and the bytes behind the last line feed. -/
def byteLines (s : List UInt8) : List (List UInt8) × List UInt8 :=
  let (done, rest) := splitLines 10 13 s
  (done.map (dropReturn 13), rest)

end KernelProbe.Text
