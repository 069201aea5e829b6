import KernelProbe.Symbols.Table
import KernelProbe.Text.Blank
import KernelProbe.Text.Digits
import KernelProbe.Text.Lines
import KernelProbe.Text.Search

/-!
# Linker maps

A linker map has a line for each symbol, with its address and its name. Lines with an address
and a size in front of a further text are about sections and object files and give no symbol.
Names are displayed as the map has them.
-/

namespace KernelProbe.Symbols.LinkerMap

open Text

/-- The digits of a number behind `0x` that a blank follows, and the text from that blank on. -/
def number? (s : List Char) : Option (List Char × List Char) := do
  let r ← afterStart? ['0', 'x'] s
  let ds := r.takeWhile isHexDigit
  match r.dropWhile isHexDigit with
  | [] => none
  | c :: behind => if !ds.isEmpty && isBlank c then some (ds, c :: behind) else none

/-- The digits of the address at the start of a line, and what stands behind them without the
    blanks before it, in one line. -/
def split? (line : List Char) : Option (List Char × List Char) := do
  let (ds, behind) ← number? (trimStart line)
  let rest := trimStart behind
  if rest.contains '\n' then none else some (ds, rest)

/-- The symbol in a line. -/
def symbol? (line : List Char) : Option Symbol := do
  let (ds, rest) ← split? line
  let name := trimEnd rest
  if (number? rest).isSome || name.isEmpty then none
  else
    let address ← (readWord64 16 ds).toOption
    some (.verbatim (String.ofList name) address 0)

/-- The table of the symbols in a map. -/
def read (text : String) : Table :=
  .ofSymbols ((lines text.toList).filterMap symbol?)

end KernelProbe.Symbols.LinkerMap
