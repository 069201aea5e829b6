import KernelProbe.Text.Digits
import KernelProbe.Text.Search

/-!
# Embedded files

A file is embedded into a program as a pair of texts in C++: a source that defines an array of
the file's bytes and a constant with their number, and a header that declares both. Their names
come from the name of the file.
-/

namespace KernelProbe.Embedding

open Text

/-- The name of the file at the end of a path, unless the path ends in a step upwards. -/
def fileName? (path : String) : Option (List Char) := do
  let parts := (splitOn '/' path.toList).filter fun p => !p.isEmpty && p ≠ ['.']
  let last ← parts.getLast?
  if last = ['.', '.'] then none else some last

/-- Whether a character is an ASCII letter or digit. -/
def isWordChar (c : Char) : Bool :=
  isDecimalDigit c || ('a' ≤ c && c ≤ 'z') || ('A' ≤ c && c ≤ 'Z')

/-- The name of a file without its extension, and the extension: what stands before the last point
    and behind it. A point at the start is no point before an extension. -/
def splitExtension (name : List Char) : List Char × Option (List Char) :=
  match splitAtLast? '.' name with
  | none => (name, none)
  | some (stem, extension) => if stem = [] then (name, none) else (stem, some extension)

/-- The name of the file at the end of a path without its extension. -/
def stem? (path : String) : Option (List Char) :=
  (fileName? path).map fun name => (splitExtension name).1

/-- The extension of the file at the end of a path. -/
def extension? (path : String) : Option (List Char) :=
  (fileName? path).bind fun name => (splitExtension name).2

/-- The start of the names that a file is embedded under: its stem, and a point and the extension
    if there is one, with underscores for all but ASCII letters and digits. -/
def symbolBase (path : String) : String :=
  String.ofList (((stem? path).getD [] ++ (extension? path).elim [] ('.' :: ·)).map
    fun c => if isWordChar c then c else '_')

/-- The name of the array. -/
def dataName (base : String) : String := base ++ "_data"

/-- The name of the constant. -/
def sizeName (base : String) : String := base ++ "_size"

/-- The source that defines the array and the constant. -/
def source (base : String) (bytes : List UInt8) : String :=
  let items := String.intercalate "," (bytes.map fun b => paddedHex 2 b.toNat)
  s!"extern \"C\" const unsigned char {dataName base}[] __attribute__((used)) = "
    ++ "\x7b" ++ items ++ "\x7d;\n"
    ++ s!"extern \"C\" const unsigned int {sizeName base} __attribute__((used)) = "
    ++ s!"sizeof({dataName base});\n"

/-- The header that declares the array and the constant. -/
def header (base : String) : String :=
  s!"extern \"C\" const unsigned char {dataName base}[];\n"
    ++ s!"extern \"C\" const unsigned int {sizeName base};\n"

end KernelProbe.Embedding
