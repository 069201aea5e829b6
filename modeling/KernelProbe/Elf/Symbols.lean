import KernelProbe.Elf.Sections
import KernelProbe.Symbols.Table
import KernelProbe.Text.Utf8

/-!
# Symbols of ELF files

The symbols of a file are those of its symbol section that are defined in a section and are
functions, objects, or untyped with a size. A symbol without a readable name is left out.
-/

namespace KernelProbe.Elf

open Symbols

/-- The texts of a section, by the range of its bytes; none if there is no such section. -/
abbrev Strings := Option (Nat × Nat)

/-- A symbol section: the place and number of its symbols, and its texts. -/
structure SymbolSection where
  /-- The index of the section; also 0 if there is none. -/
  index : Nat
  offset : Nat
  count : Nat
  strings : Strings

/-- No symbol section. -/
def SymbolSection.none : SymbolSection := ⟨0, 0, 0, .none⟩

/-- A section with a given index; section 0 is none. -/
def sectionAt? (sections : Array Section) (index : Nat) : Except FormatError Section :=
  match if index = 0 then .none else sections[index]? with
  | some s => .ok s
  | .none => .error .sectionIndex

/-- The texts of the section with a given index. -/
def stringsAt (sections : Array Section) (index : Nat) : Except FormatError Strings := do
  if index = 0 then pure .none
  else
    let s ← sectionAt? sections index
    if !s.isStrings then throw .stringSectionType
    if UInt64.size ≤ s.offset + s.size then throw .stringSection
    pure (some (s.offset, s.offset + s.size))

/-- The size of the section index of a symbol. -/
def sectionIndexSize : Nat := 4

namespace Image

/-- Whether a section is a sequence of records of a given size, all in the file. -/
def hasRecords (image : Image) (s : Section) (size : Nat) : Bool :=
  image.covers s.offset s.size && s.size % size = 0

/-- The first section that `isWanted`, be it section 0, read as a symbol section. -/
def symbolSection (image : Image) (sections : Array Section) (isWanted : Section → Bool) :
    Except FormatError SymbolSection := do
  match sections.toList.findIdx? isWanted, sections.toList.find? isWanted with
  | some index, some s =>
    if !image.hasRecords s image.layout.symbolSize then throw .symbols
    let strings ← stringsAt sections s.link
    for t in sections do
      if t.isSymbolSections && t.link = index && !image.hasRecords t sectionIndexSize then
        throw .symbolSections
    pure ⟨index, s.offset, s.size / image.layout.symbolSize, strings⟩
  | _, _ => pure .none

/-- Checks that the relocations for the symbols of a section apply to sections that can be
    relocated. -/
def checkRelocations (sections : Array Section) (symbolIndex : Nat) :
    Except FormatError Unit :=
  sections.toList.reverse.forM fun s => do
    if s.isRelocations && s.link = symbolIndex && s.info ≠ 0 then
      match sections[s.info]? with
      | .none => throw .relocatedSection
      | some target => if target.isRelocations then throw .relocatedRelocations

/-- Whether the symbol at an offset is defined and of a kind that has a place in a trace. -/
def isDefinition (image : Image) (offset : Nat) : Bool :=
  let place := image.number offset image.layout.symbolSection
  let kind := image.number offset image.layout.symbolInfo % 16
  let isDefined := place ≠ 0 && (place < 0xFF00 || place = 0xFFFF)
  let hasSize := image.number offset image.layout.symbolLength ≠ 0
  isDefined && (kind = 1 || kind = 2 || (kind = 0 && hasSize))

/-- The name of the symbol at an offset. -/
def symbolName? (image : Image) (strings : Strings) (offset : Nat) : Option String := do
  let (start, stop) ← strings
  let bytes ← image.textAt? (start + image.number offset image.layout.symbolName) stop
  let name ← Text.Utf8.decode? bytes
  if name.isEmpty then .none else some (String.ofList name)

/-- The symbol at an offset, if it is one of the table. -/
def symbol? (image : Image) (strings : Strings) (offset : Nat) : Option Symbol :=
  if image.isDefinition offset then
    (image.symbolName? strings offset).map fun name =>
      .new name (image.number offset image.layout.symbolValue).toUInt64
        (image.number offset image.layout.symbolLength).toUInt64
  else .none

end Image

/-- The symbols of a file. -/
def readSymbols (bytes : Array UInt8) : Except FormatError Table := do
  let image ← Image.ofBytes bytes
  image.checkProgramHeaders
  let sections ← image.sections
  image.checkSectionNames sections
  let found ← image.symbolSection sections Section.isSymbols
  let _ ← image.symbolSection sections Section.isDynamicSymbols
  Image.checkRelocations sections found.index
  let offsets := (List.range found.count).drop 1 |>.map fun i =>
    found.offset + i * image.layout.symbolSize
  pure (.ofSymbols (offsets.filterMap (image.symbol? found.strings)))

/-- The wording of the error for a file that cannot be read. -/
def failureText (e : FormatError) : String :=
  s!"Failed to parse ELF file: {e.message}"

end KernelProbe.Elf
