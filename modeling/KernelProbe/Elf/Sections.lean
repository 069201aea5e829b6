import KernelProbe.Elf.Image

/-!
# Sections of ELF files

The section headers of a file are a table. No section is referred to by the index 0; numbers
that do not fit in the file's header stand in the section header there.
-/

namespace KernelProbe.Elf

/-- A section header. -/
structure Section where
  kind : Nat
  offset : Nat
  size : Nat
  /-- The index of a section that belongs to this one. -/
  link : Nat
  /-- Another number, whose meaning depends on the kind. -/
  info : Nat
  deriving DecidableEq, Repr

/-- The kinds of sections that matter here. -/
def Section.isSymbols (s : Section) : Bool := s.kind = 2

/-- Whether a section has texts. -/
def Section.isStrings (s : Section) : Bool := s.kind = 3

/-- Whether a section has relocations. -/
def Section.isRelocations (s : Section) : Bool := s.kind = 4 || s.kind = 9

/-- Whether a section has no bytes in the file. -/
def Section.isEmptyInFile (s : Section) : Bool := s.kind = 8

/-- Whether a section has the symbols of dynamic linking. -/
def Section.isDynamicSymbols (s : Section) : Bool := s.kind = 11

/-- Whether a section has section indices of symbols. -/
def Section.isSymbolSections (s : Section) : Bool := s.kind = 18

namespace Image

/-- The section header at an offset. -/
def sectionAt (image : Image) (offset : Nat) : Section where
  kind := image.number offset image.layout.sectionKind
  offset := image.number offset image.layout.sectionOffset
  size := image.number offset image.layout.sectionSize
  link := image.number offset image.layout.sectionLink
  info := image.number offset image.layout.sectionInfo

/-- The header of section 0, unless there are no section headers. -/
def firstSection (image : Image) : Except FormatError (Option Section) :=
  let offset := image.headerNumber (·.sectionHeadersAt)
  if offset = 0 then .ok none
  else if image.headerNumber (·.sectionHeaderSizeAt) ≠ image.layout.sectionHeaderSize then
    .error .sectionHeaderSize
  else if image.covers offset image.layout.sectionHeaderSize then
    .ok (some (image.sectionAt offset))
  else .error .firstSectionHeader

/-- The number of program headers. -/
def programHeaderCount (image : Image) : Except FormatError Nat := do
  let n := image.headerNumber (·.programHeaderCountAt)
  if n < 0xFFFF then pure n
  else
    match ← image.firstSection with
    | some s => pure s.info
    | none => throw .noSectionForProgramHeaders

/-- Checks that the program headers are in the file. -/
def checkProgramHeaders (image : Image) : Except FormatError Unit := do
  let offset := image.headerNumber (·.programHeadersAt)
  if offset ≠ 0 then
    let count ← image.programHeaderCount
    if count ≠ 0 then
      if image.headerNumber (·.programHeaderSizeAt) ≠ image.layout.programHeaderSize then
        throw .programHeaderSize
      if !image.covers offset (count * image.layout.programHeaderSize) then
        throw .programHeaders

/-- The number of section headers. -/
def sectionCount (image : Image) : Except FormatError Nat := do
  let n := image.headerNumber (·.sectionHeaderCountAt)
  if 0 < n then pure n
  else return ((← image.firstSection).map (·.size)).getD 0

/-- The section headers. -/
def sections (image : Image) : Except FormatError (Array Section) := do
  let offset := image.headerNumber (·.sectionHeadersAt)
  if offset = 0 then pure #[]
  else
    let count ← image.sectionCount
    if count = 0 then pure #[]
    else if image.headerNumber (·.sectionHeaderSizeAt) ≠ image.layout.sectionHeaderSize then
      throw .sectionHeaderSize
    else if image.covers offset (count * image.layout.sectionHeaderSize) then
      pure ((Array.range count).map fun i =>
        image.sectionAt (offset + i * image.layout.sectionHeaderSize))
    else throw .sectionHeaders

/-- The index of the section with the names of sections. -/
def sectionNamesIndex (image : Image) : Except FormatError Nat := do
  let n := image.headerNumber (·.sectionNamesAt)
  if n ≠ 0xFFFF then pure n
  else
    match ← image.firstSection with
    | some s => pure s.link
    | none => throw .noSectionForSectionNames

/-- Checks that the section with the names of sections is there. -/
def checkSectionNames (image : Image) (sections : Array Section) :
    Except FormatError Unit := do
  if !sections.isEmpty then
    let index ← image.sectionNamesIndex
    if index = 0 then throw .noSectionNames
    match sections[index]? with
    | none => throw .sectionNames
    | some s =>
      if !s.isEmptyInFile && UInt64.size ≤ s.offset + s.size then throw .sectionNamesSize

end Image

end KernelProbe.Elf
