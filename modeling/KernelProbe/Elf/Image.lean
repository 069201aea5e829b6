/-!
# ELF files

An ELF file is a sequence of bytes with a header that says how wide its numbers are and in
which order their bytes come. `Layout` says where the numbers stand in the headers and symbols
of either width, and `Image` reads them. `FormatError` has all that can be wrong with a file.
-/

namespace KernelProbe.Elf

/-- What is wrong with a file. -/
inductive FormatError
  /-- The file is too short to have a mark. -/
  | noMagic
  /-- The mark at the start is unknown. -/
  | unknownMagic
  /-- The mark is that of another format. -/
  | unsupportedFormat
  /-- The file is too short for the header. -/
  | header
  /-- The header has an unknown byte order or version. -/
  | unsupportedHeader
  | programHeaderSize
  | programHeaders
  /-- The number of program headers is in a section header that is not there. -/
  | noSectionForProgramHeaders
  | sectionHeaderSize
  | firstSectionHeader
  | sectionHeaders
  /-- The index of the section names is in a section header that is not there. -/
  | noSectionForSectionNames
  | noSectionNames
  | sectionNames
  | sectionNamesSize
  | symbols
  | sectionIndex
  | stringSectionType
  | stringSection
  | symbolSections
  | relocatedSection
  | relocatedRelocations
  deriving DecidableEq, Repr

/-- The wording of an error. -/
def FormatError.message : FormatError → String
  | noMagic => "Could not read file magic"
  | unknownMagic => "Unknown file magic"
  | unsupportedFormat => "Unsupported file format"
  | header => "Invalid ELF header size or alignment"
  | unsupportedHeader => "Unsupported ELF header"
  | programHeaderSize => "Invalid ELF program header entry size"
  | programHeaders => "Invalid ELF program header size or alignment"
  | noSectionForProgramHeaders => "Missing ELF section headers for e_phnum overflow"
  | sectionHeaderSize => "Invalid ELF section header entry size"
  | firstSectionHeader => "Invalid ELF section header offset or size"
  | sectionHeaders => "Invalid ELF section header offset/size/alignment"
  | noSectionForSectionNames => "Missing ELF section headers for e_shstrndx overflow"
  | noSectionNames => "Missing ELF e_shstrndx"
  | sectionNames => "Invalid ELF e_shstrndx"
  | sectionNamesSize => "Invalid ELF shstrtab size"
  | symbols => "Invalid ELF symbol table data"
  | sectionIndex => "Invalid ELF section index"
  | stringSectionType => "Invalid ELF string section type"
  | stringSection => "Invalid ELF string section offset or size"
  | symbolSections => "Invalid ELF symtab_shndx data"
  | relocatedSection => "Invalid ELF sh_info for relocation section"
  | relocatedRelocations => "Unsupported ELF sh_info for relocation section"

/-- The place of a number in a record. -/
structure Field where
  offset : Nat
  width : Nat

/-- The places of numbers in the records of files of one width. -/
structure Layout where
  headerSize : Nat
  programHeadersAt : Field
  sectionHeadersAt : Field
  programHeaderSizeAt : Field
  programHeaderCountAt : Field
  sectionHeaderSizeAt : Field
  sectionHeaderCountAt : Field
  sectionNamesAt : Field
  programHeaderSize : Nat
  sectionHeaderSize : Nat
  sectionKind : Field
  sectionOffset : Field
  sectionSize : Field
  sectionLink : Field
  sectionInfo : Field
  symbolSize : Nat
  symbolName : Field
  symbolInfo : Field
  symbolSection : Field
  symbolValue : Field
  symbolLength : Field

/-- The layout of files with numbers of 32 bits. -/
def Layout.narrow : Layout where
  headerSize := 52
  programHeadersAt := ⟨28, 4⟩
  sectionHeadersAt := ⟨32, 4⟩
  programHeaderSizeAt := ⟨42, 2⟩
  programHeaderCountAt := ⟨44, 2⟩
  sectionHeaderSizeAt := ⟨46, 2⟩
  sectionHeaderCountAt := ⟨48, 2⟩
  sectionNamesAt := ⟨50, 2⟩
  programHeaderSize := 32
  sectionHeaderSize := 40
  sectionKind := ⟨4, 4⟩
  sectionOffset := ⟨16, 4⟩
  sectionSize := ⟨20, 4⟩
  sectionLink := ⟨24, 4⟩
  sectionInfo := ⟨28, 4⟩
  symbolSize := 16
  symbolName := ⟨0, 4⟩
  symbolInfo := ⟨12, 1⟩
  symbolSection := ⟨14, 2⟩
  symbolValue := ⟨4, 4⟩
  symbolLength := ⟨8, 4⟩

/-- The layout of files with numbers of 64 bits. -/
def Layout.wide : Layout where
  headerSize := 64
  programHeadersAt := ⟨32, 8⟩
  sectionHeadersAt := ⟨40, 8⟩
  programHeaderSizeAt := ⟨54, 2⟩
  programHeaderCountAt := ⟨56, 2⟩
  sectionHeaderSizeAt := ⟨58, 2⟩
  sectionHeaderCountAt := ⟨60, 2⟩
  sectionNamesAt := ⟨62, 2⟩
  programHeaderSize := 56
  sectionHeaderSize := 64
  sectionKind := ⟨4, 4⟩
  sectionOffset := ⟨24, 8⟩
  sectionSize := ⟨32, 8⟩
  sectionLink := ⟨40, 4⟩
  sectionInfo := ⟨44, 4⟩
  symbolSize := 24
  symbolName := ⟨0, 4⟩
  symbolInfo := ⟨4, 1⟩
  symbolSection := ⟨6, 2⟩
  symbolValue := ⟨8, 8⟩
  symbolLength := ⟨16, 8⟩

/-- A file with its layout and the order of the bytes of its numbers. -/
structure Image where
  bytes : Array UInt8
  layout : Layout
  /-- Whether numbers have their highest byte first. -/
  bigEndian : Bool

namespace Image

/-- Whether the file has a range of bytes. -/
def covers (image : Image) (offset size : Nat) : Bool :=
  offset + size ≤ image.bytes.size

/-- A number of a record; bytes behind the end of the file count as zero. -/
def number (image : Image) (record : Nat) (f : Field) : Nat :=
  let bytes := (List.range f.width).map fun i =>
    ((image.bytes[record + f.offset + i]?).getD 0).toNat
  (if image.bigEndian then bytes else bytes.reverse).foldl (fun n b => n * 256 + b) 0

/-- A number of the header. -/
def headerNumber (image : Image) (f : Layout → Field) : Nat :=
  image.number 0 (f image.layout)

/-- The bytes from a place up to the next zero before `stop`. -/
def textAt? (image : Image) (start stop : Nat) : Option (List UInt8) :=
  if start ≤ stop ∧ stop ≤ image.bytes.size then
    let part := (image.bytes.extract start stop).toList
    if part.contains 0 then some (part.takeWhile (· ≠ 0)) else none
  else none

/-- The marks of other formats at the start of a file. -/
def otherMagics : List (List UInt8) :=
  ["!<arch>\n", "!<thin>\n", "dyld_v1 "].map (·.toUTF8.toList)

/-- Reads the header of a file. -/
def ofBytes (bytes : Array UInt8) : Except FormatError Image :=
  let start := (bytes.extract 0 8).toList
  if bytes.size < 16 then .error .noMagic
  else if otherMagics.contains start then .error .unsupportedFormat
  else
    match start with
    | [0x7F, 0x45, 0x4C, 0x46, width, order, version, _] =>
      if width ≠ 1 ∧ width ≠ 2 then .error .unknownMagic
      else
        let layout := if width = 1 then Layout.narrow else Layout.wide
        if bytes.size < layout.headerSize then .error .header
        else if (order = 1 ∨ order = 2) ∧ version = 1 then
          .ok ⟨bytes, layout, order = 2⟩
        else .error .unsupportedHeader
    | _ => .error .unknownMagic

end Image

end KernelProbe.Elf
