import KernelProbe.Text.Digits

/-!
# Page table entries

An entry holds the physical base of the next table or page in bits 12 to 51, and flags in bits
0 to 8 and 63, at the same places on all levels.
-/

namespace KernelProbe.Paging

/-- The bits of an entry, or of the root register, that hold a physical base. -/
def baseMask : UInt64 := 0x000FFFFFFFFFF000

/-- The physical base in the root register. -/
def rootBase (cr3 : UInt64) : UInt64 :=
  cr3 &&& baseMask

/-- The flags of an entry. -/
inductive Flag
  | present
  | writable
  | user
  | writeThrough
  | cacheDisabled
  | accessed
  | dirty
  /-- The attribute table on the last level, the page size elsewhere. -/
  | patOrSize
  | global
  | noExecute
  deriving DecidableEq, Repr

namespace Flag

/-- The flags in the order of their bits. -/
def all : List Flag :=
  [present, writable, user, writeThrough, cacheDisabled, accessed, dirty, patOrSize, global,
    noExecute]

/-- The bit of an entry that holds the flag. -/
def bit : Flag → Nat
  | present => 0
  | writable => 1
  | user => 2
  | writeThrough => 3
  | cacheDisabled => 4
  | accessed => 5
  | dirty => 6
  | patOrSize => 7
  | global => 8
  | noExecute => 63

/-- The abbreviation of the flag in a rendered entry. -/
def abbreviation : Flag → String
  | present => "P"
  | writable => "RW"
  | user => "US"
  | writeThrough => "PWT"
  | cacheDisabled => "PCD"
  | accessed => "A"
  | dirty => "D"
  | patOrSize => "PAT/PS"
  | global => "G"
  | noExecute => "NX"

/-- The number with only this flag's bit set. -/
def mask (f : Flag) : UInt64 :=
  1 <<< f.bit.toUInt64

end Flag

/-- An entry of a page table, as it was when it was read. -/
structure Entry where
  /-- The entry's 64 bits. -/
  raw : UInt64
  deriving DecidableEq, Repr

namespace Entry

/-- Whether a flag is set. -/
def has (e : Entry) (f : Flag) : Bool :=
  e.raw &&& f.mask != 0

/-- The flags that are set, in the order of their bits. -/
def flags (e : Entry) : List Flag :=
  Flag.all.filter e.has

/-- The bits of the flags that are set. -/
def flagBits (e : Entry) : UInt64 :=
  e.flags.foldl (fun bits f => bits ||| f.mask) 0

/-- Whether the entry points to a table or page. -/
def present (e : Entry) : Bool :=
  e.has .present

/-- The physical base of the table or page that the entry points to. -/
def base (e : Entry) : UInt64 :=
  e.raw &&& baseMask

/-- The entry for display: its bits, its base and the abbreviations of its flags. -/
def render (e : Entry) : String :=
  let flags := String.intercalate " " (e.flags.map Flag.abbreviation)
  s!"{Text.paddedHex 16 e.raw.toNat} base={Text.hex e.base.toNat} [{flags}]"

end Entry

end KernelProbe.Paging
