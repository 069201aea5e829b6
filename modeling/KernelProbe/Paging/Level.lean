/-!
# Paging levels

A virtual address is translated in four levels. Each level picks one of the 512 entries of a
table by nine bits of the address, the first level by the highest ones.
-/

namespace KernelProbe.Paging

/-- The levels of the page tables, outermost first. -/
inductive Level
  | pml4
  | pdpt
  | pdt
  | pt
  deriving DecidableEq, Repr

namespace Level

/-- The levels in the order in which a walk goes through them. -/
def walkOrder : List Level := [pml4, pdpt, pdt, pt]

/-- The lowest bit of a virtual address that belongs to the level's index. -/
def shift : Level → Nat
  | pml4 => 39
  | pdpt => 30
  | pdt => 21
  | pt => 12

/-- The index into the level's table. -/
def index (l : Level) (va : UInt64) : UInt64 :=
  (va >>> l.shift.toUInt64) &&& 0x1FF

/-- The name of the level's table. -/
def name : Level → String
  | pml4 => "PML4"
  | pdpt => "PDPT"
  | pdt => "PDT"
  | pt => "PT"

end Level

end KernelProbe.Paging
