import KernelProbe.Debugger.Script
import KernelProbe.Paging.Entry
import KernelProbe.Paging.Level

/-!
# Walking the page tables

A walk reads one entry per level from physical memory, starting at the table in the root
register. It ends early at an entry that cannot be read or is not present. All four levels are
always walked: an entry with the page size bit is followed like any other.
-/

namespace KernelProbe.Paging

open Debugger

/-- Why a virtual address has no physical one. -/
inductive Failure
  /-- The entry on this level is not present. -/
  | notMapped (level : Level)
  /-- The entry on this level, at this address, could not be read. -/
  | unreadable (level : Level) (address : UInt64) (cause : Error)
  deriving DecidableEq, Repr

/-- The wording of a failure. -/
def Failure.message : Failure → String
  | .notMapped level => s!"{level.name} entry not present"
  | .unreadable level address cause =>
    s!"failed to read {level.name} entry at physical address {Text.hex address.toNat}: "
      ++ cause.message

/-- The error that led to the failure. -/
def Failure.cause? : Failure → Option Error
  | .notMapped _ => none
  | .unreadable _ _ cause => some cause

/-- An entry that a walk has read. -/
structure Step where
  /-- The level of the entry. -/
  level : Level
  /-- The physical address at which it was read. -/
  address : UInt64
  /-- The entry. -/
  entry : Entry
  deriving DecidableEq, Repr

/-- The record of a walk. -/
structure Walk where
  /-- The address to translate. -/
  virtualAddress : UInt64
  /-- The entries that were read, in order. -/
  steps : List Step
  /-- The physical address, or why there is none. -/
  outcome : Except Failure UInt64

/-- The address of the entry for `va` in the table at `base`. -/
def entryAddress (level : Level) (base va : UInt64) : UInt64 :=
  base + level.index va * 8

/-- The physical address of `va` in the page at `base`. -/
def pageAddress (base va : UInt64) : UInt64 :=
  base ||| (va &&& 0xFFF)

/-- Walks the given levels from the table at `base`. -/
def walkLevels {H : Type} (va : UInt64) :
    List Level → (base : UInt64) → Script H (List Step × Except Failure UInt64)
  | [], base => pure ([], .ok (pageAddress base va))
  | level :: below, base => do
    let address := entryAddress level base va
    match ← readWord64 .physical address with
    | .error cause => pure ([], .error (.unreadable level address cause))
    | .ok raw =>
      let step : Step := ⟨level, address, ⟨raw⟩⟩
      if step.entry.present then
        let (steps, outcome) ← walkLevels va below step.entry.base
        pure (step :: steps, outcome)
      else pure ([step], .error (.notMapped level))

/-- Walks the page tables of the root register for a virtual address. -/
def walk {H : Type} (cr3 va : UInt64) : Script H Walk := do
  let (steps, outcome) ← walkLevels va Level.walkOrder (rootBase cr3)
  pure ⟨va, steps, outcome⟩

/-- The physical address of a virtual one. -/
def translate {H : Type} (cr3 va : UInt64) : Script H (Except Failure UInt64) := do
  return (← walk cr3 va).outcome

/-- A line for each entry that was read. -/
def Step.render (s : Step) : String :=
  let name := s.level.name
  String.ofList (List.replicate (4 - name.length) ' ')
    ++ s!"{name} @{Text.hex s.address.toNat}: {s.entry.render}"

/-- A walk for display: a line for each entry and one for the outcome. -/
def Walk.render (w : Walk) : List String :=
  let va := s!"Virtual address {Text.hex w.virtualAddress.toNat}"
  let last :=
    match w.outcome with
    | .ok p => s!"{va} translates to physical address {Text.hex p.toNat}"
    | .error e => s!"{va} is not mapped: {e.message}"
  w.steps.map Step.render ++ [last]

end KernelProbe.Paging
