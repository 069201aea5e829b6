import KernelProbe.Interaction.Dict
import KernelProbe.Symbols.Symbol

/-!
# Symbol tables

A table holds symbols in the order of their addresses; symbols with one address keep the order
in which they came. A name that several symbols have belongs to the last of them, and so does
an address that several symbols are nearest to. The nearest symbol is found by halving, which
needs the order: a table has no way to be without it.
-/

namespace KernelProbe.Symbols

/-- The number of elements that satisfy `p`, where they stand in front of all others. It is found
    by halving: the element in the middle tells on which side of it the others begin. -/
def partitionPoint {α : Type} (p : α → Bool) (xs : List α) : Nat :=
  match _h : xs.drop (xs.length / 2) with
  | [] => 0
  | x :: behind =>
    if p x then xs.length / 2 + 1 + partitionPoint p behind
    else partitionPoint p (xs.take (xs.length / 2))
  termination_by xs.length
  decreasing_by
    all_goals
      have := congrArg List.length _h
      simp only [List.length_drop, List.length_cons, List.length_take] at this ⊢
      omega

/-- Whether a symbol may stand before another one. -/
def Symbol.precedes (s t : Symbol) : Bool :=
  s.address ≤ t.address

theorem Symbol.precedes_trans (s t u : Symbol) (hst : s.precedes t) (htu : t.precedes u) :
    s.precedes u :=
  decide_eq_true (UInt64.le_trans (of_decide_eq_true hst) (of_decide_eq_true htu))

theorem Symbol.precedes_total (s t : Symbol) : s.precedes t || t.precedes s := by
  simpa [precedes] using UInt64.le_total s.address t.address

/-- A symbol table. -/
structure Table where
  /-- The symbols in the order of their addresses. -/
  symbols : List Symbol
  sorted : symbols.Pairwise fun s t => s.address ≤ t.address
  deriving Repr

namespace Table

/-- The table of some symbols. -/
def ofSymbols (symbols : List Symbol) : Table where
  symbols := symbols.mergeSort Symbol.precedes
  sorted := (List.pairwise_mergeSort Symbol.precedes_trans Symbol.precedes_total symbols).imp
    of_decide_eq_true

/-- The place of the last symbol with a name, for every name. -/
def index (t : Table) : Dict String Nat :=
  t.symbols.zipIdx.foldl (fun d e => d.insert e.1.name e.2) .empty

/-- The address of the last symbol with a name. -/
def resolve? (t : Table) (name : String) : Option UInt64 := do
  let i ← t.index.find? name
  let s ← t.symbols[i]?
  some s.address

/-- The last symbol whose address is not above the given one. -/
def nearest? (t : Table) (address : UInt64) : Option Symbol :=
  match partitionPoint (·.address ≤ address) t.symbols with
  | 0 => none
  | n + 1 => t.symbols[n]?

/-- The number of symbols. -/
def size (t : Table) : Nat :=
  t.symbols.length

/-- Whether there are no symbols. -/
def isEmpty (t : Table) : Bool :=
  t.symbols.isEmpty

end Table

end KernelProbe.Symbols
