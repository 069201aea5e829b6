/-!
# Dictionaries

A finite map as the list of its entries, in the order in which the keys came in. Putting a
value at a key that is there takes the old entry out first, so a key has one entry.
-/

namespace KernelProbe

/-- A finite map from `κ` to `α`. -/
structure Dict (κ α : Type) where
  /-- The keys with their values, oldest first. -/
  entries : List (κ × α)

namespace Dict

variable {κ α : Type} [DecidableEq κ]

/-- The map without entries. -/
def empty : Dict κ α := ⟨[]⟩

/-- The value at a key. -/
def find? (d : Dict κ α) (k : κ) : Option α :=
  (d.entries.find? (·.1 = k)).map (·.2)

/-- The map without the entry at a key. -/
def erase (d : Dict κ α) (k : κ) : Dict κ α :=
  ⟨d.entries.filter (·.1 ≠ k)⟩

/-- The map with a value at a key, in place of the one that was there. -/
def insert (d : Dict κ α) (k : κ) (a : α) : Dict κ α :=
  ⟨(d.erase k).entries ++ [(k, a)]⟩

/-- Whether the map has an entry at a key. -/
def has (d : Dict κ α) (k : κ) : Bool :=
  (d.find? k).isSome

/-- The number of entries. -/
def size (d : Dict κ α) : Nat :=
  d.entries.length

omit [DecidableEq κ] in
/-- The values, oldest first. -/
def values (d : Dict κ α) : List α :=
  d.entries.map (·.2)

@[simp]
theorem find?_empty (k : κ) : (empty : Dict κ α).find? k = none := rfl

theorem find?_erase (d : Dict κ α) (k l : κ) :
    (d.erase k).find? l = if k = l then none else d.find? l := by
  unfold find? erase
  induction d.entries with
  | nil => simp
  | cons e r ih =>
    by_cases hk : e.1 = k <;> by_cases hl : e.1 = l <;> by_cases hkl : k = l <;>
      simp_all

theorem find?_insert (d : Dict κ α) (k l : κ) (a : α) :
    (d.insert k a).find? l = if k = l then some a else d.find? l := by
  have h := find?_erase d k l
  unfold find? at h
  unfold find? insert
  rw [List.find?_append, Option.map_or, h]
  by_cases hkl : k = l <;> simp [hkl]

end Dict

end KernelProbe
