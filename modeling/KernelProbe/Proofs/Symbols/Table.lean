import Mathlib.Data.List.Basic
import Mathlib.Order.Bounds.Defs
import KernelProbe.Proofs.Interaction.Dict
import KernelProbe.Symbols.Table

/-!
# What a table finds

A table is built by a sort that keeps the order of equal elements, and asked by halving and by an
index of places.

* `partitionPoint_eq_countP`: halving finds the border between the elements that satisfy a
  condition and the others, wherever it lies and however long the run of equal elements is;
* `filter_ofSymbols`: the symbols at one address stand in the order in which they came;
* `sorted_with_nearest`: a table has the symbols that it was made of, in order, and the nearest
  symbol to an address is the last of those with the greatest address up to it;
* `getLast?_filter_eq_some_iff`: where values ascend, to be the last of some kind is to have the
  greatest value;
* `names_resolved`: hence a name, for which the last symbol with it is kept, stands for the greatest
  address of a symbol with it.
-/

namespace KernelProbe.Symbols

/-! ## Halving -/

section Partition

variable {α : Type} {p : α → Bool} {xs : List α}

/-- The elements that satisfy `p` stand in front of all others. -/
def Partitioned (p : α → Bool) (xs : List α) : Prop :=
  xs.Pairwise fun x y => p y → p x

theorem partitionPoint_eq_countP (h : Partitioned p xs) : partitionPoint p xs = xs.countP p := by
  fun_induction partitionPoint p xs with
  | case1 xs hm =>
    have hn : xs.length ≤ xs.length / 2 := List.drop_eq_nil_iff.1 hm
    rw [List.eq_nil_of_length_eq_zero (by omega : xs.length = 0), List.countP_nil]
  | case2 xs x behind hm hx ih =>
    -- All in front of the middle satisfy `p` with it.
    have hs : xs.take (xs.length / 2) ++ x :: behind = xs := hm ▸ List.take_append_drop _ xs
    rw [Partitioned, ← hs, List.pairwise_append, List.pairwise_cons] at h
    have hfront : (xs.take (xs.length / 2)).countP p = xs.length / 2 := by
      rw [List.countP_eq_length.2 fun y hy => h.2.2 y hy x List.mem_cons_self hx,
        List.length_take, Nat.min_eq_left (Nat.div_le_self _ 2)]
    calc xs.length / 2 + 1 + partitionPoint p behind
        = xs.length / 2 + (x :: behind).countP p := by
          rw [ih h.2.1.2, List.countP_cons_of_pos hx, Nat.add_assoc, Nat.add_comm 1]
      _ = xs.countP p := by rw [← hfront, ← List.countP_append, hs]
  | case3 xs x behind hm hx ih =>
    -- None from the middle on satisfies it.
    have hs : xs.take (xs.length / 2) ++ x :: behind = xs := hm ▸ List.take_append_drop _ xs
    rw [Partitioned, ← hs, List.pairwise_append, List.pairwise_cons] at h
    have hbehind : (x :: behind).countP p = 0 :=
      List.countP_eq_zero.2 (List.forall_mem_cons.2 ⟨hx, fun y hy hp => hx (h.2.1.1 y hy hp)⟩)
    calc partitionPoint p (xs.take (xs.length / 2))
        = (xs.take (xs.length / 2)).countP p + (x :: behind).countP p := by
          rw [ih h.1, hbehind, Nat.add_zero]
      _ = xs.countP p := by rw [← List.countP_append, hs]

theorem Partitioned.filter_append (h : Partitioned p xs) :
    xs.filter p ++ xs.filter (!p ·) = xs := by
  induction xs with
  | nil => rfl
  | cons x xs ih =>
    rw [Partitioned, List.pairwise_cons] at h
    by_cases hx : p x
    · rw [List.filter_cons_of_pos hx, List.filter_cons_of_neg (by simpa using hx), List.cons_append,
        ih h.2]
    · have hxs : ∀ y ∈ xs, ¬p y := fun y hy hp => hx (h.1 y hy hp)
      rw [List.filter_cons_of_neg hx, List.filter_cons_of_pos (by simpa using hx),
        List.filter_eq_nil_iff.2 hxs, List.filter_eq_self.2 fun y hy => by simpa using hxs y hy,
        List.nil_append]

end Partition

/-! ## The last of some kind -/

section Last

variable {α β : Type} [LE β] [Std.IsPartialOrder β] {f : α → β} {p : α → Bool} {xs : List α}
  {x : α} {b : β}

/-- Where the values ascend, the last element of some kind has the greatest value of this kind. -/
theorem le_of_getLast?_filter (hs : xs.Pairwise fun x y => f x ≤ f y)
    (h : (xs.filter p).getLast? = some x) : ∀ y ∈ xs, p y → f y ≤ f x := by
  intro y hy hp
  obtain ⟨before, hb⟩ := List.getLast?_eq_some_iff.1 h
  have hsorted := hs.filter p
  have hmem : y ∈ xs.filter p := List.mem_filter.2 ⟨hy, hp⟩
  rw [hb, List.pairwise_append] at hsorted
  rw [hb, List.mem_append, List.mem_singleton] at hmem
  rcases hmem with hmem | rfl
  · exact hsorted.2.2 y hmem x (List.mem_singleton_self x)
  · exact Std.le_refl (f y)

theorem getLast?_filter_eq_some_iff (hs : xs.Pairwise fun x y => f x ≤ f y) :
    (xs.filter p).getLast?.map f = some b ↔ IsGreatest {c | ∃ x ∈ xs, p x ∧ f x = c} b := by
  have greatest {c : β} (h : (xs.filter p).getLast?.map f = some c) :
      IsGreatest {c | ∃ x ∈ xs, p x ∧ f x = c} c := by
    obtain ⟨x, hx, rfl⟩ := Option.map_eq_some_iff.1 h
    have hm := List.mem_filter.1 (List.mem_of_getLast? hx)
    refine ⟨⟨x, hm.1, hm.2, rfl⟩, ?_⟩
    rintro _ ⟨y, hy, hp, rfl⟩
    exact le_of_getLast?_filter hs hx y hy hp
  refine ⟨greatest, fun h => ?_⟩
  obtain ⟨x, hx, hp, -⟩ := h.1
  cases hl : (xs.filter p).getLast? with
  | none =>
    rw [List.getLast?_eq_none_iff, List.filter_eq_nil_iff] at hl
    exact absurd hp (hl x hx)
  | some y =>
    have hy := greatest (congrArg (Option.map f) hl)
    exact congrArg some (Std.le_antisymm (h.2 hy.1) (hy.2 h.1))

end Last

namespace Table

variable {symbols : List Symbol} {s : Symbol} {a : UInt64} {name : String}

/-- The symbols up to an address are the first ones. -/
theorem partitioned (t : Table) (a : UInt64) : Partitioned (·.address ≤ a) t.symbols :=
  t.sorted.imp fun hst ht => decide_eq_true (UInt64.le_trans hst (of_decide_eq_true ht))

/-- Halving finds the last of the symbols up to an address. -/
theorem nearest?_eq (t : Table) (a : UInt64) :
    t.nearest? a = (t.symbols.filter (·.address ≤ a)).getLast? := by
  have hs := (t.partitioned a).filter_append
  rw [nearest?, partitionPoint_eq_countP (t.partitioned a), List.countP_eq_length_filter,
    List.getLast?_eq_getElem?]
  generalize t.symbols.filter (·.address ≤ a) = front at hs ⊢
  cases hn : front.length with
  | zero => simp [List.eq_nil_of_length_eq_zero hn]
  | succ n =>
    dsimp only
    rw [← hs, List.getElem?_append_left (by omega), Nat.add_sub_cancel]

/-- The index leads to the last symbol with the name. -/
theorem find?_index (t : Table) (name : String) : t.index.find? name =
    (t.symbols.zipIdx.filter (·.1.name = name)).getLast?.map (·.2) := by
  rw [index, Dict.find?_foldl_insert (fun e : Symbol × Nat => e.1.name), Dict.find?_empty,
    Option.or_none]

theorem resolve?_eq (t : Table) (name : String) :
    t.resolve? name = (t.symbols.filter (·.name = name)).getLast?.map (·.address) := by
  have hs : t.symbols.filter (·.name = name) =
      (t.symbols.zipIdx.filter (·.1.name = name)).map (·.1) := by
    calc t.symbols.filter (·.name = name)
        = (t.symbols.zipIdx.map (·.1)).filter (·.name = name) := by rw [List.zipIdx_map_fst]
      _ = (t.symbols.zipIdx.filter (·.1.name = name)).map (·.1) := List.filter_map
  rw [resolve?, find?_index, hs, List.getLast?_map]
  cases he : (t.symbols.zipIdx.filter (·.1.name = name)).getLast? with
  | none => rfl
  | some e =>
    have hm : e ∈ t.symbols.zipIdx := (List.mem_filter.1 (List.mem_of_getLast? he)).1
    have hi : t.symbols[e.2]? = some e.1 := List.mem_zipIdx_iff_getElem?.1 hm
    simp [hi]

/-! ## The order of a table -/

theorem perm_ofSymbols (symbols : List Symbol) : (ofSymbols symbols).symbols.Perm symbols :=
  List.mergeSort_perm symbols _

theorem mem_ofSymbols : s ∈ (ofSymbols symbols).symbols ↔ s ∈ symbols :=
  (perm_ofSymbols symbols).mem_iff

/-- Sorting by address leaves the symbols at one address in their order. -/
theorem filter_ofSymbols (symbols : List Symbol) (a : UInt64) :
    (ofSymbols symbols).symbols.filter (·.address = a) = symbols.filter (·.address = a) := by
  have hsorted : (symbols.filter (·.address = a)).Pairwise fun s t => s.precedes t := by
    refine List.pairwise_of_forall_mem_list fun s hs t ht => ?_
    rw [List.mem_filter, decide_eq_true_eq] at hs ht
    exact decide_eq_true (UInt64.le_of_eq (hs.2.trans ht.2.symm))
  have hsub := (List.sublist_mergeSort Symbol.precedes_trans Symbol.precedes_total hsorted
    List.filter_sublist).filter (·.address = a)
  rw [List.filter_filter] at hsub
  simp only [Bool.and_self] at hsub
  exact (hsub.eq_of_length ((perm_ofSymbols symbols).filter _).length_eq.symm).symm

/-! ## The nearest symbol -/

/-- The symbol that is nearest to an address: no symbol up to the address has a greater address,
    and of those with the same address it came last. -/
structure IsNearest (symbols : List Symbol) (a : UInt64) (s : Symbol) : Prop where
  le : s.address ≤ a
  greatest : ∀ t ∈ symbols, t.address ≤ a → t.address ≤ s.address
  last : (symbols.filter (·.address = s.address)).getLast? = some s

theorem IsNearest.mem (h : IsNearest symbols a s) : s ∈ symbols :=
  (List.mem_filter.1 (List.mem_of_getLast? h.last)).1

theorem IsNearest.unique {t : Symbol} (hs : IsNearest symbols a s) (ht : IsNearest symbols a t) :
    s = t := by
  have ha : s.address = t.address :=
    UInt64.le_antisymm (ht.greatest s hs.mem hs.le) (hs.greatest t ht.mem ht.le)
  have h := hs.last
  rw [ha, ht.last] at h
  exact (Option.some.inj h).symm

theorem nearest?_eq_none_iff :
    (ofSymbols symbols).nearest? a = none ↔ ∀ s ∈ symbols, a < s.address := by
  simp [nearest?_eq, mem_ofSymbols]

theorem isNearest_of_nearest? (h : (ofSymbols symbols).nearest? a = some s) :
    IsNearest symbols a s := by
  rw [nearest?_eq] at h
  have hle : s.address ≤ a :=
    of_decide_eq_true (List.mem_filter.1 (List.mem_of_getLast? h)).2
  refine ⟨hle, fun t ht hta => ?_, ?_⟩
  · exact le_of_getLast?_filter (ofSymbols symbols).sorted h t (mem_ofSymbols.2 ht)
      (decide_eq_true hta)
  · have hf : (ofSymbols symbols).symbols.filter (·.address = s.address) =
        ((ofSymbols symbols).symbols.filter (·.address ≤ a)).filter (·.address = s.address) := by
      rw [List.filter_filter]
      refine List.filter_congr fun t _ => ?_
      by_cases ht : t.address = s.address <;> simp [ht, hle]
    obtain ⟨before, hb⟩ := List.getLast?_eq_some_iff.1 h
    rw [← filter_ofSymbols, hf, hb, List.filter_append, List.filter_cons_of_pos (by simp),
      List.filter_nil, List.getLast?_concat]

theorem nearest?_eq_some_iff :
    (ofSymbols symbols).nearest? a = some s ↔ IsNearest symbols a s := by
  refine ⟨isNearest_of_nearest?, fun h => ?_⟩
  cases hn : (ofSymbols symbols).nearest? a with
  | none => exact absurd (nearest?_eq_none_iff.1 hn s h.mem) (UInt64.not_lt.2 h.le)
  | some t => rw [(isNearest_of_nearest? hn).unique h]

/-- A table has the symbols that it was made of, in the order of their addresses and, at one
    address, in the order in which they came. No symbol is nearest to an address below all of them;
    to any other address the nearest is the last symbol at the greatest address up to it. -/
theorem sorted_with_nearest (symbols : List Symbol) :
    (ofSymbols symbols).symbols.Perm symbols ∧
      (ofSymbols symbols).symbols.Pairwise (fun s t => s.address ≤ t.address) ∧
      (∀ a, (ofSymbols symbols).symbols.filter (·.address = a) =
        symbols.filter (·.address = a)) ∧
      ∀ a, ((ofSymbols symbols).nearest? a = none ↔ ∀ s ∈ symbols, a < s.address) ∧
        ∀ s, (ofSymbols symbols).nearest? a = some s ↔ IsNearest symbols a s :=
  ⟨perm_ofSymbols symbols, (ofSymbols symbols).sorted, filter_ofSymbols symbols, fun _ =>
    ⟨nearest?_eq_none_iff, fun _ => nearest?_eq_some_iff⟩⟩

/-! ## Names -/

theorem resolve?_eq_none_iff :
    (ofSymbols symbols).resolve? name = none ↔ ∀ s ∈ symbols, s.name ≠ name := by
  simp [resolve?_eq, mem_ofSymbols]

/-- A name stands for the greatest address of a symbol with it. -/
theorem resolve?_eq_some_iff : (ofSymbols symbols).resolve? name = some a ↔
    IsGreatest {b | ∃ s ∈ symbols, s.name = name ∧ s.address = b} a := by
  rw [resolve?_eq, getLast?_filter_eq_some_iff (ofSymbols symbols).sorted]
  simp only [mem_ofSymbols, decide_eq_true_eq]

/-- The place that is kept for a name is the last one at which a symbol has it. -/
theorem find?_index_eq_some_iff {t : Table} {i : Nat} : t.index.find? name = some i ↔
    IsGreatest {j | ∃ s, t.symbols[j]? = some s ∧ s.name = name} i := by
  have ascending : t.symbols.zipIdx.Pairwise fun e e' => e.2 ≤ e'.2 := by
    rw [← List.pairwise_map (f := Prod.snd) (R := (· ≤ ·)), List.zipIdx_map_snd]
    exact List.pairwise_le_range'
  have places : {j | ∃ e ∈ t.symbols.zipIdx, decide (e.1.name = name) ∧ e.2 = j} =
      {j | ∃ s, t.symbols[j]? = some s ∧ s.name = name} := by
    ext j
    simp [List.mem_zipIdx_iff_getElem?]
  rw [find?_index, getLast?_filter_eq_some_iff ascending, places]

/-- However many symbols share a name or an address, and in whatever order they come: a name stands
    for no address if no symbol has it, and else for the greatest address of a symbol with it. The
    place that the table keeps for a name is that of a symbol with it, the last one. -/
theorem names_resolved (symbols : List Symbol) (name : String) :
    ((ofSymbols symbols).resolve? name = none ↔ ∀ s ∈ symbols, s.name ≠ name) ∧
      (∀ a, (ofSymbols symbols).resolve? name = some a ↔
        IsGreatest {b | ∃ s ∈ symbols, s.name = name ∧ s.address = b} a) ∧
      ∀ i, (ofSymbols symbols).index.find? name = some i ↔
        IsGreatest {j | ∃ s, (ofSymbols symbols).symbols[j]? = some s ∧ s.name = name} i :=
  ⟨resolve?_eq_none_iff, fun _ => resolve?_eq_some_iff, fun _ => find?_index_eq_some_iff⟩

end Table
end KernelProbe.Symbols
