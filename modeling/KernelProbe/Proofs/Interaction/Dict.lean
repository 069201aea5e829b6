import Mathlib.Data.List.Nodup
import KernelProbe.Interaction.Dict

/-!
# Dictionaries with distinct keys

Every dictionary that grows from the empty one has at most one entry for each key (`Distinct`).
For such a dictionary, `find?` says which entries there are, and `erase` takes out one entry.
-/

namespace KernelProbe.Dict

variable {κ α : Type} [DecidableEq κ] {d : Dict κ α} {k l : κ} {a b : α}

/-- No key has two entries. -/
def Distinct (d : Dict κ α) : Prop :=
  (d.entries.map (·.1)).Nodup

omit [DecidableEq κ] in
theorem distinct_empty : Distinct (empty : Dict κ α) := List.nodup_nil

theorem Distinct.erase (h : Distinct d) (k : κ) : Distinct (d.erase k) :=
  List.Nodup.sublist (List.Sublist.map _ List.filter_sublist) h

theorem mem_erase {e : κ × α} : e ∈ (d.erase k).entries ↔ e ∈ d.entries ∧ e.1 ≠ k := by
  simp [Dict.erase]

theorem mem_insert {e : κ × α} :
    e ∈ (d.insert k a).entries ↔ (e ∈ d.entries ∧ e.1 ≠ k) ∨ e = (k, a) := by
  rw [insert, List.mem_append, mem_erase, List.mem_singleton]

theorem Distinct.insert (h : Distinct d) (k : κ) (a : α) : Distinct (d.insert k a) := by
  rw [Distinct, Dict.insert, List.map_append, List.nodup_append]
  refine ⟨h.erase k, by simp, fun x hx y hy hxy => ?_⟩
  obtain ⟨e, he, rfl⟩ := List.mem_map.1 hx
  rw [List.map_singleton, List.mem_singleton] at hy
  exact (mem_erase.1 he).2 (hxy.trans hy)

theorem find?_eq_none_iff : d.find? k = none ↔ ∀ e ∈ d.entries, e.1 ≠ k := by
  simp [find?]

theorem mem_of_find? (h : d.find? k = some a) : (k, a) ∈ d.entries := by
  obtain ⟨⟨k', a'⟩, he, rfl⟩ := Option.map_eq_some_iff.1 h
  have hk : k' = k := by simpa using List.find?_some he
  exact hk ▸ List.mem_of_find?_eq_some he

theorem Distinct.find?_of_mem (hd : Distinct d) (h : (k, a) ∈ d.entries) : d.find? k = some a := by
  have hs : (d.entries.find? (·.1 = k)).isSome := List.find?_isSome.2 ⟨_, h, by simp⟩
  obtain ⟨e, he⟩ := Option.isSome_iff_exists.1 hs
  have hk : e.1 = k := by simpa using List.find?_some he
  obtain rfl : e = (k, a) := List.inj_on_of_nodup_map hd (List.mem_of_find?_eq_some he) h hk
  rw [find?, he, Option.map_some]

/-- Taking out an entry that is there leaves the others. -/
theorem Distinct.perm_erase (hd : Distinct d) (h : d.find? k = some a) :
    d.entries.Perm ((k, a) :: (d.erase k).entries) := by
  obtain ⟨before, after, hs⟩ := List.append_of_mem (mem_of_find? h)
  -- The keys before and behind the entry are other ones, so erasing keeps them all.
  rw [Distinct, hs, List.map_append, List.map_cons, List.nodup_middle, List.nodup_cons,
    ← List.map_append] at hd
  have other : ∀ e ∈ before ++ after, e.1 ≠ k := by
    intro e he hk
    exact hd.1 (List.mem_map.2 ⟨e, he, hk⟩)
  have hf : (d.erase k).entries = before ++ after := by
    rw [Dict.erase, hs, List.filter_append, List.filter_cons_of_neg (by simp),
      ← List.filter_append, List.filter_eq_self]
    intro e he
    simpa using other e he
  rw [hs, hf]
  exact List.perm_middle

theorem erase_of_find?_eq_none (h : d.find? k = none) : d.erase k = d := by
  cases d with
  | mk entries =>
    rw [Dict.erase, mk.injEq, List.filter_eq_self]
    intro e he
    simpa using find?_eq_none_iff.1 h e he

/-- What stands at a key gives way to what is put there. -/
theorem insert_erase (d : Dict κ α) (k : κ) (a : α) : (d.erase k).insert k a = d.insert k a := by
  simp [insert, erase, List.filter_filter]

theorem values_insert (h : d.find? k = none) : (d.insert k a).values = d.values ++ [a] := by
  simp [values, insert, erase_of_find?_eq_none h]

theorem Distinct.perm_values_erase (hd : Distinct d) (h : d.find? k = some a) :
    d.values.Perm (a :: (d.erase k).values) :=
  (hd.perm_erase h).map _

/-- Of the entries that a dictionary is filled with, the last one at a key stays. -/
theorem find?_foldl_insert {β : Type} (key : β → κ) (value : β → α) (l : List β) (d : Dict κ α)
    (k : κ) :
    (l.foldl (fun d e => d.insert (key e) (value e)) d).find? k =
      ((l.filter (key · = k)).getLast?.map value).or (d.find? k) := by
  induction l generalizing d with
  | nil => rfl
  | cons e l ih =>
    rw [List.foldl_cons, ih, find?_insert]
    by_cases h : key e = k
    · rw [if_pos h, List.filter_cons_of_pos (by simpa using h), List.getLast?_cons]
      cases (l.filter (key · = k)).getLast? <;> rfl
    · rw [if_neg h, List.filter_cons_of_neg (by simpa using h)]

omit [DecidableEq κ] in
theorem eq_of_mem_of_size_le_one {e e' : κ × α} (hd : d.size ≤ 1) (he : e ∈ d.entries)
    (he' : e' ∈ d.entries) : e = e' := by
  obtain ⟨_ | ⟨first, _ | _⟩⟩ := d
  · cases he
  · exact (List.mem_singleton.1 he).trans (List.mem_singleton.1 he').symm
  · simp [size] at hd

end KernelProbe.Dict
