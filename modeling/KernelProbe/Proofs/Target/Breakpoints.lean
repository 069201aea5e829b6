import Mathlib.Data.List.Induction
import KernelProbe.Proofs.Interaction.Dict
import KernelProbe.Proofs.Text.Blank
import KernelProbe.Proofs.Text.Search
import KernelProbe.Target.Simulated

/-!
# Breakpoints of the simulated target

A symbol has an address, and a breakpoint is set at an address; an address that has one keeps it.
The numbers of breakpoints count up, so that they are new as long as they do not run out.

* `Names.evaluate_symbol`: the expression for the address of a symbol finds it, and changes nothing;
* `Numbered`: each address has one number and each number one address, and the next number is above
  all of them. So `hookAt?` looks an address up among the breakpoints (`hookAt?_eq_some_iff`);
* `Numbered.setBreakpoint`, `hookAt?_setBreakpoint`: setting a breakpoint keeps it so, and changes
  what `hookAt?` finds at its own address alone;
* `run_setBreakpoints`: on a new target the distinct addresses that were asked for are numbered
  from 1 on in the order in which they came (`Counted`), however often each one came.
-/

namespace KernelProbe.Target

open Text Debugger

/-! ## Symbols -/

/-- The address of the symbol that a hook's name stands for. -/
def placeOf (symbols : Dict String UInt64) (name : String) : Option UInt64 :=
  symbols.find? (trimmed name)

namespace Names

variable {n : Names} {name : String}

/-- Evaluating gives no symbol another address. -/
theorem symbols_evaluate (n : Names) (expression : String) :
    (n.evaluate expression).2.symbols = n.symbols := by
  rw [evaluate]
  split
  · rfl
  · split
    · rfl
    · split <;> rfl

/-- The expression for the address of a symbol finds it, and sets nothing. -/
theorem evaluate_symbol (h : '=' ∉ name.toList) :
    n.evaluate ("&" ++ name) =
      ((placeOf n.symbols name).elim (.error (.unknownSymbol (trimmed name))) .ok, n) := by
  have hl : ("&" ++ name).toList = '&' :: name.toList := by simp
  have hs : splitAt? '=' ("&" ++ name).toList = none :=
    splitAt?_eq_none_iff.2 (by simpa [hl] using h)
  have ht : trim ('&' :: name.toList) = '&' :: trimEnd name.toList :=
    trimEnd_append_cons (by decide) [] name.toList
  rw [evaluate, hs]
  simp only [term, hl, ht, trim_trimEnd]
  rfl

end Names

namespace Simulated

theorem run_bind {α β : Type} (t : Simulated) (s : Script Handler α) (f : α → Script Handler β) :
    t.run (s.bind f) = (t.run s).2.run (f (t.run s).1) := by
  rw [run, Program.run_bind]
  rfl

/-! ## Breakpoints -/

/-- The breakpoints of a target and their numbers correspond one to one, and the next number is
    above all of them. -/
structure Numbered (t : Simulated) : Prop where
  ids : t.breakpoints.Distinct
  addresses : t.breakpoints.values.Nodup
  below : ∀ e ∈ t.breakpoints.entries, e.1 < t.nextHook

/-- There are numbers left for `n` more breakpoints. -/
def Room (t : Simulated) (n : Nat) : Prop :=
  t.nextHook.toNat + n < UInt32.size

instance (t : Simulated) (n : Nat) : Decidable (t.Room n) :=
  inferInstanceAs (Decidable (_ < _))

variable {t : Simulated} {id : HookId} {address other : UInt64} {n : Nat}

theorem numbered_new : new.Numbered :=
  ⟨Dict.distinct_empty, List.nodup_nil, List.forall_mem_nil _⟩

/-- An address that has a breakpoint keeps it. -/
theorem setBreakpoint_of_some (h : t.hookAt? address = some id) :
    t.setBreakpoint address = (id, t) := by
  rw [setBreakpoint, h]

theorem setBreakpoint_of_none (h : t.hookAt? address = none) :
    t.setBreakpoint address = (t.nextHook, { t with
      breakpoints := t.breakpoints.insert t.nextHook address
      nextHook := t.nextHook + 1 }) := by
  rw [setBreakpoint, h]

theorem names_setBreakpoint (t : Simulated) (address : UInt64) :
    (t.setBreakpoint address).2.names = t.names := by
  rw [setBreakpoint]
  split <;> rfl

namespace Numbered

theorem hookAt?_eq_some_iff (h : t.Numbered) :
    t.hookAt? address = some id ↔ (id, address) ∈ t.breakpoints.entries := by
  rw [hookAt?, Option.map_eq_some_iff]
  constructor
  · rintro ⟨e, he, rfl⟩
    obtain rfl : e.2 = address := by simpa using List.find?_some he
    exact List.mem_of_find?_eq_some he
  · intro hm
    have hs : (t.breakpoints.entries.find? (·.2 = address)).isSome :=
      List.find?_isSome.2 ⟨_, hm, by simp⟩
    obtain ⟨e, he⟩ := Option.isSome_iff_exists.1 hs
    have ha : e.2 = address := by simpa using List.find?_some he
    have hu := List.inj_on_of_nodup_map h.addresses (List.mem_of_find?_eq_some he) hm ha
    exact ⟨e, he, congrArg Prod.fst hu⟩

/-- A number belongs to one address. -/
theorem eq_of_hookAt? (h : t.Numbered) (ha : t.hookAt? address = some id)
    (ho : t.hookAt? other = some id) : address = other := by
  have hu := List.inj_on_of_nodup_map h.ids (h.hookAt?_eq_some_iff.1 ha)
    (h.hookAt?_eq_some_iff.1 ho) rfl
  exact congrArg Prod.snd hu

/-- The next number is that of no breakpoint, so that a new breakpoint comes in behind the others. -/
theorem entries_insert (h : t.Numbered) :
    (t.breakpoints.insert t.nextHook address).entries =
      t.breakpoints.entries ++ [(t.nextHook, address)] := by
  have hnew : t.breakpoints.find? t.nextHook = none :=
    Dict.find?_eq_none_iff.2 fun e he => UInt32.ne_of_lt (h.below e he)
  rw [Dict.insert, Dict.erase_of_find?_eq_none hnew]

theorem setBreakpoint (h : t.Numbered) (hr : t.Room 1) (address : UInt64) :
    (t.setBreakpoint address).2.Numbered := by
  cases ha : t.hookAt? address with
  | some id => rwa [setBreakpoint_of_some ha]
  | none =>
    rw [setBreakpoint_of_none ha]
    have hlt : t.nextHook < t.nextHook + 1 := by
      rw [UInt32.lt_iff_toNat_lt, UInt32.toNat_add, UInt32.toNat_one, Nat.mod_eq_of_lt hr]
      exact Nat.lt_succ_self _
    refine ⟨h.ids.insert _ _, ?_, ?_⟩
    · rw [Dict.values, h.entries_insert, List.map_append, List.nodup_append]
      refine ⟨h.addresses, List.nodup_singleton _, fun a hm b hb hab => ?_⟩
      obtain ⟨e, he, rfl⟩ := List.mem_map.1 hm
      rw [List.map_singleton, List.mem_singleton] at hb
      obtain rfl : e.2 = address := hab.trans hb
      rw [h.hookAt?_eq_some_iff.2 he] at ha
      cases ha
    · intro e he
      rw [h.entries_insert, List.mem_append, List.mem_singleton] at he
      rcases he with he | rfl
      · exact UInt32.lt_trans (h.below e he) hlt
      · exact hlt

/-- Setting a breakpoint changes what is found at its own address alone. -/
theorem hookAt?_setBreakpoint (h : t.Numbered) (address other : UInt64) :
    (t.setBreakpoint address).2.hookAt? other =
      if address = other then some (t.setBreakpoint address).1 else t.hookAt? other := by
  cases ha : t.hookAt? address with
  | some id =>
    rw [setBreakpoint_of_some ha]
    split
    · next he => rw [← he, ha]
    · rfl
  | none =>
    rw [setBreakpoint_of_none ha, hookAt?, h.entries_insert, List.find?_append, Option.map_or,
      ← hookAt?]
    split
    · next he => simp [← he, ha]
    · next he => simp [he]

end Numbered

theorem Room.mono {m : Nat} (h : t.Room n) (hm : m ≤ n) : t.Room m :=
  Nat.lt_of_le_of_lt (Nat.add_le_add_left hm _) h

/-- A breakpoint takes one number at most. -/
theorem Room.setBreakpoint (h : t.Room (n + 1)) (address : UInt64) :
    (t.setBreakpoint address).2.Room n := by
  cases ha : t.hookAt? address with
  | some id =>
    rw [setBreakpoint_of_some ha]
    exact h.mono (Nat.le_succ n)
  | none =>
    rw [setBreakpoint_of_none ha]
    have hle : (t.nextHook + 1).toNat ≤ t.nextHook.toNat + 1 := by
      rw [UInt32.toNat_add]
      exact Nat.mod_le _ _
    refine Nat.lt_of_le_of_lt (Nat.add_le_add_right hle n) ?_
    rwa [Nat.add_assoc, Nat.add_comm 1]

/-! ## Breakpoints from the first one on -/

variable {addresses : List UInt64}

/-- The number of the breakpoint that has so many before it. -/
def numberAt (k : Nat) : HookId := UInt32.ofNat (k + 1)

/-- The breakpoints of a target are at the given addresses, numbered from 1 on in this order. -/
structure Counted (t : Simulated) (addresses : List UInt64) : Prop where
  numbered : t.Numbered
  entries : t.breakpoints.entries = addresses.mapIdx fun k a => (numberAt k, a)
  next : t.nextHook.toNat = addresses.length + 1

theorem counted_new : new.Counted [] :=
  ⟨numbered_new, rfl, rfl⟩

namespace Counted

theorem toNat_numberAt (h : t.Counted addresses) {k : Nat} (hk : k ≤ addresses.length) :
    (numberAt k).toNat = k + 1 := by
  have hlt := t.nextHook.toNat_lt
  rw [h.next] at hlt
  exact UInt32.toNat_ofNat_of_lt' (Nat.lt_of_le_of_lt (Nat.succ_le_succ hk) hlt)

theorem hookAt?_eq_some_iff (h : t.Counted addresses) :
    t.hookAt? address = some id ↔ ∃ k, addresses[k]? = some address ∧ id.toNat = k + 1 := by
  rw [h.numbered.hookAt?_eq_some_iff, h.entries, List.mem_mapIdx]
  constructor
  · rintro ⟨k, hk, ⟨⟩⟩
    exact ⟨k, List.getElem?_eq_getElem hk, h.toNat_numberAt hk.le⟩
  · rintro ⟨k, hk, hid⟩
    obtain ⟨hl, rfl⟩ := List.getElem?_eq_some_iff.1 hk
    exact ⟨k, hl, by rw [numberAt, ← hid, UInt32.ofNat_toNat]⟩

theorem hookAt?_of_mem (h : t.Counted addresses) (ha : address ∈ addresses) :
    t.hookAt? address = some (numberAt (addresses.idxOf address)) :=
  h.hookAt?_eq_some_iff.2 ⟨_, List.getElem?_idxOf ha,
    h.toNat_numberAt (List.idxOf_lt_length_iff.2 ha).le⟩

theorem hookAt?_eq_none_iff (h : t.Counted addresses) :
    t.hookAt? address = none ↔ address ∉ addresses := by
  constructor
  · intro hn ha
    rw [h.hookAt?_of_mem ha] at hn
    cases hn
  · intro ha
    rw [Option.eq_none_iff_forall_ne_some]
    intro id hs
    obtain ⟨k, hk, -⟩ := h.hookAt?_eq_some_iff.1 hs
    exact ha (List.mem_of_getElem? hk)

theorem breakpointAddresses_eq (h : t.Counted addresses) :
    t.breakpointAddresses = addresses := by
  rw [breakpointAddresses, Dict.values, h.entries]
  exact List.ext_getElem (by simp) (by simp)

theorem nodup (h : t.Counted addresses) : addresses.Nodup :=
  h.breakpointAddresses_eq ▸ h.numbered.addresses

/-- A new address comes in behind the others, under the next number. -/
theorem setBreakpoint_of_not_mem (h : t.Counted addresses) (hr : t.Room 1)
    (ha : address ∉ addresses) :
    (t.setBreakpoint address).1 = numberAt addresses.length ∧
      (t.setBreakpoint address).2.Counted (addresses ++ [address]) := by
  have hn := h.numbered.setBreakpoint hr address
  have hid : t.nextHook = numberAt addresses.length := by
    rw [numberAt, ← h.next, UInt32.ofNat_toNat]
  rw [setBreakpoint_of_none (h.hookAt?_eq_none_iff.2 ha)] at hn ⊢
  refine ⟨hid, hn, ?_, ?_⟩
  · rw [h.numbered.entries_insert, h.entries, List.mapIdx_concat, hid]
  · rw [UInt32.toNat_add, UInt32.toNat_one, Nat.mod_eq_of_lt hr, h.next, List.length_append,
      List.length_singleton]

end Counted

/-- One more address is a new one behind the distinct ones before it, or is one of them. -/
theorem eraseDups_concat (addresses : List UInt64) (address : UInt64) :
    (addresses ++ [address]).eraseDups =
      if address ∈ addresses then addresses.eraseDups else addresses.eraseDups ++ [address] := by
  rw [List.eraseDups_append, List.removeAll, List.filter_cons]
  split <;> simp_all [List.eraseDups_cons]

/-- The last of several scripts runs where the others end. -/
theorem run_mapM_concat {α β : Type} (f : α → Script Handler β) (t : Simulated) (l : List α)
    (a : α) : t.run ((l ++ [a]).mapM f) =
      ((t.run (l.mapM f)).1 ++ [((t.run (l.mapM f)).2.run (f a)).1],
        ((t.run (l.mapM f)).2.run (f a)).2) := by
  rw [List.mapM_append]
  simp only [List.mapM_cons, List.mapM_nil, Program.bind_eq, Program.pure_eq, run_bind]
  rfl

theorem run_setBreakpoint (t : Simulated) (address : UInt64) :
    t.run (Debugger.setBreakpoint address) =
      (.ok (t.setBreakpoint address).1, (t.setBreakpoint address).2) :=
  rfl

namespace Counted

/-- The breakpoint of one more address: the one it has, or a new one behind the others. -/
theorem setBreakpoint (h : t.Counted addresses.eraseDups) (hr : t.Room 1) (address : UInt64) :
    (t.setBreakpoint address).1 =
        numberAt ((addresses ++ [address]).eraseDups.idxOf address) ∧
      (t.setBreakpoint address).2.Counted (addresses ++ [address]).eraseDups := by
  rw [eraseDups_concat]
  split
  · next ha =>
    rw [setBreakpoint_of_some (h.hookAt?_of_mem (List.mem_eraseDups.2 ha))]
    exact ⟨rfl, h⟩
  · next ha =>
    have hd : address ∉ addresses.eraseDups := fun hm => ha (List.mem_eraseDups.1 hm)
    obtain ⟨hid, hc⟩ := h.setBreakpoint_of_not_mem hr hd
    refine ⟨?_, hc⟩
    rw [hid, List.idxOf_append_of_notMem hd, List.idxOf_cons_self, Nat.add_zero]

end Counted

/-- What comes behind leaves the first of the distinct addresses where they are. -/
theorem idxOf_eraseDups_concat (h : other ∈ addresses) :
    (addresses ++ [address]).eraseDups.idxOf other = addresses.eraseDups.idxOf other := by
  rw [eraseDups_concat]
  split
  · rfl
  · exact List.idxOf_append_of_mem (List.mem_eraseDups.2 h)

/-- Breakpoints that are set one after the other, with numbers left for more of them. -/
theorem run_setBreakpoints (h : new.Room (addresses.length + n)) :
    (new.run (addresses.mapM Debugger.setBreakpoint)).1 =
        addresses.map (fun a => .ok (numberAt (addresses.eraseDups.idxOf a))) ∧
      (new.run (addresses.mapM Debugger.setBreakpoint)).2.Counted addresses.eraseDups ∧
      (new.run (addresses.mapM Debugger.setBreakpoint)).2.Room n := by
  induction addresses using List.reverseRecOn generalizing n with
  | nil => exact ⟨rfl, counted_new, h.mono (Nat.le_add_left n _)⟩
  | append_singleton addresses address ih =>
    rw [List.length_append, List.length_singleton, Nat.add_assoc, Nat.add_comm 1] at h
    obtain ⟨hids, hc, hr⟩ := ih h
    obtain ⟨hid, hc⟩ := hc.setBreakpoint (hr.mono (Nat.le_add_left 1 n)) address
    have hfirst (a : UInt64) (ha : a ∈ addresses) :
        (addresses ++ [address]).eraseDups.idxOf a = addresses.eraseDups.idxOf a :=
      idxOf_eraseDups_concat ha
    rw [run_mapM_concat, hids, run_setBreakpoint, hid, List.map_append]
    refine ⟨congrArg (· ++ _) ?_, hc, hr.setBreakpoint address⟩
    exact List.map_congr_left fun a ha => by rw [hfirst a ha]

/-- On a new target, breakpoints that are set one after the other, fewer than there are numbers for,
    count from 1 on: a new address takes the next number, and one that was there before takes the
    number it had, which changes nothing. -/
theorem breakpoints_numbered_in_order (addresses : List UInt64)
    (h : addresses.length < UInt32.size - 1) :
    let numbers := (new.run (addresses.mapM Debugger.setBreakpoint)).1
    let t := (new.run (addresses.mapM Debugger.setBreakpoint)).2
    let distinct := addresses.eraseDups
    numbers = addresses.map (fun a => .ok (numberAt (distinct.idxOf a))) ∧
      (∀ k < distinct.length, (numberAt k).toNat = k + 1) ∧
      t.breakpointAddresses = distinct ∧ distinct.Nodup ∧
      (∀ address id,
        t.hookAt? address = some id ↔ ∃ k, distinct[k]? = some address ∧ id.toNat = k + 1) ∧
      (∀ address, t.hookAt? address = none ↔ address ∉ addresses) ∧
      ∀ address ∈ addresses,
        t.run (Debugger.setBreakpoint address) =
          (.ok (numberAt (distinct.idxOf address)), t) := by
  have hroom : new.Room (addresses.length + 0) := by
    show 1 + addresses.length < UInt32.size
    omega
  obtain ⟨hnumbers, hc, -⟩ := run_setBreakpoints hroom
  intro numbers t distinct
  refine ⟨hnumbers, fun k hk => hc.toNat_numberAt hk.le, hc.breakpointAddresses_eq,
    hc.nodup, fun _ _ => hc.hookAt?_eq_some_iff, fun address => ?_, fun address ha => ?_⟩
  · rw [hc.hookAt?_eq_none_iff, List.mem_eraseDups]
  · rw [run_setBreakpoint, setBreakpoint_of_some (hc.hookAt?_of_mem (List.mem_eraseDups.2 ha))]

/-- Three addresses, of which the first comes back. -/
theorem breakpoints_numbered_in_order_repeated :
    let addresses : List UInt64 := [16, 32, 16, 8]
    addresses.length < UInt32.size - 1 ∧
      (new.run (addresses.mapM Debugger.setBreakpoint)).1 = [.ok 1, .ok 2, .ok 1, .ok 3] ∧
      (new.run (addresses.mapM Debugger.setBreakpoint)).2.breakpointAddresses = [16, 32, 8] := by
  have h : ([16, 32, 16, 8] : List UInt64).length < UInt32.size - 1 := by decide
  obtain ⟨hnumbers, -, haddresses, -⟩ := breakpoints_numbered_in_order [16, 32, 16, 8] h
  exact ⟨h, hnumbers, haddresses⟩

end Simulated

end KernelProbe.Target
