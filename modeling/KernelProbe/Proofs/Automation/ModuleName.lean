import KernelProbe.Automation.ModuleName
import KernelProbe.Proofs.Target.Memory
import KernelProbe.Proofs.Text.Utf16

/-!
# What reading a name gives

A name is read unit by unit from surroundings that have a state, and that may answer each read as
they like. The first unit at which reading ends decides what comes of it: it may lie past the end
of the address space, its read may fail, or it may be the zero unit (`EndsAt`).

* `go_on`: up to there, the units are read in order, and none of them twice;
* `readUtf16_unterminated`, `readUtf16_pastEnd`, `readUtf16_unreadable`, `readUtf16_terminated`:
  the ways in which it ends;
* `readUtf16_by_first_end`: these are all, for any surroundings;
* `readUtf16_writeUtf16`: a name in the memory of a simulated target.
-/

namespace KernelProbe.Automation

open Debugger Program

variable {H σ : Type}

namespace ModuleName

/-! ## The units in memory -/

/-- The address of a unit, which need not be below the end of the address space. -/
def place (address : UInt64) (i : Nat) : Nat :=
  address.toNat + 2 * i

/-- The read of a unit. -/
def unitRead (address : UInt64) (i : Nat) : Request H :=
  .read .virtual (place address i).toUInt64 2

section

variable (answer : (r : Request H) → σ → r.Answer × σ) (s : σ) (address : UInt64)

/-- The state of the surroundings when the first `i` units are read. -/
def behind : (i : Nat) → σ
  | 0 => s
  | i + 1 => (answer (unitRead address i) (behind i)).2

/-- The answer to the read of a unit, when the units before it are read. -/
def reply (i : Nat) : Except Error (List UInt8) :=
  (answer (unitRead address i) (behind answer s address i)).1

/-- A unit as it is read. -/
def unit (i : Nat) : Except Error UInt16 :=
  word16Of (reply answer s address i)

/-- The first `k` units. -/
def units (k : Nat) : List UInt16 :=
  (List.range k).map fun i => (unit answer s address i).toOption.getD 0

/-- The reads of the first `n` units with their answers. -/
def reads (n : Nat) : Log (interface H) :=
  (List.range n).map fun i => ⟨unitRead address i, reply answer s address i⟩

/-- Reading ends at a unit: it lies past the end of the address space, it cannot be read, or it
    is zero. -/
def EndsAt (i : Nat) : Prop :=
  UInt64.size ≤ place address i ∨ (∃ e, unit answer s address i = .error e) ∨
    unit answer s address i = .ok 0

end

/-! ## Reading them -/

/-- The surroundings are asked for these calls, and the program ends with this result. -/
def Yields {α : Type} (answer : (r : Request H) → σ → r.Answer × σ) (p : Script H α) (s : σ)
    (log : Log (interface H)) (a : α) : Prop :=
  trace answer p s = log ∧ (run answer p s).1 = a

variable {α : Type} {answer : (r : Request H) → σ → r.Answer × σ} {s : σ} {address : UInt64}
  {i k n : Nat} {us : List UInt16} {log : Log (interface H)}

/-- What the units before a zero unit give. -/
def named (address : UInt64) (us : List UInt16) : Except NameError String :=
  match Text.Utf16.decode? us with
  | some text => .ok (String.ofList text)
  | none => .error (.invalid address)

/-- What reading does with a unit, when `n` more may be read. -/
def next (address : UInt64) (n : Nat) (us : List UInt16) (place : Nat) :
    Except Error UInt16 → Script H (Except NameError String)
  | .error cause => .done (.error (.unreadable place.toUInt64 cause))
  | .ok u => if u = 0 then .done (named address us) else readUnits address n (us ++ [u])

theorem readUnits_of_pastEnd (h : UInt64.size ≤ place address us.length) :
    readUnits (H := H) address (n + 1) us =
      .done (.error (.unreadable address .pastLastAddress)) := by
  rw [readUnits]
  exact if_pos h

theorem readUnits_of_place (h : ¬UInt64.size ≤ place address us.length) :
    readUnits (H := H) address (n + 1) us =
      (Debugger.read .virtual (place address us.length).toUInt64 2).bind fun reply =>
        next address n us (place address us.length) (word16Of reply) := by
  rw [readUnits, if_neg (by exact h)]
  simp only [bind_eq, readWord16_eq, bind_assoc, done_bind]
  refine congrArg (Program.bind _) (funext fun reply => ?_)
  cases word16Of reply with
  | error e => rfl
  | ok u =>
    simp only [next, named]
    split
    · cases Text.Utf16.decode? us <;> rfl
    · rfl

theorem yields_done (a : α) : Yields answer (.done a) s [] a :=
  ⟨rfl, rfl⟩

theorem yields_unit {f : Except Error (List UInt8) → Script H α} {a : α}
    (h : Yields answer (f (reply answer s address k)) (behind answer s address (k + 1)) log a) :
    Yields answer ((Debugger.read .virtual (place address k).toUInt64 2).bind f)
      (behind answer s address k) (⟨unitRead address k, reply answer s address k⟩ :: log) a :=
  ⟨congrArg (_ :: ·) h.1, h.2⟩

theorem length_units : (units answer s address k).length = k := by
  rw [units, List.length_map, List.length_range]

theorem units_succ : units answer s address (k + 1) =
    units answer s address k ++ [(unit answer s address k).toOption.getD 0] := by
  rw [units, List.range_succ, List.map_append]
  rfl

theorem reads_succ : reads answer s address (k + 1) =
    reads answer s address k ++ [⟨unitRead address k, reply answer s address k⟩] := by
  rw [reads, List.range_succ, List.map_append]
  rfl

/-- A unit at which reading does not end is read, and is not zero. -/
theorem of_not_endsAt (h : ¬EndsAt answer s address i) :
    ¬UInt64.size ≤ place address i ∧ ∃ u, unit answer s address i = .ok u ∧ u ≠ 0 := by
  simp only [EndsAt, not_or, not_exists] at h
  obtain ⟨hp, he, hz⟩ := h
  refine ⟨hp, ?_⟩
  cases hu : unit answer s address i with
  | error e => exact absurd hu (he e)
  | ok u => exact ⟨u, rfl, fun h0 => hz (by rw [hu, h0])⟩

theorem not_endsAt {u : UInt16} (hp : place address i < UInt64.size)
    (hu : unit answer s address i = .ok u) (hz : u ≠ 0) : ¬EndsAt answer s address i := by
  rintro (h | ⟨e, h⟩ | h)
  · exact Nat.not_le.2 hp h
  · rw [hu] at h
    cases h
  · exact hz (Except.ok.inj (hu.symm.trans h))

/-- Behind units at which it does not end, reading goes on with the next one. -/
theorem go_on {r : Except NameError String} (h : ∀ i < k, ¬EndsAt answer s address i)
    (hy : Yields answer (readUnits address n (units answer s address k))
      (behind answer s address k) log r) :
    Yields answer (readUnits address (k + n) []) s (reads answer s address k ++ log) r := by
  induction k generalizing n log with
  | zero =>
    rw [Nat.zero_add]
    exact hy
  | succ k ih =>
    obtain ⟨hp, u, hu, hz⟩ := of_not_endsAt (h k (Nat.lt_succ_self k))
    rw [reads_succ, List.append_assoc, Nat.succ_add_eq_add_succ]
    refine ih (fun i hi => h i (Nat.lt_succ_of_lt hi)) ?_
    rw [readUnits_of_place (by rwa [length_units]), length_units]
    refine yields_unit ?_
    rw [← unit, hu, next, if_neg hz]
    rw [units_succ, hu] at hy
    exact hy

/-! ## The ways it ends -/

/-- Without a unit at which reading ends, the name is not terminated. -/
theorem readUtf16_unterminated (h : ∀ i < maxNameUnits, ¬EndsAt answer s address i) :
    Yields answer (readUtf16 address) s (reads answer s address maxNameUnits)
      (.error (.unterminated address maxNameUnits)) := by
  have hy := go_on h (n := 0) (yields_done _)
  rwa [List.append_nil] at hy

theorem readUtf16_of_first {r : Except NameError String} (hk : k < maxNameUnits)
    (h : ∀ i < k, ¬EndsAt answer s address i)
    (hy : ∀ n, Yields answer (readUnits address (n + 1) (units answer s address k))
      (behind answer s address k) log r) :
    Yields answer (readUtf16 address) s (reads answer s address k ++ log) r := by
  obtain ⟨n, hn⟩ := Nat.exists_eq_add_of_lt hk
  rw [readUtf16, hn]
  exact go_on h (hy n)

/-- A unit past the end of the address space is not read. -/
theorem readUtf16_pastEnd (hk : k < maxNameUnits) (h : ∀ i < k, ¬EndsAt answer s address i)
    (hp : UInt64.size ≤ place address k) :
    Yields answer (readUtf16 address) s (reads answer s address k)
      (.error (.unreadable address .pastLastAddress)) := by
  rw [← List.append_nil (reads answer s address k)]
  refine readUtf16_of_first hk h fun n => ?_
  rw [readUnits_of_pastEnd (by rwa [length_units])]
  exact yields_done _

theorem readUtf16_of_read {r : Except NameError String} (hk : k < maxNameUnits)
    (h : ∀ i < k, ¬EndsAt answer s address i) (hp : ¬UInt64.size ≤ place address k)
    (hr : ∀ n, next (H := H) address n (units answer s address k) (place address k)
      (unit answer s address k) = .done r) :
    Yields answer (readUtf16 address) s (reads answer s address (k + 1)) r := by
  rw [reads_succ]
  refine readUtf16_of_first hk h fun n => ?_
  rw [readUnits_of_place (by rwa [length_units]), length_units]
  refine yields_unit ?_
  rw [← unit, hr n]
  exact yields_done _

/-- A unit that cannot be read is the cause of the failure. -/
theorem readUtf16_unreadable {e : Error} (hk : k < maxNameUnits)
    (h : ∀ i < k, ¬EndsAt answer s address i) (hp : ¬UInt64.size ≤ place address k)
    (he : unit answer s address k = .error e) :
    Yields answer (readUtf16 address) s (reads answer s address (k + 1))
      (.error (.unreadable (place address k).toUInt64 e)) :=
  readUtf16_of_read hk h hp fun n => by rw [he]; rfl

/-- The units before the zero unit are decoded. -/
theorem readUtf16_terminated (hk : k < maxNameUnits)
    (h : ∀ i < k, ¬EndsAt answer s address i) (hp : ¬UInt64.size ≤ place address k)
    (hz : unit answer s address k = .ok 0) :
    Yields answer (readUtf16 address) s (reads answer s address (k + 1))
      (named address (units answer s address k)) :=
  readUtf16_of_read hk h hp fun n => by rw [hz, next, if_pos rfl]

theorem named_eq_ok_iff {text : String} :
    named address us = .ok text ↔ Text.Utf16.encode text.toList = us := by
  rw [← Text.Utf16.decode?_eq_some_iff, named]
  cases Text.Utf16.decode? us with
  | none => simp
  | some t =>
    rw [Except.ok.injEq, Option.some.injEq]
    constructor
    · rintro rfl
      exact String.toList_ofList.symm
    · rintro rfl
      exact String.ofList_toList

theorem exists_named_iff : (∃ text, named address us = .ok text) ↔ Text.Utf16.Paired us := by
  rw [Text.Utf16.paired_iff]
  constructor
  · rintro ⟨text, h⟩
    exact ⟨text.toList, named_eq_ok_iff.1 h⟩
  · rintro ⟨t, h⟩
    exact ⟨String.ofList t, named_eq_ok_iff.2 (by rwa [String.toList_ofList])⟩

theorem named_eq_error_iff : named address us = .error (.invalid address) ↔
    ¬Text.Utf16.Paired us := by
  rw [← Text.Utf16.decode?_eq_none_iff, named]
  cases Text.Utf16.decode? us <;> simp

end ModuleName

open ModuleName

/-- What reading a name gives, from surroundings that answer as they like. Among the first 1024
    units, the first one at which reading ends decides: if it lies past the end of the address
    space, it is not read, and reading fails at the start of the name; if it cannot be read, or the
    reply is too short or too long, reading fails at that unit; and if it is zero, the units before
    it are decoded, which fails exactly if a surrogate among them has no partner. Without such a
    unit the name is not terminated. The units are read in order, each one once, and none behind
    that unit. -/
theorem readUtf16_by_first_end (answer : (r : Request H) → σ → r.Answer × σ) (s : σ)
    (address : UInt64) :
    ((∀ i < 1024, ¬EndsAt answer s address i) →
      Yields answer (readUtf16 address) s (reads answer s address 1024)
        (.error (.unterminated address 1024))) ∧
    ∀ k < 1024, (∀ i < k, ¬EndsAt answer s address i) →
      (UInt64.size ≤ place address k →
        Yields answer (readUtf16 address) s (reads answer s address k)
          (.error (.unreadable address .pastLastAddress))) ∧
      (place address k < UInt64.size →
        (∀ e, reply answer s address k = .error e →
          Yields answer (readUtf16 address) s (reads answer s address (k + 1))
            (.error (.unreadable (place address k).toUInt64 e))) ∧
        (∀ bytes, reply answer s address k = .ok bytes → bytes.length ≠ 2 →
          Yields answer (readUtf16 address) s (reads answer s address (k + 1))
            (.error (.unreadable (place address k).toUInt64 (.wrongLength 16 bytes.length)))) ∧
        (unit answer s address k = .ok 0 →
          ∃ r, Yields answer (readUtf16 address) s (reads answer s address (k + 1)) r ∧
            (∀ text, r = .ok text ↔ Text.Utf16.encode text.toList = units answer s address k) ∧
            ((∃ text, r = .ok text) ↔ Text.Utf16.Paired (units answer s address k)) ∧
            (r = .error (.invalid address) ↔
              ¬Text.Utf16.Paired (units answer s address k)))) := by
  refine ⟨readUtf16_unterminated, fun k hk h => ⟨readUtf16_pastEnd hk h, fun hp => ?_⟩⟩
  rw [← Nat.not_le] at hp
  refine ⟨fun e he => ?_, fun bytes hb hl => ?_, fun hz => ?_⟩
  · exact readUtf16_unreadable hk h hp (by rw [unit, he]; rfl)
  · exact readUtf16_unreadable hk h hp (by rw [unit, hb, word16Of_of_length_ne hl])
  · exact ⟨_, readUtf16_terminated hk h hp hz, fun text => named_eq_ok_iff, exists_named_iff,
      named_eq_error_iff⟩

/-- A debugger that gives one reply after the other to reads, and refuses all other calls. Its
    state is the number of the next reply. -/
def replay (replies : Nat → Except Error (List UInt8)) :
    (r : Request Handler) → Nat → r.Answer × Nat
  | .read .., n => (replies n, n + 1)
  | .evaluate expression, n => (.error (.invalidExpression expression), n)
  | .execute command, n => (.error (.commandFailed command), n)
  | .setBreakpoint _, n => (.error (.connection "refused"), n)
  | .register .., n => (.error (.connection "refused"), n)
  | .frameValue frame name, n => (.error (.unknownFrameValue frame name), n)
  | .print _, n => ((), n)

theorem reply_replay (replies : Nat → Except Error (List UInt8)) (address : UInt64) (i : Nat) :
    reply (replay replies) 0 address i = replies i := by
  have hb : behind (replay replies) 0 address i = i := by
    induction i with
    | zero => rfl
    | succ i ih => rw [behind, ih]; rfl
  rw [reply, hb]
  rfl

/-- A name of letters only, at the start of the address space and at its end, a name with a
    surrogate that has no partner, and one whose second unit is cut short. -/
theorem readUtf16_by_first_end_limits :
    (run (replay fun _ => .ok [0x41, 0]) (readUtf16 0) 0).1 = .error (.unterminated 0 1024) ∧
    Yields (replay fun _ => .ok [0x41, 0]) (readUtf16 0xFFFFFFFFFFFFFFFE) 0
      [⟨.read .virtual 0xFFFFFFFFFFFFFFFE 2, .ok [0x41, 0]⟩]
      (.error (.unreadable 0xFFFFFFFFFFFFFFFE .pastLastAddress)) ∧
    (run (replay fun i => .ok (if i = 0 then [0x3D, 0xD8] else [0, 0])) (readUtf16 7) 0).1 =
      .error (.invalid 7) ∧
    (run (replay fun i => .ok (if i = 0 then [0x41, 0] else [0x42])) (readUtf16 7) 0).1 =
      .error (.unreadable 9 (.wrongLength 16 1)) := by
  let lone (i : Nat) : Except Error (List UInt8) := .ok (if i = 0 then [0x3D, 0xD8] else [0, 0])
  let cut (i : Nat) : Except Error (List UInt8) := .ok (if i = 0 then [0x41, 0] else [0x42])
  have hgo (replies : Nat → Except Error (List UInt8)) (u : UInt16) {address : UInt64} {i : Nat}
      (hp : place address i < UInt64.size) (hu : word16Of (replies i) = .ok u) (hz : u ≠ 0) :
      ¬EndsAt (replay replies) 0 address i :=
    not_endsAt hp (by rwa [unit, reply_replay]) hz
  refine ⟨?_, ?_, ?_, ?_⟩
  · refine ((readUtf16_by_first_end _ 0 0).1 fun i hi => hgo _ 0x41 ?_ rfl (by decide)).2
    have h : place 0 i = 2 * i := Nat.zero_add _
    rw [h, UInt64.size]
    omega
  · refine ((readUtf16_by_first_end _ 0 0xFFFFFFFFFFFFFFFE).2 1 (by decide) fun i hi => ?_).1 ?_
    · rw [Nat.lt_one_iff.1 hi]
      exact hgo _ 0x41 (by decide) rfl (by decide)
    · decide
  · have h := (readUtf16_by_first_end (replay lone) 0 7).2 1 (by decide) fun i hi => by
      rw [Nat.lt_one_iff.1 hi]
      exact hgo _ 0xD83D (by decide) rfl (by decide)
    obtain ⟨r, hr, -, -, hi⟩ := (h.2 (by decide)).2.2 (by rw [unit, reply_replay]; rfl)
    rw [hr.2, hi, ← Text.Utf16.decode?_eq_none_iff]
    rfl
  · have h := (readUtf16_by_first_end (replay cut) 0 7).2 1 (by decide) fun i hi => by
      rw [Nat.lt_one_iff.1 hi]
      exact hgo _ 0x41 (by decide) rfl (by decide)
    exact ((h.2 (by decide)).2.1 [0x42] (by rw [reply_replay]; rfl) (by decide)).2

/-! ## Names in the memory of a target -/

section

variable {t : Target.Simulated} {address : UInt64} {text : String} {u : UInt16} {us : List UInt16}
  {i : Nat}

open Memory (unitBytes)

theorem memory_behind (t : Target.Simulated) (address : UInt64) (i : Nat) :
    (behind Target.Simulated.answer t address i).memory = t.memory := by
  induction i with
  | zero => rfl
  | succ i ih => exact (Target.Simulated.memory_answer_read _ _ _ _).trans ih

/-- A unit that the memory holds is read as what it is. -/
theorem unit_of_holds (h : t.memory.Holds .virtual address.toNat (unitBytes us))
    (hi : place address i < UInt64.size) (hu : us[i]? = some u) :
    unit Target.Simulated.answer t address i = .ok u := by
  have hp : (place address i).toUInt64.toNat = place address i := UInt64.toNat_ofNat_of_lt' hi
  have hh : (behind Target.Simulated.answer t address i).memory.Holds .virtual
      (place address i).toUInt64.toNat (LittleEndian.bytes 2 u.toNat) := by
    rw [memory_behind, hp]
    exact h.unit hu
  have hr := Target.Simulated.answer_read_of_holds hh
  rw [LittleEndian.length_bytes] at hr
  exact (congrArg word16Of hr).trans (word16Of_bytes u)

/-- Held units are what is read. -/
theorem units_of_holds (h : t.memory.Holds .virtual address.toNat (unitBytes us))
    (hp : address.toNat + 2 * us.length ≤ UInt64.size) {k : Nat} (hk : k ≤ us.length) :
    units Target.Simulated.answer t address k = us.take k := by
  induction k with
  | zero => rfl
  | succ k ih =>
    have hu : us[k]? = some us[k] := List.getElem?_eq_getElem hk
    rw [units_succ, ih (Nat.le_of_succ_le hk), unit_of_holds h (by rw [place]; omega) hu,
      List.take_add_one, hu]
    rfl

/-- A text that the memory holds with a zero unit behind it is read as what it is, if its units and
    the zero unit are within the limit. -/
theorem run_readUtf16_of_holds (h0 : '\x00' ∉ text.toList)
    (hp : address.toNat + 2 * ((Text.Utf16.encode text.toList).length + 1) ≤ UInt64.size)
    (h : t.memory.Holds .virtual address.toNat
      (unitBytes (Text.Utf16.encode text.toList ++ [0]))) :
    (t.run (readUtf16 address)).1 =
      if (Text.Utf16.encode text.toList).length ≤ 1023 then .ok text
      else .error (.unterminated address 1024) := by
  have hz := Text.Utf16.zero_not_mem_encode h0
  have hn := Text.Utf16.decode?_eq_some_iff.2 (Eq.refl (Text.Utf16.encode text.toList))
  generalize Text.Utf16.encode text.toList = us at hp h hz hn ⊢
  have hgo (i : Nat) (hi : i < us.length) : ¬EndsAt Target.Simulated.answer t address i := by
    have hi' : place address i < UInt64.size := by
      rw [place]
      omega
    have hu : (us ++ [0])[i]? = some us[i] := by
      rw [List.getElem?_append_left hi, List.getElem?_eq_getElem hi]
    exact not_endsAt hi' (unit_of_holds h hi' hu) fun h => hz (h ▸ List.getElem_mem hi)
  split
  · next hl =>
    have hn' : place address us.length < UInt64.size := by
      rw [place]
      omega
    have hu : (us ++ [0])[us.length]? = some 0 := List.getElem?_concat_length
    have hy := readUtf16_terminated (Nat.lt_succ_of_le hl) hgo (Nat.not_le.2 hn')
      (unit_of_holds h hn' hu)
    rw [units_of_holds h (by simpa using hp) (by simp), List.take_left] at hy
    rw [Target.Simulated.run, hy.2, named, hn]
    exact congrArg Except.ok String.ofList_toList
  · next hl =>
    exact (readUtf16_unterminated fun i (hi : i < 1024) => hgo i (by omega)).2

end

/-- A text without U+0000 that is written into the memory of a target is read back as it is, if it
    has at most 1023 units, and otherwise it is not terminated, at any address at which it and its
    zero unit fit. Neither what the memory held before nor what is written later, in the other space
    or apart from the text, makes a difference. -/
theorem readUtf16_writeUtf16 (t : Target.Simulated) (address : UInt64) (text : String)
    (later : List (AddressSpace × Nat × List UInt8)) (h0 : '\x00' ∉ text.toList)
    (hp : address.toNat + 2 * ((Text.Utf16.encode text.toList).length + 1) ≤ UInt64.size)
    (hl : ∀ w ∈ later, Memory.Misses .virtual address.toNat
      (2 * ((Text.Utf16.encode text.toList).length + 1)) w) :
    (({ t with memory := (t.memory.writeUtf16 .virtual address.toNat text).writeAll later }).run
      (readUtf16 address)).1 =
      if (Text.Utf16.encode text.toList).length ≤ 1023 then .ok text
      else .error (.unterminated address 1024) := by
  refine run_readUtf16_of_holds h0 hp ?_
  refine (Memory.holds_writeUtf16 t.memory .virtual text hp).writeAll fun w hw => ?_
  rw [Memory.length_unitBytes, List.length_append, List.length_singleton]
  exact hl w hw

/-- A text with a pair of surrogates, written over the end of a page with other bytes right behind
    it, and one of 1024 letters. -/
theorem readUtf16_writeUtf16_at_limits :
    (({ Target.Simulated.new with
        memory := (Memory.empty.writeUtf16 .virtual 0xFFD
          (String.ofList ['/', Char.ofNat 0x1F600])).writeAll
            [(.virtual, 0x1005, [0x41, 0x41]), (.physical, 0xFFD, [0])] } :
          Target.Simulated).run (readUtf16 0xFFD)).1 =
        .ok (String.ofList ['/', Char.ofNat 0x1F600]) ∧
    (({ Target.Simulated.new with
        memory := (Memory.empty.writeUtf16 .virtual 0
          (String.ofList (List.replicate 1024 'a'))).writeAll [] } : Target.Simulated).run
        (readUtf16 0)).1 = .error (.unterminated 0 1024) := by
  have hpair : Text.Utf16.encode (String.ofList ['/', Char.ofNat 0x1F600]).toList =
      [0x2F, 0xD83D, 0xDE00] := by
    rw [String.toList_ofList]
    rfl
  have hlong : (Text.Utf16.encode (String.ofList (List.replicate 1024 'a')).toList).length =
      1024 := by
    rw [String.toList_ofList, Text.Utf16.encode, List.length_flatMap, List.map_replicate,
      List.sum_replicate_nat]
    rfl
  constructor
  · have h := readUtf16_writeUtf16 .new 0xFFD (String.ofList ['/', Char.ofNat 0x1F600])
      [(.virtual, 0x1005, [0x41, 0x41]), (.physical, 0xFFD, [0])]
      (by rw [String.toList_ofList]; decide) (by rw [hpair]; decide)
      (by rw [hpair]; unfold Memory.Misses; decide)
    rwa [hpair] at h
  · have h := readUtf16_writeUtf16 .new 0 (String.ofList (List.replicate 1024 'a')) []
      (fun h => by
        rw [String.toList_ofList, List.mem_replicate] at h
        exact absurd h.2 (by decide))
      (by rw [hlong]; decide) fun w hw => absurd hw List.not_mem_nil
    rwa [hlong] at h

end KernelProbe.Automation
