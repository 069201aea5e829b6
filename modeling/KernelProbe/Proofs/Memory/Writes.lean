import KernelProbe.Proofs.Memory.Pages

/-!
# Reads behind writes

A write does two things, apart from each other: it allocates the pages it touches
(`allocated_write`), and it changes the bytes of its own range, where a byte in a page that is not
allocated counts as zero (`value_write`). What a read gives follows from these two
(`read_eq_some_iff`, `read_eq_none_iff`), for ranges that overlap in any way.

* `Holds`: bytes can be read from an address on. A row of bytes is held exactly if its parts are,
  one behind the other (`holds_append`);
* `holds_write`, `Holds.write`: bytes that were written are held, and stay so when others are
  written elsewhere;
* `holds_writeWords`: words that are written apart from each other are all held in the end;
* `holds_writeUtf16`, `Holds.unit`: a text that was written is held unit by unit.
-/

namespace KernelProbe.Memory

variable {m : Memory} {space space' : AddressSpace} {a b x size : Nat}
  {data more bytes : List UInt8}

/-! ## Pages and bytes -/

/-- The page is allocated. -/
def Allocated (m : Memory) (space : AddressSpace) (page : Nat) : Prop :=
  m.pages.find? (space, page) ≠ none

/-- The byte at an address, zero where no page is allocated. -/
def value (m : Memory) (space : AddressSpace) (x : Nat) : UInt8 :=
  (m.byte? space x).getD 0

/-- A range has an address in the page. -/
def Touches (a size page : Nat) : Prop :=
  ∃ x, a ≤ x ∧ x < a + size ∧ x / 4096 = page

theorem byte?_of_allocated (h : m.Allocated space (x / 4096)) :
    m.byte? space x = some (m.value space x) := by
  obtain ⟨page, hp⟩ := Option.ne_none_iff_exists'.1 h
  rw [value, byte?, hp]
  rfl

theorem byte?_of_not_allocated (h : ¬m.Allocated space (x / 4096)) : m.byte? space x = none := by
  rw [byte?, Classical.not_not.1 h]
  rfl

theorem allocated_store (m : Memory) (space space' : AddressSpace) (a page : Nat) (b : UInt8) :
    (m.store space a b).Allocated space' page ↔
      m.Allocated space' page ∨ (space' = space ∧ a / 4096 = page) := by
  rw [Allocated, store, Dict.find?_insert]
  split
  · next h =>
    obtain ⟨rfl, rfl⟩ := Prod.mk.inj h
    simp
  · next h =>
    rw [Prod.mk.injEq, not_and] at h
    constructor
    · exact .inl
    · rintro (hm | ⟨hs, hp⟩)
      · exact hm
      · exact absurd hp (h hs.symm)

theorem value_store (m : Memory) (space space' : AddressSpace) (a x : Nat) (b : UInt8) :
    (m.store space a b).value space' x =
      if space' = space ∧ x = a then b else m.value space' x := by
  rw [value, byte?_store]
  split
  · rfl
  · split
    · next h =>
      obtain ⟨rfl, -⟩ := h
      rfl
    · rfl

theorem touches_succ (a size page : Nat) :
    Touches a (size + 1) page ↔ a / 4096 = page ∨ Touches (a + 1) size page := by
  constructor
  · rintro ⟨x, hl, hr, hp⟩
    rcases Nat.eq_or_lt_of_le hl with rfl | hl
    · exact .inl hp
    · exact .inr ⟨x, hl, by omega, hp⟩
  · rintro (hp | ⟨x, hl, hr, hp⟩)
    · exact ⟨a, Nat.le_refl a, by omega, hp⟩
    · exact ⟨x, by omega, by omega, hp⟩

/-- A write allocates the pages it touches, and no others. -/
theorem allocated_write (m : Memory) (space space' : AddressSpace) (a page : Nat)
    (data : List UInt8) : (m.write space a data).Allocated space' page ↔
      m.Allocated space' page ∨ (space' = space ∧ Touches a data.length page) := by
  induction data generalizing m a with
  | nil =>
    have hn : ¬Touches a 0 page := by
      rintro ⟨x, hl, hr, -⟩
      omega
    simp [write, hn]
  | cons b data ih =>
    rw [write, ih, allocated_store, List.length_cons, touches_succ, or_assoc, and_or_left]

/-- A write changes the bytes of its range, and no others. -/
theorem value_write (m : Memory) (space space' : AddressSpace) (a x : Nat) (data : List UInt8) :
    (m.write space a data).value space' x =
      if space' = space ∧ a ≤ x ∧ x < a + data.length then data[x - a]?.getD 0
      else m.value space' x := by
  induction data generalizing m a with
  | nil =>
    rw [write, if_neg]
    rintro ⟨-, hl, hr⟩
    exact Nat.not_lt.2 hl hr
  | cons b data ih =>
    rw [write, ih, value_store, List.length_cons]
    by_cases hs : space' = space
    · rcases Nat.lt_trichotomy x a with hx | rfl | hx
      · rw [if_neg (by omega), if_neg (by omega), if_neg (by omega)]
      · rw [if_neg (by omega), if_pos ⟨hs, rfl⟩, if_pos ⟨hs, by omega⟩, Nat.sub_self]
        rfl
      · have hi : x - a = x - (a + 1) + 1 := by omega
        have hne : ¬(space' = space ∧ x = a) := by omega
        rw [if_neg hne, hi, List.getElem?_cons_succ]
        by_cases hr : x < a + (data.length + 1)
        · rw [if_pos ⟨hs, by omega, by omega⟩, if_pos ⟨hs, by omega, hr⟩]
        · rw [if_neg (by omega), if_neg (by omega)]
    · simp [hs]

/-! ## Reads -/

/-- All bytes of a range can be read. -/
def Readable (m : Memory) (space : AddressSpace) (a size : Nat) : Prop :=
  ∀ x, a ≤ x → x < a + size → x < UInt64.size ∧ m.Allocated space (x / 4096)

theorem readable_succ (m : Memory) (space : AddressSpace) (a size : Nat) :
    m.Readable space a (size + 1) ↔
      (a < UInt64.size ∧ m.Allocated space (a / 4096)) ∧ m.Readable space (a + 1) size := by
  constructor
  · intro h
    exact ⟨h a (Nat.le_refl a) (by omega), fun x hl hr => h x (by omega) (by omega)⟩
  · rintro ⟨ha, h⟩ x hl hr
    rcases Nat.eq_or_lt_of_le hl with rfl | hl
    · exact ha
    · exact h x hl (by omega)

theorem read_of_readable (h : m.Readable space a size) :
    m.read space a size = some ((List.range' a size).map (m.value space)) := by
  induction size generalizing a with
  | zero => rfl
  | succ size ih =>
    obtain ⟨⟨ha, hp⟩, hr⟩ := (readable_succ m space a size).1 h
    rw [read_succ, readable?, if_pos ha, byte?_of_allocated hp, Option.bind_some, ih hr,
      List.range'_succ, List.map_cons]
    rfl

theorem read_of_not_readable (h : ¬m.Readable space a size) : m.read space a size = none := by
  induction size generalizing a with
  | zero => exact absurd (fun x hl hr => by omega) h
  | succ size ih =>
    rw [readable_succ, not_and] at h
    rw [read_succ, readable?]
    split
    · next ha =>
      by_cases hp : m.Allocated space (a / 4096)
      · rw [ih (h ⟨ha, hp⟩)]
        cases m.byte? space a <;> rfl
      · rw [byte?_of_not_allocated hp]
        rfl
    · rfl

theorem read_eq_some_iff : m.read space a size = some bytes ↔
    m.Readable space a size ∧ bytes = (List.range' a size).map (m.value space) := by
  by_cases h : m.Readable space a size
  · simp [read_of_readable h, h, eq_comm]
  · simp [read_of_not_readable h, h]

/-- A read fails if it goes past the end of the address space or into a page that is not
    allocated. -/
theorem read_eq_none_iff : m.read space a size = none ↔
    0 < size ∧ (UInt64.size < a + size ∨
      ∃ x, a ≤ x ∧ x < a + size ∧ ¬m.Allocated space (x / 4096)) := by
  have hr : m.read space a size = none ↔ ¬m.Readable space a size := by
    by_cases h : m.Readable space a size
    · simp [read_of_readable h, h]
    · simp [read_of_not_readable h, h]
  rw [hr]
  constructor
  · intro h
    obtain ⟨x, h⟩ := Classical.not_forall.1 h
    obtain ⟨hl, h⟩ := Classical.not_imp.1 h
    obtain ⟨hx, h⟩ := Classical.not_imp.1 h
    refine ⟨by omega, ?_⟩
    by_cases he : x < UInt64.size
    · exact .inr ⟨x, hl, hx, fun hp => h ⟨he, hp⟩⟩
    · exact .inl (by omega)
  · rintro ⟨hs, he | ⟨x, hl, hx, hp⟩⟩ h
    · exact absurd (h (a + size - 1) (by omega) (by omega)).1 (by omega)
    · exact hp (h x hl hx).2

theorem length_of_read (h : m.read space a size = some bytes) : bytes.length = size := by
  obtain ⟨-, rfl⟩ := read_eq_some_iff.1 h
  rw [List.length_map, List.length_range']

/-- A byte of a successful read, by its address. -/
theorem byte_of_read (h : m.read space a size = some bytes) (hl : a ≤ x) (hr : x < a + size) :
    bytes[x - a]? = some (m.value space x) := by
  obtain ⟨-, rfl⟩ := read_eq_some_iff.1 h
  rw [List.getElem?_map, List.getElem?_range' (by omega), Option.map_some, Nat.one_mul,
    Nat.add_sub_cancel' hl]

/-- A write leaves the other space as it is. -/
theorem read_write_other_space (m : Memory) (data : List UInt8) (a b size : Nat)
    (hs : space' ≠ space) :
    (m.write space a data).read space' b size = m.read space' b size := by
  have hp (page : Nat) :
      (m.write space a data).Allocated space' page ↔ m.Allocated space' page := by
    rw [allocated_write, or_iff_left fun h => hs h.1]
  have hv : (m.write space a data).value space' = m.value space' := by
    funext x
    rw [value_write, if_neg fun h => hs h.1]
  refine Option.ext fun bytes => ?_
  rw [read_eq_some_iff, read_eq_some_iff, hv]
  refine and_congr_left' ?_
  simp only [Readable, hp]

/-! ## Bytes that are held -/

/-- The bytes can be read from the address on. -/
def Holds (m : Memory) (space : AddressSpace) (a : Nat) (data : List UInt8) : Prop :=
  m.read space a data.length = some data

theorem readable_add (m : Memory) (space : AddressSpace) (a n k : Nat) :
    m.Readable space a (n + k) ↔ m.Readable space a n ∧ m.Readable space (a + n) k := by
  constructor
  · intro h
    exact ⟨fun x hl hx => h x hl (by omega), fun x hl hx => h x (by omega) (by omega)⟩
  · rintro ⟨h₁, h₂⟩ x hl hx
    by_cases hn : x < a + n
    · exact h₁ x hl hn
    · exact h₂ x (by omega) (by omega)

theorem holds_append : m.Holds space a (data ++ more) ↔
    m.Holds space a data ∧ m.Holds space (a + data.length) more := by
  simp only [Holds, read_eq_some_iff]
  rw [List.length_append, readable_add, ← List.range'_append_1, List.map_append]
  constructor
  · rintro ⟨⟨h₁, h₂⟩, he⟩
    obtain ⟨hd, hm⟩ := List.append_inj he (by simp)
    exact ⟨⟨h₁, hd⟩, h₂, hm⟩
  · rintro ⟨⟨h₁, hd⟩, h₂, hm⟩
    exact ⟨⟨h₁, h₂⟩, by rw [← hd, ← hm]⟩

/-- What was written can be read. -/
theorem holds_write (m : Memory) (space : AddressSpace) (h : a + data.length ≤ UInt64.size) :
    (m.write space a data).Holds space a data := by
  refine read_eq_some_iff.2 ⟨fun x hl hx => ⟨Nat.lt_of_lt_of_le hx h, ?_⟩, ?_⟩
  · exact (allocated_write ..).2 (.inr ⟨rfl, x, hl, hx, rfl⟩)
  · refine List.ext_getElem (by simp) fun i hi _ => ?_
    rw [List.getElem_map, List.getElem_range', Nat.one_mul, value_write,
      if_pos ⟨rfl, by omega, by omega⟩, Nat.add_sub_cancel_left, List.getElem?_eq_getElem hi,
      Option.getD_some]

theorem holds_writeWord64 {v : UInt64} (m : Memory) (space : AddressSpace)
    (h : a + 8 ≤ UInt64.size) :
    (m.writeWord64 space a v).Holds space a (LittleEndian.bytes 8 v.toNat) :=
  holds_write m space (by rwa [LittleEndian.length_bytes])

/-- What is held stays so when something is written elsewhere. -/
theorem Holds.write (h : m.Holds space a data)
    (hd : space' = space → a + data.length ≤ b ∨ b + more.length ≤ a) :
    (m.write space' b more).Holds space a data := by
  obtain ⟨hr, he⟩ := read_eq_some_iff.1 h
  refine read_eq_some_iff.2 ⟨fun x hl hx => ⟨(hr x hl hx).1, ?_⟩, he.trans ?_⟩
  · exact (allocated_write ..).2 (.inl (hr x hl hx).2)
  · refine List.map_congr_left fun x hx => ?_
    rw [List.mem_range'_1] at hx
    rw [value_write, if_neg]
    rintro ⟨rfl, hl, hr⟩
    have := hd rfl
    omega

/-- Memory with more bytes written into it, in this order. -/
def writeAll (m : Memory) (writes : List (AddressSpace × Nat × List UInt8)) : Memory :=
  writes.foldl (fun m w => m.write w.1 w.2.1 w.2.2) m

/-- A write misses a range: it goes to the other space, or behind the range, or before it. -/
def Misses (space : AddressSpace) (a size : Nat) (w : AddressSpace × Nat × List UInt8) : Prop :=
  w.1 = space → a + size ≤ w.2.1 ∨ w.2.1 + w.2.2.length ≤ a

theorem Holds.writeAll {writes : List (AddressSpace × Nat × List UInt8)}
    (h : m.Holds space a data) (hw : ∀ w ∈ writes, Misses space a data.length w) :
    (m.writeAll writes).Holds space a data := by
  induction writes generalizing m with
  | nil => exact h
  | cons w writes ih =>
    rw [List.forall_mem_cons] at hw
    exact ih (h.write hw.1) hw.2

/-! ## Words -/

/-- Memory with words of 64 bits written into it, each at its place, in this order. -/
def writeWords (m : Memory) (space : AddressSpace) (words : List (Nat × UInt64)) : Memory :=
  words.foldl (fun m w => m.writeWord64 space w.1 w.2) m

theorem writeWords_cons (m : Memory) (space : AddressSpace) (w : Nat × UInt64)
    (words : List (Nat × UInt64)) : m.writeWords space (w :: words) =
      (m.writeWord64 space w.1 w.2).writeWords space words := by
  rw [writeWords, writeWords, List.foldl_cons]

/-- Two words lie in ranges that do not meet. -/
def Apart (w w' : Nat × UInt64) : Prop :=
  w.1 + 8 ≤ w'.1 ∨ w'.1 + 8 ≤ w.1

theorem Holds.writeWords {words : List (Nat × UInt64)} (h : m.Holds space a data)
    (hw : ∀ w ∈ words, a + data.length ≤ w.1 ∨ w.1 + 8 ≤ a) :
    (m.writeWords space words).Holds space a data := by
  induction words generalizing m with
  | nil => exact h
  | cons w words ih =>
    rw [List.forall_mem_cons] at hw
    rw [writeWords_cons, writeWord64]
    refine ih (h.write fun _ => ?_) hw.2
    rw [LittleEndian.length_bytes]
    exact hw.1

/-- Words that lie apart are all held in the end. -/
theorem holds_writeWords (m : Memory) (space : AddressSpace) {words : List (Nat × UInt64)}
    (hd : words.Pairwise Apart) (hs : ∀ w ∈ words, w.1 + 8 ≤ UInt64.size) :
    ∀ w ∈ words, (m.writeWords space words).Holds space w.1 (LittleEndian.bytes 8 w.2.toNat) := by
  induction words generalizing m with
  | nil => exact fun w hw => absurd hw List.not_mem_nil
  | cons v words ih =>
    rw [List.pairwise_cons] at hd
    rw [List.forall_mem_cons] at hs ⊢
    rw [writeWords_cons]
    have hv := holds_writeWord64 (v := v.2) m space hs.1
    refine ⟨hv.writeWords fun w hw => ?_, ih _ hd.2 hs.2⟩
    rw [LittleEndian.length_bytes]
    exact hd.1 w hw

/-! ## Texts -/

/-- Units of 16 bits as they are stored, each with its lowest byte first. -/
def unitBytes (us : List UInt16) : List UInt8 :=
  us.flatMap fun u => LittleEndian.bytes 2 u.toNat

theorem length_unitBytes (us : List UInt16) : (unitBytes us).length = 2 * us.length := by
  induction us with
  | nil => rfl
  | cons u us ih =>
    rw [unitBytes, List.flatMap_cons, List.length_append, LittleEndian.length_bytes, ← unitBytes,
      ih, List.length_cons, Nat.mul_succ, Nat.add_comm]

/-- Where units are held, each of them is held at its place. -/
theorem Holds.unit {us : List UInt16} {u : UInt16} {i : Nat} (h : m.Holds space a (unitBytes us))
    (hu : us[i]? = some u) : m.Holds space (a + 2 * i) (LittleEndian.bytes 2 u.toNat) := by
  induction us generalizing a i with
  | nil => cases hu
  | cons v us ih =>
    rw [unitBytes, List.flatMap_cons, holds_append, LittleEndian.length_bytes] at h
    cases i with
    | zero =>
      rw [List.getElem?_cons_zero] at hu
      exact Option.some.inj hu ▸ h.1
    | succ i =>
      rw [List.getElem?_cons_succ] at hu
      have hp : a + 2 * (i + 1) = a + 2 + 2 * i := by omega
      rw [hp]
      exact ih h.2 hu

theorem holds_writeUtf16 (m : Memory) (space : AddressSpace) (text : String)
    (h : a + 2 * ((Text.Utf16.encode text.toList).length + 1) ≤ UInt64.size) :
    (m.writeUtf16 space a text).Holds space a
      (unitBytes (Text.Utf16.encode text.toList ++ [0])) :=
  holds_write m space (by rwa [← unitBytes, length_unitBytes, List.length_append,
    List.length_singleton])

end KernelProbe.Memory
