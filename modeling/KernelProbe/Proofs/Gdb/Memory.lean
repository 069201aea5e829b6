import Mathlib.Data.List.Sort
import KernelProbe.Proofs.Gdb.Focus
import KernelProbe.Proofs.Memory.Pages
import KernelProbe.Proofs.Mi.Record
import KernelProbe.Proofs.Paging.Walk
import KernelProbe.Target.Simulated

/-!
# Memory over a connection

A debugger shows the memory of a range in blocks, which hold the bytes that can be read and leave
out the others (`Shows`). Where it cuts a readable run into blocks is its own affair: in ascending
order, the blocks together hold the readable bytes of the range and no others
(`Shows.flatMap_bytes`), so that a byte is missing exactly if they are too few.

* `readMemory_served`: a read over a connection to a debugger that serves a memory
  (`Serves`) gives what a read of the memory gives;
* `carryOut_served`: hence a script that only reads comes to the same end over the connection as
  on a simulated target with that memory;
* `memory_served`: a walk of the page tables is such a script.
-/

namespace KernelProbe.Gdb

open Debugger Mi Program

/-! ## Blocks -/

/-- A block of memory, with what the debugger displays of its place. -/
structure Block where
  address : Nat
  bytes : List UInt8
  start : String
  offset : String
  stop : String

/-- The two digits of each byte, in lower case. -/
def hexDigits (bytes : List UInt8) : List Char :=
  bytes.flatMap fun b => [Text.digitChar (b.toNat / 16), Text.digitChar (b.toNat % 16)]

namespace Block

/-- The addresses of the bytes. -/
def addresses (b : Block) : List Nat :=
  List.range' b.address b.bytes.length

/-- A block as the debugger shows it. -/
def value (b : Block) : Value :=
  .tuple [("begin", .text b.start), ("offset", .text b.offset), ("end", .text b.stop),
    ("contents", .text (String.ofList (hexDigits b.bytes)))]

end Block

/-- The blocks hold what can be read of a memory in a range. -/
structure Shows (m : Memory) (space : AddressSpace) (address size : Nat) (blocks : List Block) :
    Prop where
  ascending : blocks.Pairwise fun b b' => b.address ≤ b'.address
  disjoint : blocks.Pairwise fun b b' => b.addresses.Disjoint b'.addresses
  /-- The blocks have exactly the readable addresses. -/
  covers : ∀ a, (∃ b ∈ blocks, a ∈ b.addresses) ↔
    address ≤ a ∧ a < address + size ∧ (m.readable? space a).isSome
  contents : ∀ b ∈ blocks, b.addresses.map (m.readable? space) = b.bytes.map some

/-- The answer that shows blocks of memory. -/
def memoryReply (token : Option UInt64) (blocks : List Block) : Record where
  token := token
  kind := .result
  className := "done"
  results := [("memory", .list (blocks.map Block.value))]

/-- An exchange in a focus with a debugger that serves a memory: its line in answer to a request
    for memory shows what can be read in the range that the request names, and it accepts the
    packets of the emulator. -/
structure Serves (m : Memory) (x : Focus × Exchange channel) : Prop where
  memory : ∀ request address size, x.2.call = .request request →
    reading? request = some (.memory address size) →
      ∃ token blocks record, Shows m x.1.space address size blocks ∧
        Record.read? (memoryReply token blocks).render = some record ∧
        x.2 = ⟨.request request, .ok record⟩
  packets : ∀ request, x.2.call = .request request →
    request = physicalPacket ∨ request = virtualPacket → accepted x.2 = true

variable {m : Memory} {space : AddressSpace} {start size : Nat} {blocks : List Block}
  {address : UInt64} {log : Log channel}

/-! ## What blocks hold together -/

theorem Block.filterMap_addresses {b : Block}
    (h : b.addresses.map (m.readable? space) = b.bytes.map some) :
    b.addresses.filterMap (m.readable? space) = b.bytes := by
  have := congrArg (List.filterMap id) h
  simpa [List.filterMap_map] using this

namespace Shows

/-- The addresses of all blocks ascend. -/
theorem pairwise_addresses (h : Shows m space start size blocks) :
    (blocks.flatMap Block.addresses).Pairwise (· < ·) := by
  refine List.pairwise_flatMap.2 ⟨fun b _ => List.pairwise_lt_range', ?_⟩
  refine (h.ascending.and h.disjoint).imp fun {b b'} hb x hx y hy => ?_
  -- Otherwise `y` would lie in both blocks.
  by_contra hxy
  refine hb.2 ?_ hy
  simp only [Block.addresses, List.mem_range'_1] at hx hy ⊢
  omega

theorem flatMap_addresses (h : Shows m space start size blocks) :
    blocks.flatMap Block.addresses =
      (List.range' start size).filter fun a => (m.readable? space a).isSome := by
  have hr : (List.range' start size).Pairwise (· < ·) := List.pairwise_lt_range'
  refine h.pairwise_addresses.eq_of_mem_iff (hr.filter _) fun a => ?_
  rw [List.mem_flatMap, h.covers, List.mem_filter, List.mem_range'_1, and_assoc]

/-- However the readable runs are cut, the blocks hold the readable bytes in order. -/
theorem flatMap_bytes (h : Shows m space start size blocks) :
    blocks.flatMap Block.bytes = m.readableBytes space start size := by
  calc blocks.flatMap Block.bytes
      = blocks.flatMap fun b => b.addresses.filterMap (m.readable? space) :=
        List.flatMap_congr fun b hb => (Block.filterMap_addresses (h.contents b hb)).symm
    _ = (blocks.flatMap Block.addresses).filterMap (m.readable? space) := by
        rw [List.filterMap_flatMap]
    _ = m.readableBytes space start size := by
        rw [h.flatMap_addresses, List.filterMap_filter, Memory.readableBytes]
        refine List.filterMap_congr fun a _ => ?_
        cases m.readable? space a <;> rfl

end Shows

/-! ## Answers -/

theorem decodeBytes?_hexDigits (bytes : List UInt8) :
    decodeBytes? (hexDigits bytes) = some bytes := by
  induction bytes with
  | nil => rfl
  | cons b bytes ih =>
    have hlt := b.toNat_lt
    have hd : b.toNat / 16 * 16 + b.toNat % 16 = b.toNat := Nat.div_add_mod' _ _
    have hr : Text.readNumber 16 256
        [Text.digitChar (b.toNat / 16), Text.digitChar (b.toNat % 16)] = .ok b.toNat := by
      rw [Text.readNumber_cons (Text.digitChar_ne_plus (by omega)), Text.appendDigits,
        Text.digit?_digitChar (by decide) (by omega)]
      dsimp only
      rw [if_pos (by omega), Text.appendDigits, Text.digit?_digitChar (by decide) (by omega)]
      dsimp only
      rw [if_pos (by omega), Text.appendDigits, Nat.zero_mul, Nat.zero_add, hd]
    rw [hexDigits, List.flatMap_cons, ← hexDigits, List.cons_append, List.cons_append,
      List.nil_append, decodeBytes?, hr]
    dsimp only
    rw [ih, Option.map_some]
    simp

theorem blockBytes?_value (b : Block) : blockBytes? b.value = some b.bytes := by
  have h : blockBytes? b.value = decodeBytes? (String.ofList (hexDigits b.bytes)).toList := rfl
  rw [h, String.toList_ofList, decodeBytes?_hexDigits]

theorem mapM_blockBytes? (blocks : List Block) :
    (blocks.map Block.value).mapM blockBytes? = some (blocks.map Block.bytes) := by
  induction blocks with
  | nil => rfl
  | cons b blocks ih =>
    rw [List.map_cons, List.mapM_cons, blockBytes?_value, ih]
    rfl

theorem bytesOf_memoryReply (token : Option UInt64) (blocks : List Block) :
    bytesOf space address size (.ok (memoryReply token blocks)) =
      if (blocks.flatMap Block.bytes).length = size then .ok (blocks.flatMap Block.bytes)
      else .error (.unreadableMemory space address) := by
  have hb : bytesOf space address size (.ok (memoryReply token blocks)) =
      (require (memoryRequest address size) "contents"
        ((blocks.map Block.value).mapM blockBytes?)).bind fun bytes =>
          if bytes.flatten.length = size then .ok bytes.flatten
          else .error (.unreadableMemory space address) := rfl
  rw [hb, mapM_blockBytes?, List.flatMap_def]
  rfl

theorem wellNamed_values (blocks : List Block) : Items.WellNamed (blocks.map Block.value) := by
  induction blocks with
  | nil => trivial
  | cons b blocks ih =>
    rw [List.map_cons, Items.WellNamed, and_iff_left ih]
    simp only [Block.value, Value.WellNamed, Results.WellNamed, true_and, and_true]
    decide

/-- The answer is read from its spelling. -/
theorem read?_memoryReply (token : Option UInt64) (blocks : List Block) :
    Record.read? (memoryReply token blocks).render = some (memoryReply token blocks) := by
  have hd : (memoryReply token blocks).className = "done" := rfl
  refine Record.read?_render ⟨?_, ?_, nofun, ?_⟩
  · rw [hd]
    decide
  · rw [hd]
    decide
  · simp only [memoryReply, Results.WellNamed, Value.WellNamed, wellNamed_values, and_true]
    decide

/-! ## Reads -/

/-- What a read of a memory gives. -/
def readOf (m : Memory) (space : AddressSpace) (address : UInt64) (size : Nat) :
    Except Error (List UInt8) :=
  match m.read space address.toNat size with
  | some bytes => .ok bytes
  | none => .error (.unreadableMemory space address)

theorem readOf_eq : readOf m space address size =
    if (m.readableBytes space address.toNat size).length = size then
      .ok (m.readableBytes space address.toNat size)
    else .error (.unreadableMemory space address) := by
  rw [readOf, Memory.read_eq]
  by_cases h : (m.readableBytes space address.toNat size).length = size
  · rw [if_pos h, if_pos h]
  · rw [if_neg h, if_neg h]

theorem bytesOf_served {answer : Except Error Record}
    (h : Serves m (⟨space, 0⟩, ⟨.request (memoryRequest address size), answer⟩)) :
    bytesOf space address size answer = readOf m space address size := by
  obtain ⟨token, blocks, record, hs, hr, ha⟩ :=
    h.memory _ _ _ rfl (reading?_memoryRequest address size)
  rw [read?_memoryReply] at hr
  cases hr
  cases ha
  rw [bytesOf_memoryReply, hs.flatMap_bytes, readOf_eq]

theorem serves_memory {f : Focus} (h : Shows m f.space address.toNat size blocks)
    (token : Option UInt64) :
    Serves m (f, ⟨.request (memoryRequest address size), .ok (memoryReply token blocks)⟩) where
  memory := by
    rintro _ address' size' ⟨⟩ hr
    obtain ⟨rfl, rfl⟩ : address.toNat = address' ∧ size = size' := by
      simpa [reading?_memoryRequest] using hr
    exact ⟨token, blocks, _, h, read?_memoryReply token blocks, rfl⟩
  packets := by
    rintro _ ⟨⟩ (h | h)
    · exact absurd (congrArg letter h) (by simp)
    · exact absurd (congrArg letter h) (by simp)

theorem serves_packet {f : Focus} {packet : String} {answer : Except Error Record}
    (h : accepted ⟨.request (consoleRequest packet), answer⟩ = true) :
    Serves m (f, ⟨.request (consoleRequest packet), answer⟩) where
  memory := by
    rintro _ address size ⟨⟩ hr
    rw [reading?_eq_none (by simp)] at hr
    cases hr
  packets := fun _ _ _ => h

theorem hear_memoryRequest (f : Focus) (answer : Except Error Record) :
    f.hear ⟨.request (memoryRequest address size), answer⟩ = f :=
  Focus.hear_of_accept (f.accept_memoryRequest address size) answer

/-- Behind an accepted packet, memory is read in physical mode. -/
theorem along_physicalRead {there bytes back : Except Error Record}
    (h : accepted ⟨.request (consoleRequest physicalModeOn), there⟩ = true) :
    Focus.start.along [⟨.request (consoleRequest physicalModeOn), there⟩,
        ⟨.request (memoryRequest address size), bytes⟩,
        ⟨.request (consoleRequest physicalModeOff), back⟩] =
      [(.start, ⟨.request (consoleRequest physicalModeOn), there⟩),
        (⟨.physical, 0⟩, ⟨.request (memoryRequest address size), bytes⟩),
        (⟨.physical, 0⟩, ⟨.request (consoleRequest physicalModeOff), back⟩)] := by
  obtain ⟨record, hv⟩ := accepted_iff.1 h
  have hp : Focus.start.hear ⟨.request (consoleRequest physicalModeOn), there⟩ = ⟨.physical, 0⟩ :=
    (Focus.hear_of_ok hv .start).trans (Focus.accept_physicalModeOn .start)
  simp only [Focus.along, hp, hear_memoryRequest]

/-- A read over a connection to a debugger that serves a memory gives what a read of the memory
    gives, and leaves the debugger where it starts. -/
theorem readMemory_served {r : Except Error (List UInt8)}
    (hp : Path (readMemory space address size) log r)
    (hs : ∀ x ∈ Focus.start.along log, Serves m x) :
    r = readOf m space address size ∧ log.foldl Focus.hear .start = .start := by
  cases space with
  | virtual =>
    obtain ⟨answer, rfl, rfl⟩ := path_readBytes.1 hp
    exact ⟨bytesOf_served (hs _ List.mem_cons_self), hear_memoryRequest .start answer⟩
  | physical =>
    obtain ⟨answer, rest, rfl, h⟩ := path_physicalRead.1 hp
    -- The packets are accepted, so that the read is in physical memory and the way back open.
    have hon := (hs _ List.mem_cons_self).packets _ rfl (.inl consoleRequest_physicalModeOn)
    obtain ⟨e, he, -⟩ | ⟨record, bytes, back, hv, rfl, rfl⟩ := h
    · obtain ⟨record, hv⟩ := accepted_iff.1 hon
      rw [hv] at he
      cases he
    rw [along_physicalRead hon] at hs
    simp only [List.forall_mem_cons] at hs
    obtain ⟨-, hbytes, hback, -⟩ := hs
    obtain ⟨record', hoff⟩ :=
      accepted_iff.1 (hback.packets _ rfl (.inr consoleRequest_physicalModeOff))
    refine ⟨bytesOf_served hbytes, ?_⟩
    rw [List.foldl_cons, List.foldl_cons, List.foldl_cons, List.foldl_nil, hear_memoryRequest,
      Focus.hear_of_ok hv, Focus.hear_of_ok hoff, Focus.accept_physicalModeOn,
      Focus.accept_physicalModeOff]
    rfl

/-! ## Scripts that only read -/

/-- A call that reads memory. -/
def IsRead (c : Request Handler) : Prop :=
  ∃ space address size, c = .read space address size

theorem isRead_of_descent {va word : UInt64} {levels : List Paging.Level}
    {log : Log (interface Handler)} {steps : List Paging.Step}
    {outcome : Except Paging.Failure UInt64}
    (h : Paging.Descent va levels word log steps outcome) : ∀ e ∈ log, IsRead e.call := by
  induction h with
  | page _ => exact fun e he => absurd he List.not_mem_nil
  | unreadable _ _ => exact List.forall_mem_singleton.2 ⟨_, _, _, rfl⟩
  | notMapped _ _ _ => exact List.forall_mem_singleton.2 ⟨_, _, _, rfl⟩
  | mapped _ _ _ _ ih => exact List.forall_mem_cons.2 ⟨⟨_, _, _, rfl⟩, ih⟩

theorem only_walk (cr3 va : UInt64) : Only IsRead (Paging.walk (H := Handler) cr3 va) :=
  fun _ _ hp => isRead_of_descent (Paging.path_walk.1 hp).2

/-- A script that only reads comes to the same end over a connection to a debugger that serves a
    memory as on a target with that memory. -/
theorem carryOut_served {α : Type} {s : Script Handler α} {t : Target.Simulated} {r : α}
    (hr : Only IsRead s) (hp : Path (carryOut s) log r)
    (hs : ∀ x ∈ Focus.start.along log, Serves t.memory x) : r = (t.run s).1 := by
  -- Every read leaves the debugger where it starts, and the target with its memory.
  induction s generalizing t log with
  | done a => exact (path_done.1 hp).2
  | call c next ih =>
    have hnext : ∀ a, Only IsRead (next a) := fun a more b h e he =>
      hr (.call a h) e (List.mem_cons_of_mem _ he)
    obtain ⟨space, address, size, rfl⟩ : IsRead c :=
      hr (path_run Target.Simulated.answer (.call c next) t) _ List.mem_cons_self
    obtain ⟨first, a, second, hread, hrest, rfl⟩ := path_bind.1 hp
    rw [Focus.along_append, List.forall_mem_append] at hs
    obtain ⟨rfl, hback⟩ := readMemory_served hread hs.1
    rw [hback] at hs
    exact ih _ (hnext _) hrest hs.2

/-- A read over a connection to a debugger that serves a memory gives the bytes that a read of the
    memory gives, or says that they cannot be read; a walk comes to the same end as on a simulated
    target with that memory. -/
theorem memory_served {σ : Type} (answer : (c : Message) → σ → c.Answer × σ) (s : σ) :
    (∀ space address size,
      (∀ x ∈ Focus.start.along (trace answer (readMemory space address size) s), Serves m x) →
        (run answer (readMemory space address size) s).1 = readOf m space address size) ∧
    ∀ cr3 va (t : Target.Simulated), t.memory = m →
      (∀ x ∈ Focus.start.along (trace answer (carryOut (Paging.walk cr3 va)) s), Serves m x) →
        (run answer (carryOut (Paging.walk cr3 va)) s).1 = (t.run (Paging.walk cr3 va)).1 := by
  refine ⟨fun space address size hs => ?_, ?_⟩
  · exact (readMemory_served (path_run answer _ s) hs).1
  · rintro cr3 va t rfl hs
    exact carryOut_served (only_walk cr3 va) (path_run answer (carryOut (Paging.walk cr3 va)) s) hs

/-- Gives prepared answers to the requests, one after the other. -/
def replay : (c : Message) → List Record → c.Answer × List Record
  | .request _, record :: records => (.ok record, records)
  | .request request, [] => (.error (.noReply request), [])
  | .console _, records => ((), records)
  | .register .., records => ((), records)

/-- A page of physical memory that ends behind a byte. -/
def pageEnd : Memory :=
  Memory.empty.store .physical 0x5FFF 0xAB

theorem readable?_pageEnd (space : AddressSpace) (a : Nat) : pageEnd.readable? space a =
    if space = .physical ∧ a / 4096 = 5 then some (if a = 0x5FFF then 0xAB else 0) else none := by
  have hn : Memory.empty.byte? space a = none := rfl
  rw [Memory.readable?, pageEnd, Memory.byte?_store, hn]
  by_cases hs : space = .physical
  · by_cases ha : a / 4096 = 5
    · have hlt : a < UInt64.size := by
        simp only [UInt64.size]
        omega
      simp [hs, ha, hlt]
      split <;> rfl
    · have hne : a ≠ 0x5FFF := by omega
      simp [hs, ha, hne]
  · simp [hs]

/-- The last two bytes of the page, each in a block of its own. -/
def lastBlocks : List Block :=
  [⟨0x5FFE, [0], "0x5ffe", "0x0", "0x5fff"⟩, ⟨0x5FFF, [0xAB], "0x5fff", "0x0", "0x6000"⟩]

/-- The first eight bytes of the page in two blocks. -/
def firstBlocks : List Block :=
  [⟨0x5000, [0, 0, 0], "0x5000", "0x0", "0x5003"⟩,
    ⟨0x5003, [0, 0, 0, 0, 0], "0x5003", "0x0", "0x5008"⟩]

theorem shows_lastBlocks : Shows pageEnd .physical 0x5FFE 4 lastBlocks where
  ascending := by simp [lastBlocks]
  disjoint := by simp [lastBlocks, Block.addresses]
  covers := by
    intro a
    simp [lastBlocks, Block.addresses, readable?_pageEnd]
    omega
  contents := by simp [lastBlocks, Block.addresses, readable?_pageEnd]

theorem shows_firstBlocks : Shows pageEnd .physical 0x5000 8 firstBlocks where
  ascending := by simp [firstBlocks]
  disjoint := by simp [firstBlocks, Block.addresses, List.range']
  covers := by
    intro a
    simp [firstBlocks, Block.addresses, readable?_pageEnd]
    omega
  contents := by simp [firstBlocks, Block.addresses, List.range', readable?_pageEnd]

/-- The exchanges of a read of physical memory whose packets are accepted and whose bytes are
    shown are served. -/
theorem serves_physicalRead {token : Option UInt64} {there back : Except Error Record}
    (hon : accepted ⟨.request (consoleRequest physicalModeOn), there⟩ = true)
    (hb : Shows m .physical address.toNat size blocks)
    (hoff : accepted ⟨.request (consoleRequest physicalModeOff), back⟩ = true) :
    ∀ x ∈ Focus.start.along [⟨.request (consoleRequest physicalModeOn), there⟩,
      ⟨.request (memoryRequest address size), .ok (memoryReply token blocks)⟩,
      ⟨.request (consoleRequest physicalModeOff), back⟩], Serves m x := by
  rw [along_physicalRead hon]
  simp only [List.forall_mem_cons]
  exact ⟨serves_packet hon, serves_memory hb token, serves_packet hoff,
    fun x hx => absurd hx List.not_mem_nil⟩

theorem memory_served_pageEnd :
    let done : Record := ⟨none, .result, "done", []⟩
    let last := [done, memoryReply (some 7) lastBlocks, done]
    let first := [done, memoryReply none firstBlocks, done]
    (run replay (readMemory .physical 0x5FFE 4) last).1 = readOf pageEnd .physical 0x5FFE 4 ∧
      (run replay (carryOut (Paging.walk 0x5000 0)) first).1 =
        (Target.Simulated.run { Target.Simulated.new with memory := pageEnd }
          (Paging.walk 0x5000 0)).1 := by
  intro done last first
  refine ⟨(memory_served replay last).1 _ _ _ ?_, (memory_served replay first).2 _ _ _ rfl ?_⟩
  · exact serves_physicalRead rfl shows_lastBlocks rfl
  · exact serves_physicalRead rfl shows_firstBlocks rfl

end KernelProbe.Gdb
