import KernelProbe.Proofs.Debugger.Script
import KernelProbe.Proofs.Gdb.Channel

/-!
# The debugger's focus

The debugger has a focus: the address space that it reads memory in, and the selected frame. Of
all that goes over a connection, only the two packets of the emulator and the selection of a frame
change it, and only if they are accepted (`Focus.hear`). The operations that are carried out over
a connection start in virtual memory and the innermost frame. Some change the focus for a request
of their own, and each of their requests may be refused or stay without an answer. What a request
does to the debugger, and what it reads (`reading?`), is told by its text.

* `Operation.restores`: one operation reads in its own focus and leaves the debugger where it
  starts;
* `Operation.asks`: it has asked for what it gives;
* `focus_restored`: hence so does every operation of a run, whatever the others came to.
-/

namespace KernelProbe.Gdb

open Debugger Mi Program

/-! ## The focus -/

/-- What the debugger reads in. -/
structure Focus where
  /-- The address space that memory is read in. -/
  space : AddressSpace
  /-- The selected frame. -/
  frame : Nat
  deriving DecidableEq, Repr

/-- The request for the packet after which the emulator reads physical memory. -/
def physicalPacket : String :=
  "-interpreter-exec console \"maintenance packet Qqemu.PhyMemMode:1\""

/-- The request for the packet after which the emulator reads virtual memory again. -/
def virtualPacket : String :=
  "-interpreter-exec console \"maintenance packet Qqemu.PhyMemMode:0\""

/-- The number that digits spell. -/
def number? (base : Nat) (ds : List Char) : Option Nat :=
  (Text.readNumber base (base ^ ds.length) ds).toOption

/-- The frame that a request selects. -/
def selectedFrame? (request : String) : Option Nat :=
  (Text.afterStart? "-stack-select-frame ".toList request.toList).bind (number? 10)

/-- Whether an exchange is a request with an answer that reports no error. -/
def accepted : Exchange channel → Bool
  | ⟨.request _, .ok record⟩ => ¬(record.kind = .result ∧ record.className = "error")
  | _ => false

namespace Focus

/-- Virtual memory and the innermost frame. -/
def start : Focus := ⟨.virtual, 0⟩

/-- The focus when a request was accepted. -/
def accept (f : Focus) (request : String) : Focus :=
  if request = physicalPacket then { f with space := .physical }
  else if request = virtualPacket then { f with space := .virtual }
  else { f with frame := (selectedFrame? request).getD f.frame }

/-- The focus behind an exchange. -/
def hear (f : Focus) (e : Exchange channel) : Focus :=
  match e.call with
  | .request request => if accepted e then f.accept request else f
  | _ => f

/-- The exchanges, each with the focus in which it is made. -/
def along (f : Focus) : Log channel → List (Focus × Exchange channel)
  | [] => []
  | e :: log => (f, e) :: (f.hear e).along log

/-- An exchange that is to take the debugger back to where it starts. -/
def IsWayBack (f : Focus) (e : Exchange channel) : Prop :=
  (f.space = .physical ∧ e.call = .request virtualPacket) ∨
    (f.frame ≠ 0 ∧ e.call = .request "-stack-select-frame 0")

end Focus

/-! ## What is read -/

/-- What is read of the debugger. -/
inductive Reading
  /-- So many bytes of memory from an address on. -/
  | memory (address size : Nat)
  /-- The value of an expression. -/
  | value (expression : String)
  deriving DecidableEq, Repr

/-- What a request reads: bytes, with their address in hexadecimal digits, or the value of an
    expression that stands in it as a literal. -/
def reading? (request : String) : Option Reading :=
  match Text.afterStart? "-data-read-memory-bytes 0x".toList request.toList with
  | some range => do
    let (address, size) ← Text.splitAt? ' ' range
    return .memory (← number? 16 address) (← number? 10 size)
  | none => do
    let literal ← Text.afterStart? "-data-evaluate-expression ".toList request.toList
    match ← Literal.read? literal with
    | (expression, ⟨[], _⟩) => some (.value expression)
    | _ => none

/-- A request that reads memory or a value, by its first word. -/
def Reads (m : Message) : Prop :=
  ∃ rest, m = .request ("-data-read-memory-bytes " ++ rest) ∨
    m = .request ("-data-evaluate-expression " ++ rest)

/-- The exchanges have a request for a reading. -/
def Asks (log : Log channel) (reading : Reading) : Prop :=
  ∃ request answer, ⟨.request request, answer⟩ ∈ log ∧ reading? request = some reading

/-! ## Operations -/

/-- The operations over a connection. -/
inductive Operation
  | read (space : AddressSpace) (address : UInt64) (size : Nat)
  | readWord64 (space : AddressSpace) (address : UInt64)
  | readWord16 (space : AddressSpace) (address : UInt64)
  | evaluate (expression : String)
  | execute (command : String)
  | setBreakpoint (address : UInt64)
  | frameValue (frame : Nat) (name : String)
  | resume
  deriving DecidableEq, Repr

namespace Operation

/-- What an operation gives. -/
abbrev Result : Operation → Type
  | read .. => List UInt8
  | readWord64 .. => UInt64
  | readWord16 .. => UInt16
  | evaluate _ => UInt64
  | execute _ => Unit
  | setBreakpoint _ => HookId
  | frameValue .. => UInt64
  | resume => Unit

/-- How an operation is carried out. -/
def program : (o : Operation) → Attempt o.Result
  | read space address size => carryOut (Debugger.read space address size)
  | readWord64 space address => carryOut (Debugger.readWord64 space address)
  | readWord16 space address => carryOut (Debugger.readWord16 space address)
  | evaluate expression => carryOut (Debugger.evaluate expression)
  | execute command => carryOut (Debugger.execute command)
  | setBreakpoint address => carryOut (Debugger.setBreakpoint address)
  | frameValue frame name => carryOut (Debugger.frameValue frame name)
  | resume => Gdb.resume

/-- The focus in which an operation reads. -/
def focus : Operation → Focus
  | read space _ _ | readWord64 space _ | readWord16 space _ => ⟨space, 0⟩
  | frameValue frame _ => ⟨.virtual, frame⟩
  | _ => .start

/-- What an operation reads. -/
def reading? : Operation → Option Reading
  | read _ address size => some (.memory address.toNat size)
  | readWord64 _ address => some (.memory address.toNat 8)
  | readWord16 _ address => some (.memory address.toNat 2)
  | evaluate expression | frameValue _ expression => some (.value expression)
  | _ => none

/-- The operation is none that sends the emulator's packets as a command. -/
def LeavesMode (o : Operation) : Prop :=
  o ≠ execute "maintenance packet Qqemu.PhyMemMode:1" ∧
    o ≠ execute "maintenance packet Qqemu.PhyMemMode:0"

end Operation

/-- What was exchanged while an operation was carried out. -/
structure Performed where
  operation : Operation
  log : Log channel

/-- The exchanges are those of the operation, under some answers. -/
def Performed.IsPath (p : Performed) : Prop :=
  ∃ r, Path p.operation.program p.log r

/-- The operation has given a value. -/
def Performed.Succeeded (p : Performed) : Prop :=
  ∃ a, Path p.operation.program p.log (.ok a)

/-- The focus behind operations. -/
def focusAfter (run : List Performed) : Focus :=
  (run.flatMap Performed.log).foldl Focus.hear .start

/-! ## The texts of requests -/

variable {f : Focus} {request : String} {answer : Except Error Record} {log : Log channel}
  {address : UInt64} {size frame : Nat} {space : AddressSpace} {expression name : String}

theorem consoleRequest_physicalModeOn : consoleRequest physicalModeOn = physicalPacket := by
  decide

theorem consoleRequest_physicalModeOff : consoleRequest physicalModeOff = virtualPacket := by
  decide

@[simp]
theorem letter_physicalPacket : letter physicalPacket = some 'i' := rfl

@[simp]
theorem letter_virtualPacket : letter virtualPacket = some 'i' := rfl

theorem frameRequest_zero : frameRequest 0 = "-stack-select-frame 0" := by
  rw [← String.toList_inj, toList_frameRequest, Text.digits_of_lt (by decide)]
  rfl

theorem number?_digits {base : Nat} (hb : 2 ≤ base) (hb' : base ≤ 16) (n : Nat) :
    number? base (Text.digits base n) = some n := by
  rw [number?, Text.readNumber_digits hb hb' (Text.lt_pow_length_digits hb n)]
  rfl

theorem reading?_memoryRequest (address : UInt64) (size : Nat) :
    reading? (memoryRequest address size) = some (.memory address.toNat size) := by
  -- The digits of the address end at the first blank.
  have hn : ' ' ∉ Text.digits 16 address.toNat := fun h =>
    absurd (Text.isHexDigit_of_mem_digits (by decide) (by decide) h) (by decide)
  simp only [reading?, toList_memoryRequest, Text.afterStart?_append, Text.splitAt?_append hn,
    number?_digits, Option.bind_eq_bind, Option.bind_some, Option.pure_def, Nat.reduceLeDiff]

theorem reading?_evaluateRequest (expression : String) :
    reading? (evaluateRequest expression) = some (.value expression) := by
  obtain ⟨_, hq⟩ := Literal.gives_quote expression
  -- A reading of memory starts with another text.
  have hm : Text.afterStart? "-data-read-memory-bytes 0x".toList
      ("-data-evaluate-expression ".toList ++ (Literal.quote expression).toList) = none := rfl
  simp only [reading?, toList_evaluateRequest, hm, Text.afterStart?_append, hq,
    Option.bind_eq_bind, Option.bind_some]

/-- Only a request for data reads. -/
theorem reading?_eq_none (h : letter request ≠ some 'd') : reading? request = none := by
  -- The texts that readings start with have that letter behind their dash.
  have hn : ∀ start : List Char, start[1]? = some 'd' →
      Text.afterStart? start request.toList = none := by
    intro start hs
    rw [Option.eq_none_iff_forall_ne_some]
    intro rest hr
    refine h ?_
    rw [letter, Text.afterStart?_eq_some.1 hr]
    exact List.getElem?_append_left (List.getElem?_eq_some_iff.1 hs).1 ▸ hs
  simp only [reading?, hn "-data-read-memory-bytes 0x".toList rfl,
    hn "-data-evaluate-expression ".toList rfl, Option.bind_eq_bind, Option.bind_none]

/-! ## One exchange -/

theorem selectedFrame?_eq_none (h : letter request ≠ some 's') : selectedFrame? request = none := by
  rw [selectedFrame?, Option.bind_eq_none_iff]
  intro ds hd
  refine absurd ?_ h
  rw [letter, Text.afterStart?_eq_some.1 hd]
  rfl

theorem selectedFrame?_frameRequest (frame : Nat) :
    selectedFrame? (frameRequest frame) = some frame := by
  rw [selectedFrame?, toList_frameRequest, Text.afterStart?_append, Option.bind_some,
    number?_digits (by decide) (by decide)]

theorem accepted_iff : accepted ⟨.request request, answer⟩ = true ↔
    ∃ record, verdict request answer = .ok record := by
  cases answer with
  | error e => simp [accepted, verdict]
  | ok record =>
    by_cases h : record.kind = .result ∧ record.className = "error" <;>
      simp [accepted, verdict, Record.errorMessage?, h]

namespace Focus

theorem accept_physicalModeOn (f : Focus) :
    f.accept (consoleRequest physicalModeOn) = ⟨.physical, f.frame⟩ :=
  if_pos consoleRequest_physicalModeOn

theorem accept_physicalModeOff (f : Focus) :
    f.accept (consoleRequest physicalModeOff) = ⟨.virtual, f.frame⟩ := by
  rw [accept, consoleRequest_physicalModeOff, if_neg (by decide), if_pos rfl]

theorem accept_frameRequest (f : Focus) (frame : Nat) :
    f.accept (frameRequest frame) = ⟨f.space, frame⟩ := by
  have hc : ∀ command, frameRequest frame ≠ consoleRequest command := fun command h => by
    have := congrArg letter h
    simp at this
  rw [accept, ← consoleRequest_physicalModeOn, ← consoleRequest_physicalModeOff, if_neg (hc _),
    if_neg (hc _), selectedFrame?_frameRequest]
  rfl

/-- A command of the console that is none of the emulator's packets changes nothing. -/
theorem accept_consoleRequest {command : String} (hon : command ≠ physicalModeOn)
    (hoff : command ≠ physicalModeOff) (f : Focus) : f.accept (consoleRequest command) = f := by
  rw [accept, ← consoleRequest_physicalModeOn, ← consoleRequest_physicalModeOff,
    if_neg (consoleRequest_injective.ne hon), if_neg (consoleRequest_injective.ne hoff),
    selectedFrame?_eq_none (by simp)]
  rfl

/-- A request that is neither a command of the console nor the selection of a frame changes
    nothing. -/
theorem accept_of_letter (hi : letter request ≠ some 'i') (hs : letter request ≠ some 's')
    (f : Focus) : f.accept request = f := by
  have hc : ∀ command, request ≠ consoleRequest command := fun command h => by
    rw [h, letter_consoleRequest] at hi
    exact hi rfl
  rw [accept, ← consoleRequest_physicalModeOn, ← consoleRequest_physicalModeOff, if_neg (hc _),
    if_neg (hc _), selectedFrame?_eq_none hs]
  rfl

theorem accept_memoryRequest (f : Focus) (address : UInt64) (size : Nat) :
    f.accept (memoryRequest address size) = f :=
  accept_of_letter (by simp) (by simp) f

theorem accept_evaluateRequest (f : Focus) (expression : String) :
    f.accept (evaluateRequest expression) = f :=
  accept_of_letter (by simp) (by simp) f

theorem hear_of_accept (h : f.accept request = f) (answer : Except Error Record) :
    f.hear ⟨.request request, answer⟩ = f := by
  dsimp only [hear]
  rw [h, ite_self]

theorem hear_of_ok {record : Record} (h : verdict request answer = .ok record) (f : Focus) :
    f.hear ⟨.request request, answer⟩ = f.accept request :=
  if_pos (accepted_iff.2 ⟨record, h⟩)

theorem hear_of_error {e : Error} (h : verdict request answer = .error e) (f : Focus) :
    f.hear ⟨.request request, answer⟩ = f := by
  refine if_neg fun ha => ?_
  obtain ⟨record, hr⟩ := accepted_iff.1 ha
  rw [h] at hr
  cases hr

theorem mem_of_mem_along {x : Focus × Exchange channel} (h : x ∈ f.along log) : x.2 ∈ log := by
  induction log generalizing f with
  | nil => exact absurd h List.not_mem_nil
  | cons e log ih =>
    rcases List.mem_cons.1 h with rfl | h
    · exact List.mem_cons_self
    · exact List.mem_cons_of_mem _ (ih h)

theorem along_append (f : Focus) (log more : Log channel) :
    f.along (log ++ more) = f.along log ++ (log.foldl hear f).along more := by
  induction log generalizing f with
  | nil => rfl
  | cons e log ih => rw [List.cons_append, along, along, ih, List.cons_append, List.foldl_cons]

end Focus

/-! ## One operation -/

/-- Exchanges that end where they start, with all reads in one focus. -/
structure Restores (place : Focus) (log : Log channel) : Prop where
  back : log.foldl Focus.hear .start = .start
  reads : ∀ x ∈ Focus.start.along log, Reads x.2.call → x.1 = place

/-- Every exchange that is to take the debugger back is accepted. -/
def AcceptsWayBack (log : Log channel) : Prop :=
  ∀ x ∈ Focus.start.along log, x.1.IsWayBack x.2 → accepted x.2 = true

theorem Reads.letter (h : Reads (.request request)) : letter request = some 'd' := by
  obtain ⟨rest, h | h⟩ := h
  · rw [Message.request.inj h, Gdb.letter, String.toList_append]
    rfl
  · rw [Message.request.inj h, Gdb.letter, String.toList_append]
    rfl

/-- Exchanges that change nothing. -/
theorem restores_start (h : ∀ e ∈ log, Focus.start.hear e = .start) : Restores .start log := by
  induction log with
  | nil => exact ⟨rfl, fun x hx => absurd hx List.not_mem_nil⟩
  | cons e log ih =>
    have he := h e List.mem_cons_self
    obtain ⟨hb, hr⟩ := ih fun e' he' => h e' (List.mem_cons_of_mem _ he')
    refine ⟨by rw [List.foldl_cons, he, hb], fun x hx hx' => ?_⟩
    rw [Focus.along, he] at hx
    rcases List.mem_cons.1 hx with rfl | hx
    · rfl
    · exact hr x hx hx'

/-- One request that changes nothing. -/
theorem restores_request (h : Focus.start.accept request = .start) (answer : Except Error Record) :
    Restores .start [⟨.request request, answer⟩] :=
  restores_start (List.forall_mem_singleton.2 (Focus.hear_of_accept h answer))

/-- A request that is not accepted, and that reads nothing. -/
theorem restores_refused {place : Focus} {e : Error} (hd : letter request ≠ some 'd')
    (h : verdict request answer = .error e) : Restores place [⟨.request request, answer⟩] where
  back := Focus.hear_of_error h .start
  reads := by
    intro x hx hr
    rw [List.mem_singleton.1 hx] at hr
    exact absurd hr.letter hd

/-- A request that takes the debugger elsewhere, a read there, and the way back. -/
theorem restores_there_and_back {place : Focus} {there read back : String} {record : Record}
    {value ended : Except Error Record} (hv : verdict there answer = .ok record)
    (ht : Focus.start.accept there = place) (hr : place.accept read = place)
    (hb : place.accept back = .start)
    (hw : place.IsWayBack ⟨.request back, ended⟩) (hd : letter there ≠ some 'd')
    (ha : AcceptsWayBack [⟨.request there, answer⟩, ⟨.request read, value⟩,
      ⟨.request back, ended⟩]) :
    Restores place [⟨.request there, answer⟩, ⟨.request read, value⟩, ⟨.request back, ended⟩] := by
  have h₁ : Focus.start.hear ⟨.request there, answer⟩ = place :=
    (Focus.hear_of_ok hv .start).trans ht
  have h₂ : place.hear ⟨.request read, value⟩ = place := Focus.hear_of_accept hr value
  have hl : Focus.start.along [⟨.request there, answer⟩, ⟨.request read, value⟩,
      ⟨.request back, ended⟩] = [(.start, ⟨.request there, answer⟩),
        (place, ⟨.request read, value⟩), (place, ⟨.request back, ended⟩)] := by
    simp only [Focus.along, h₁, h₂]
  have h₃ : place.hear ⟨.request back, ended⟩ = .start := by
    have hok := ha (place, ⟨.request back, ended⟩) (by simp [hl]) hw
    exact (if_pos hok).trans hb
  refine ⟨by simp only [List.foldl_cons, List.foldl_nil, h₁, h₂, h₃], fun x hx hx' => ?_⟩
  rw [hl] at hx
  simp only [List.mem_cons, List.not_mem_nil, or_false] at hx
  rcases hx with rfl | rfl | rfl
  · exact absurd hx'.letter hd
  · rfl
  · rfl

theorem restores_readMemory {space : AddressSpace} {address : UInt64} {size : Nat}
    {r : Except Error (List UInt8)} (hp : Path (readMemory space address size) log r)
    (ha : AcceptsWayBack log) : Restores ⟨space, 0⟩ log := by
  cases space with
  | virtual =>
    obtain ⟨answer, rfl, -⟩ := path_readBytes.1 hp
    exact restores_request (Focus.accept_memoryRequest .start address size) answer
  | physical =>
    obtain ⟨answer, rest, rfl, ⟨e, hv, rfl, -⟩ | ⟨record, bytes, back, hv, rfl, -⟩⟩ :=
      path_physicalRead.1 hp
    · exact restores_refused (by simp) hv
    · exact restores_there_and_back hv (Focus.accept_physicalModeOn .start)
        (Focus.accept_memoryRequest _ _ _) (Focus.accept_physicalModeOff _) (.inl ⟨rfl, rfl⟩)
        (by simp) ha

theorem restores_readFrameValue {frame : Nat} {name : String} {r : Except Error UInt64}
    (hp : Path (readFrameValue frame name) log r) (ha : AcceptsWayBack log) :
    Restores ⟨.virtual, frame⟩ log := by
  obtain ⟨answer, rest, rfl, ⟨e, hv, rfl, -⟩ | ⟨record, value, hv, h⟩⟩ :=
    exists_of_readFrameValue hp
  · exact restores_refused (by simp) hv
  rcases h with ⟨rfl, rfl⟩ | ⟨hf, back, rfl⟩
  · -- The innermost frame is selected again, which changes nothing.
    refine restores_start (List.forall_mem_cons.2 ⟨?_, List.forall_mem_singleton.2 ?_⟩)
    · exact Focus.hear_of_accept (Focus.accept_frameRequest .start 0) answer
    · exact Focus.hear_of_accept (Focus.accept_evaluateRequest .start name) value
  · exact restores_there_and_back hv (Focus.accept_frameRequest .start frame)
      (Focus.accept_evaluateRequest _ name) (Focus.accept_frameRequest _ 0)
      (.inr ⟨hf, congrArg Message.request frameRequest_zero⟩) (by simp) ha

/-- A number is one read of as many bytes as it has. -/
theorem path_carryOut_readNumber {bits : Nat} {n : Except Error Nat}
    (h : Path (carryOut (readNumber bits space address)) log n) :
    ∃ reply, Path (readMemory space address (bits / 8)) log reply ∧ n = numberOf bits reply := by
  rw [readNumber_eq] at h
  obtain ⟨reply, h, hn⟩ := path_carryOut_done.1 h
  exact ⟨reply, path_carryOut_ask.1 h, hn⟩

/-- An operation reads in its own focus and leaves the debugger where it started, whatever the
    answers are, as long as the way back is open. -/
theorem Operation.restores {o : Operation} {r : Except Error o.Result} (hp : Path o.program log r)
    (ho : o.LeavesMode) (ha : AcceptsWayBack log) : Restores o.focus log := by
  cases o with
  | read space address size => exact restores_readMemory (path_carryOut_ask.1 hp) ha
  | readWord64 space address =>
    obtain ⟨n, h, -⟩ := path_carryOut_done.1 hp
    obtain ⟨reply, h, -⟩ := path_carryOut_readNumber h
    exact restores_readMemory h ha
  | readWord16 space address =>
    obtain ⟨n, h, -⟩ := path_carryOut_done.1 hp
    obtain ⟨reply, h, -⟩ := path_carryOut_readNumber h
    exact restores_readMemory h ha
  | evaluate expression =>
    obtain ⟨answer, rfl⟩ := exists_of_evaluateSelected (path_carryOut_ask.1 hp)
    exact restores_request (Focus.accept_evaluateRequest .start expression) answer
  | execute command =>
    obtain ⟨answer, rfl, -⟩ := path_call_done.1 (path_carryOut_ask.1 hp)
    refine restores_request (Focus.accept_consoleRequest ?_ ?_ .start) answer
    · rintro rfl
      exact ho.1 rfl
    · rintro rfl
      exact ho.2 rfl
  | setBreakpoint address =>
    obtain ⟨answer, rfl, -⟩ := path_call_done.1 (path_carryOut_ask.1 hp)
    exact restores_request (Focus.accept_of_letter (by simp) (by simp) .start) answer
  | frameValue frame name =>
    exact restores_readFrameValue (path_carryOut_ask.1 hp) ha
  | resume =>
    obtain ⟨answer, rfl, -⟩ := path_call_done.1 hp
    exact restores_request (Focus.accept_of_letter (by simp) (by simp) .start) answer

/-! ## What an operation asks for -/

theorem asks_readMemory {bytes : List UInt8}
    (hp : Path (readMemory space address size) log (.ok bytes)) :
    Asks log (.memory address.toNat size) := by
  cases space with
  | virtual =>
    obtain ⟨answer, rfl, -⟩ := path_readBytes.1 hp
    exact ⟨_, answer, List.mem_cons_self, reading?_memoryRequest address size⟩
  | physical =>
    obtain ⟨answer, rest, rfl, ⟨e, -, -, ⟨⟩⟩ | ⟨record, shown, back, -, rfl, -⟩⟩ :=
      path_physicalRead.1 hp
    exact ⟨_, shown, by simp, reading?_memoryRequest address size⟩

theorem asks_readFrameValue {v : UInt64} (hp : Path (readFrameValue frame name) log (.ok v)) :
    Asks log (.value name) := by
  obtain ⟨answer, rest, rfl, ⟨e, -, -, ⟨⟩⟩ | ⟨record, value, -, h⟩⟩ := exists_of_readFrameValue hp
  refine ⟨_, value, ?_, reading?_evaluateRequest name⟩
  obtain ⟨-, rfl⟩ | ⟨-, back, rfl⟩ := h <;> simp

/-- Nothing is given without a request for it. -/
theorem Operation.asks {o : Operation} {a : o.Result} {reading : Reading}
    (hp : Path o.program log (.ok a)) (hr : o.reading? = some reading) : Asks log reading := by
  have number : ∀ {bits space address} {n : Nat},
      Path (carryOut (readNumber bits space address)) log (.ok n) →
        Asks log (.memory address.toNat (bits / 8)) := by
    intro bits space address n h
    obtain ⟨_ | bytes, h, hn⟩ := path_carryOut_readNumber h
    · cases hn
    · exact asks_readMemory h
  cases o with
  | read space address size =>
    cases hr
    exact asks_readMemory (path_carryOut_ask.1 hp)
  | readWord64 space address =>
    cases hr
    obtain ⟨_ | n, h, hn⟩ := path_carryOut_done.1 hp
    · cases hn
    · exact number h
  | readWord16 space address =>
    cases hr
    obtain ⟨_ | n, h, hn⟩ := path_carryOut_done.1 hp
    · cases hn
    · exact number h
  | evaluate expression =>
    cases hr
    obtain ⟨answer, rfl⟩ := exists_of_evaluateSelected (path_carryOut_ask.1 hp)
    exact ⟨_, answer, List.mem_cons_self, reading?_evaluateRequest expression⟩
  | frameValue frame name =>
    cases hr
    exact asks_readFrameValue (path_carryOut_ask.1 hp)
  | _ => cases hr

/-! ## Runs -/

theorem AcceptsWayBack.of_append {more : Log channel} (h : AcceptsWayBack (log ++ more)) :
    AcceptsWayBack log := by
  intro x hx
  refine h x ?_
  rw [Focus.along_append]
  exact List.mem_append_left _ hx

/-- Behind exchanges that end where they start, the rest is a run of its own. -/
theorem AcceptsWayBack.of_append_right {more : Log channel} (h : AcceptsWayBack (log ++ more))
    (hb : log.foldl Focus.hear .start = .start) : AcceptsWayBack more := by
  intro x hx
  refine h x ?_
  rw [Focus.along_append, hb]
  exact List.mem_append_right _ hx

theorem focusAfter_append (before after : List Performed) :
    focusAfter (before ++ after) =
      (after.flatMap Performed.log).foldl Focus.hear (focusAfter before) := by
  rw [focusAfter, List.flatMap_append, List.foldl_append, focusAfter]

theorem restores_of_mem {run : List Performed} (hp : ∀ p ∈ run, p.IsPath)
    (ho : ∀ p ∈ run, p.operation.LeavesMode) (ha : AcceptsWayBack (run.flatMap Performed.log)) :
    focusAfter run = .start ∧ ∀ p ∈ run, Restores p.operation.focus p.log := by
  -- Each operation ends where it started, so that the next one starts there too.
  induction run with
  | nil => exact ⟨rfl, fun p hp => absurd hp List.not_mem_nil⟩
  | cons p run ih =>
    rw [List.forall_mem_cons] at hp ho
    rw [List.flatMap_cons] at ha
    obtain ⟨r, hr⟩ := hp.1
    have hres := Operation.restores hr ho.1 ha.of_append
    obtain ⟨hf, hrest⟩ := ih hp.2 ho.2 (ha.of_append_right hres.back)
    refine ⟨?_, List.forall_mem_cons.2 ⟨hres, hrest⟩⟩
    rw [focusAfter, List.flatMap_cons, List.foldl_append, hres.back]
    exact hf

/-- After every operation of a run, the debugger is back in virtual memory and the innermost
    frame, every read of an operation was sent in the operation's own focus, and an operation that
    gave a value has asked for it. -/
theorem focus_restored {run : List Performed} (hp : ∀ p ∈ run, p.IsPath)
    (ho : ∀ p ∈ run, p.operation.LeavesMode) (ha : AcceptsWayBack (run.flatMap Performed.log)) :
    ∀ before p after, run = before ++ p :: after →
      focusAfter before = .start ∧ focusAfter (before ++ [p]) = .start ∧
        (∀ x ∈ (focusAfter before).along p.log, Reads x.2.call → x.1 = p.operation.focus) ∧
        (p.Succeeded → ∀ reading, p.operation.reading? = some reading → Asks p.log reading) := by
  rintro before p after rfl
  have hres := (restores_of_mem hp ho ha).2 p (List.mem_append_right _ List.mem_cons_self)
  rw [List.forall_mem_append] at hp ho
  rw [List.flatMap_append] at ha
  have hb := (restores_of_mem hp.1 ho.1 ha.of_append).1
  refine ⟨hb, ?_, ?_, ?_⟩
  · rw [focusAfter_append, hb, List.flatMap_singleton, hres.back]
  · rw [hb]
    exact hres.reads
  · rintro ⟨a, ha⟩ reading hr
    exact Operation.asks ha hr

/-- Two operations whose reads fail, since the value has no answer and the bytes are refused, and
    one behind them that gives a value. -/
def failingRun : List Performed :=
  let done : Record := ⟨none, .result, "done", []⟩
  let refused : Record := ⟨none, .result, "error", []⟩
  let shown : Record := ⟨none, .result, "done", [("value", .text "1")]⟩
  [⟨.frameValue 1 "name", [⟨.request (frameRequest 1), .ok done⟩,
      ⟨.request (evaluateRequest "name"), .error (.noReply "name")⟩,
      ⟨.request (frameRequest 0), .ok done⟩]⟩,
    ⟨.readWord64 .physical 0x5000, [⟨.request (consoleRequest physicalModeOn), .ok done⟩,
      ⟨.request (memoryRequest 0x5000 8), .ok refused⟩,
      ⟨.request (consoleRequest physicalModeOff), .ok done⟩]⟩,
    ⟨.evaluate "attached", [⟨.request (evaluateRequest "attached"), .ok shown⟩]⟩]

theorem acceptsWayBack_failingRun : AcceptsWayBack (failingRun.flatMap Performed.log) := by
  -- The reads are no way back, and the other four are accepted.
  have hd : ∀ {e : Exchange channel} {request}, e.call = .request request →
      letter request = some 'd' → ∀ f : Focus, ¬f.IsWayBack e := by
    rintro e request he hl f (⟨-, h⟩ | ⟨-, h⟩) <;> rw [he] at h <;> cases h <;>
      exact absurd hl (by decide)
  have h : ∀ e ∈ failingRun.flatMap Performed.log,
      accepted e = true ∨ ∀ f : Focus, ¬f.IsWayBack e := by
    simp only [failingRun, List.flatMap_cons, List.flatMap_nil, List.cons_append, List.nil_append,
      List.forall_mem_cons]
    exact ⟨.inl rfl, .inr (hd rfl (by simp)), .inl rfl, .inl rfl, .inr (hd rfl (by simp)), .inl rfl,
      .inl rfl, fun e he => absurd he List.not_mem_nil⟩
  intro x hx hw
  exact (h _ (Focus.mem_of_mem_along hx)).resolve_right fun hn => hn _ hw

theorem focus_restored_failures :
    (∀ p ∈ failingRun, p.IsPath) ∧ (∀ p ∈ failingRun, p.operation.LeavesMode) ∧
      AcceptsWayBack (failingRun.flatMap Performed.log) ∧
      ∀ before p after, failingRun = before ++ p :: after →
        focusAfter before = .start ∧ focusAfter (before ++ [p]) = .start ∧
          (∀ x ∈ (focusAfter before).along p.log, Reads x.2.call → x.1 = p.operation.focus) ∧
          (p.Succeeded → ∀ reading, p.operation.reading? = some reading →
            Asks p.log reading) := by
  have hp : ∀ p ∈ failingRun, p.IsPath :=
    List.forall_mem_cons.2 ⟨⟨_, .call _ (.call _ (.call _ (.done _)))⟩,
      List.forall_mem_cons.2 ⟨⟨_, .call _ (.call _ (.call _ (.done _)))⟩,
        List.forall_mem_singleton.2 ⟨.ok 1, .call _ (.done _)⟩⟩⟩
  have ho : ∀ p ∈ failingRun, p.operation.LeavesMode :=
    List.forall_mem_cons.2 ⟨⟨nofun, nofun⟩,
      List.forall_mem_cons.2 ⟨⟨nofun, nofun⟩, List.forall_mem_singleton.2 ⟨nofun, nofun⟩⟩⟩
  exact ⟨hp, ho, acceptsWayBack_failingRun, focus_restored hp ho acceptsWayBack_failingRun⟩

end KernelProbe.Gdb
