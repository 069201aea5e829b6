import KernelProbe.Gdb.Channel
import KernelProbe.Proofs.Interaction.Path
import KernelProbe.Proofs.Mi.Literal
import KernelProbe.Proofs.Text.Digits
import KernelProbe.Proofs.Text.Search

/-!
# Paths over a connection

What goes over the connection when a call of a script is carried out, for all answers. Most calls
are one request, and what they give follows from its answer (`path_call_done`). A read of physical
memory and of a value in a frame are up to three: `path_physicalRead` and
`exists_of_readFrameValue` say which of them are sent behind which answers.

The requests are told apart by their second character (`letter`), and two commands of the console
by their literals (`consoleRequest_injective`).
-/

namespace KernelProbe.Gdb

open Debugger Mi Program

variable {α : Type} {request command expression name : String} {space : AddressSpace}
  {address : UInt64} {size frame : Nat} {log : Log channel}

/-! ## Requests -/

theorem toList_consoleRequest (command : String) : (consoleRequest command).toList =
    "-interpreter-exec console ".toList ++ (Literal.quote command).toList :=
  String.toList_append

theorem toList_evaluateRequest (expression : String) : (evaluateRequest expression).toList =
    "-data-evaluate-expression ".toList ++ (Literal.quote expression).toList :=
  String.toList_append

theorem toList_memoryRequest (address : UInt64) (size : Nat) :
    (memoryRequest address size).toList = "-data-read-memory-bytes 0x".toList ++
      (Text.digits 16 address.toNat ++ ' ' :: Text.digits 10 size) := by
  have h : memoryRequest address size = "-data-read-memory-bytes " ++
      ("0x" ++ String.ofList (Text.digits 16 address.toNat)) ++ " " ++
      String.ofList (Text.digits 10 size) := rfl
  rw [h]
  simp

theorem toList_breakpointRequest (address : UInt64) : (breakpointRequest address).toList =
    "-break-insert *".toList ++ (Text.hex address.toNat).toList :=
  String.toList_append

theorem toList_frameRequest (frame : Nat) : (frameRequest frame).toList =
    "-stack-select-frame ".toList ++ Text.digits 10 frame := by
  have h : frameRequest frame =
      "-stack-select-frame " ++ String.ofList (Text.digits 10 frame) := rfl
  rw [h]
  simp

/-- The second character of a request. -/
def letter (request : String) : Option Char :=
  request.toList[1]?

@[simp]
theorem letter_consoleRequest (command : String) : letter (consoleRequest command) = some 'i' := by
  rw [letter, toList_consoleRequest]
  rfl

@[simp]
theorem letter_evaluateRequest (expression : String) :
    letter (evaluateRequest expression) = some 'd' := by
  rw [letter, toList_evaluateRequest]
  rfl

@[simp]
theorem letter_memoryRequest (address : UInt64) (size : Nat) :
    letter (memoryRequest address size) = some 'd' := by
  rw [letter, toList_memoryRequest]
  rfl

@[simp]
theorem letter_breakpointRequest (address : UInt64) :
    letter (breakpointRequest address) = some 'b' := by
  rw [letter, toList_breakpointRequest]
  rfl

@[simp]
theorem letter_frameRequest (frame : Nat) : letter (frameRequest frame) = some 's' := by
  rw [letter, toList_frameRequest]
  rfl

@[simp]
theorem letter_continueRequest : letter continueRequest = some 'e' := rfl

theorem consoleRequest_injective : Function.Injective consoleRequest := by
  intro command command' h
  have hq := congrArg String.toList h
  rw [toList_consoleRequest, toList_consoleRequest, List.append_cancel_left_eq] at hq
  exact Literal.quote_injective (String.toList_inj.1 hq)

/-! ## Calls -/

/-- What a request gives under an answer. -/
def verdict (request : String) : Except Error Record → Except Error Record
  | .error e => .error e
  | .ok record =>
    match record.errorMessage? with
    | some message => .error (.rejected request message)
    | none => .ok record

theorem path_call {r : Except Error Record} : Path (call request) log r ↔
    ∃ answer, log = [⟨.request request, answer⟩] ∧ r = verdict request answer := by
  have h : call request = Program.bind (.ask channel (.request request)) fun answer =>
      .done (verdict request answer) := by
    refine congrArg (Program.bind _) (funext fun answer => ?_)
    cases answer with
    | error e => rfl
    | ok record =>
      dsimp only [verdict]
      cases record.errorMessage? <;> rfl
  rw [h, path_bind_done]
  exact exists_congr fun answer => and_congr_left' path_ask

theorem path_andThen {β : Type} {p : Attempt α} {f : α → Attempt β} {r : Except Error β} :
    Path (p.andThen f) log r ↔ (∃ e, Path p log (.error e) ∧ r = .error e) ∨
      ∃ a first second, Path p first (.ok a) ∧ Path (f a) second r ∧ log = first ++ second := by
  refine path_bind.trans ⟨?_, ?_⟩
  · rintro ⟨first, a | a, second, hp, hf, rfl⟩
    · obtain ⟨rfl, rfl⟩ := path_done.1 hf
      rw [List.append_nil]
      exact .inl ⟨a, hp, rfl⟩
    · exact .inr ⟨a, first, second, hp, hf, rfl⟩
  · rintro (⟨e, hp, rfl⟩ | ⟨a, first, second, hp, hf, rfl⟩)
    · exact ⟨log, _, [], hp, .done _, (List.append_nil log).symm⟩
    · exact ⟨first, _, second, hp, hf, rfl⟩

theorem path_thenAlways {p : Attempt α} {q : Program channel Unit} {r : Except Error α} :
    Path (p.thenAlways q) log r ↔
      ∃ first second, Path p first r ∧ Path q second () ∧ log = first ++ second := by
  refine path_bind.trans ⟨?_, ?_⟩
  · rintro ⟨first, a, second, hp, hq, rfl⟩
    obtain ⟨_, hq', rfl⟩ := path_bind_done.1 hq
    exact ⟨first, second, hp, hq', rfl⟩
  · rintro ⟨first, second, hp, hq, rfl⟩
    exact ⟨first, r, second, hp, path_bind_done.2 ⟨(), hq, rfl⟩, rfl⟩

theorem tryCall_eq (request : String) :
    tryCall request = .call (.request request) fun _ => .done () := by
  refine congrArg (Program.call _) (funext fun answer => ?_)
  cases answer with
  | error e => rfl
  | ok record =>
    dsimp only [call_bind, done_bind]
    cases record.errorMessage? <;> rfl

theorem path_tryCall : Path (tryCall request) log () ↔
    ∃ answer, log = [⟨.request request, answer⟩] := by
  rw [tryCall_eq, Program.path_call]
  constructor
  · rintro ⟨answer, rest, rfl, ⟨⟩⟩
    exact ⟨answer, rfl⟩
  · rintro ⟨answer, rfl⟩
    exact ⟨answer, [], rfl, .done _⟩

/-- A request of which only the answer is looked at. -/
theorem path_call_done {f : Record → Except Error α} {r : Except Error α} :
    Path ((call request).andThen fun record => .done (f record)) log r ↔
      ∃ answer, log = [⟨.request request, answer⟩] ∧ r = (verdict request answer).bind f := by
  have h : ((call request).andThen fun record => .done (f record)) =
      Program.bind (call request) fun reply => .done (reply.bind f) := by
    refine congrArg (Program.bind _) (funext fun reply => ?_)
    cases reply <;> rfl
  rw [h, path_bind_done]
  constructor
  · rintro ⟨reply, hp, rfl⟩
    obtain ⟨answer, rfl, rfl⟩ := path_call.1 hp
    exact ⟨answer, rfl, rfl⟩
  · rintro ⟨answer, rfl, rfl⟩
    exact ⟨_, path_call.2 ⟨answer, rfl, rfl⟩, rfl⟩

/-- A request that is answered before another program goes on. -/
theorem path_call_andThen {f : Record → Attempt α} {r : Except Error α} :
    Path ((call request).andThen f) log r ↔
      ∃ answer rest, log = ⟨.request request, answer⟩ :: rest ∧
        ((∃ e, verdict request answer = .error e ∧ rest = [] ∧ r = .error e) ∨
          ∃ record, verdict request answer = .ok record ∧ Path (f record) rest r) := by
  rw [path_andThen]
  constructor
  · rintro (⟨e, hp, rfl⟩ | ⟨record, first, second, hp, hf, rfl⟩)
    · obtain ⟨answer, rfl, hv⟩ := path_call.1 hp
      exact ⟨answer, [], rfl, .inl ⟨e, hv.symm, rfl, rfl⟩⟩
    · obtain ⟨answer, rfl, hv⟩ := path_call.1 hp
      exact ⟨answer, second, rfl, .inr ⟨record, hv.symm, hf⟩⟩
  · rintro ⟨answer, rest, rfl, ⟨e, hv, rfl, rfl⟩ | ⟨record, hv, hf⟩⟩
    · exact .inl ⟨e, path_call.2 ⟨answer, rfl, hv.symm⟩, rfl⟩
    · exact .inr ⟨record, _, rest, path_call.2 ⟨answer, rfl, hv.symm⟩, hf, rfl⟩

variable {P : Message → Prop}

theorem only_call (h : P (.request request)) : Only P (call request) := by
  intro log r hp
  obtain ⟨answer, rfl, -⟩ := path_call.1 hp
  exact List.forall_mem_singleton.2 h

theorem only_andThen {β : Type} {p : Attempt α} {f : α → Attempt β}
    (hp : Only P p) (hf : ∀ a, Only P (f a)) : Only P (p.andThen f) := by
  refine Only.bind hp fun r => ?_
  cases r with
  | error e => exact Only.done _
  | ok a => exact hf a

theorem only_tryCall (h : P (.request request)) : Only P (tryCall request) :=
  Only.bind (only_call h) fun _ => Only.done ()

theorem only_thenAlways {p : Attempt α} {q : Program channel Unit}
    (hp : Only P p) (hq : Only P q) : Only P (p.thenAlways q) :=
  Only.bind hp fun _ => Only.bind hq fun _ => Only.done _

/-! ## Calls of a script -/

/-- A message by which a call of a script is carried out. -/
inductive IsScripted : Message → Prop
  | memory (address : UInt64) (size : Nat) : IsScripted (.request (memoryRequest address size))
  | evaluate (expression : String) : IsScripted (.request (evaluateRequest expression))
  | execute (command : String) : IsScripted (.request (consoleRequest command))
  | breakpoint (address : UInt64) : IsScripted (.request (breakpointRequest address))
  | frame (frame : Nat) : IsScripted (.request (frameRequest frame))
  | console (line : String) : IsScripted (.console line)
  | register (name : String) (handler : Handler) : IsScripted (.register name handler)

theorem only_perform (c : Debugger.Request Handler) : Only IsScripted (perform c) := by
  have value (expression : String) : Only IsScripted (evaluateSelected expression) :=
    only_andThen (only_call (.evaluate expression)) fun _ => Only.done _
  cases c with
  | read space address size =>
    have bytes : Only IsScripted (readBytes space address size) :=
      only_andThen (only_call (.memory address size)) fun _ => Only.done _
    cases space with
    | virtual => exact bytes
    | physical =>
      exact only_andThen (only_call (.execute _)) fun _ =>
        only_thenAlways bytes (only_tryCall (.execute _))
  | evaluate expression => exact value expression
  | execute command => exact only_andThen (only_call (.execute command)) fun _ => Only.done _
  | setBreakpoint address =>
    exact only_andThen (only_call (.breakpoint address)) fun _ => Only.done _
  | register name handler =>
    exact Only.bind (Only.ask (.register name handler)) fun _ => Only.done _
  | frameValue frame name =>
    refine only_andThen (only_call (.frame frame)) fun _ => ?_
    split
    · exact value name
    · exact only_thenAlways (value name) (only_tryCall (.frame 0))
  | print line => exact Only.ask (.console line)

/-- A script is carried out by such messages alone. -/
theorem only_scripted (s : Script Handler α) : Only IsScripted (carryOut s) := by
  induction s with
  | done a => exact Only.done a
  | call c next ih => exact Only.bind (only_perform c) ih

theorem path_carryOut_ask {c : Request Handler} {r : c.Answer} :
    Path (carryOut (.ask (interface Handler) c)) log r ↔ Path (perform c) log r := by
  have h : carryOut (.ask (interface Handler) c) = perform c := bind_done (perform c)
  rw [h]

/-- A script of which only the result is looked at. -/
theorem path_carryOut_done {β : Type} {s : Script Handler α} {f : α → β} {b : β} :
    Path (carryOut (s.bind fun a => .done (f a))) log b ↔
      ∃ a, Path (carryOut s) log a ∧ b = f a := by
  unfold carryOut
  rw [substitute_bind]
  exact path_bind_done

/-- The bytes of memory in an answer, if they are as many as asked for. -/
def bytesOf (space : AddressSpace) (address : UInt64) (size : Nat)
    (answer : Except Error Record) : Except Error (List UInt8) := do
  let request := memoryRequest address size
  let record ← verdict request answer
  let blocks ← require request "memory" ((record.get? "memory").bind Value.items?)
  let bytes ← require request "contents" (blocks.mapM blockBytes?)
  if bytes.flatten.length = size then .ok bytes.flatten
  else .error (.unreadableMemory space address)

theorem path_readBytes {r : Except Error (List UInt8)} :
    Path (readBytes space address size) log r ↔
      ∃ answer, log = [⟨.request (memoryRequest address size), answer⟩] ∧
        r = bytesOf space address size answer :=
  path_call_done

/-- A read of physical memory: nothing is read if the mode is not switched on, and the mode is
    switched off behind the read, whatever it gave. -/
theorem path_physicalRead {r : Except Error (List UInt8)} :
    Path (readMemory .physical address size) log r ↔
      ∃ answer rest, log = ⟨.request (consoleRequest physicalModeOn), answer⟩ :: rest ∧
        ((∃ e, verdict (consoleRequest physicalModeOn) answer = .error e ∧ rest = [] ∧
            r = .error e) ∨
          ∃ record bytes back, verdict (consoleRequest physicalModeOn) answer = .ok record ∧
            rest = [⟨.request (memoryRequest address size), bytes⟩,
              ⟨.request (consoleRequest physicalModeOff), back⟩] ∧
            r = bytesOf .physical address size bytes) := by
  refine path_call_andThen.trans (exists_congr fun answer => exists_congr fun rest =>
    and_congr_right' (or_congr_right (exists_congr fun record => ?_)))
  rw [path_thenAlways]
  constructor
  · rintro ⟨hv, first, second, hr, hq, rfl⟩
    obtain ⟨bytes, rfl, rfl⟩ := path_readBytes.1 hr
    obtain ⟨back, rfl⟩ := path_tryCall.1 hq
    exact ⟨bytes, back, hv, rfl, rfl⟩
  · rintro ⟨bytes, back, hv, rfl, rfl⟩
    exact ⟨hv, [_], [_], path_readBytes.2 ⟨bytes, rfl, rfl⟩, path_tryCall.2 ⟨back, rfl⟩, rfl⟩

theorem exists_of_evaluateSelected {r : Except Error UInt64}
    (h : Path (evaluateSelected expression) log r) :
    ∃ answer, log = [⟨.request (evaluateRequest expression), answer⟩] := by
  obtain ⟨answer, rfl, -⟩ := path_call_done.1 h
  exact ⟨answer, rfl⟩

/-- A read of a value in a frame: nothing is read if the frame is not selected, and the innermost
    one is selected behind the read, whatever it gave. -/
theorem exists_of_readFrameValue {r : Except Error UInt64}
    (h : Path (readFrameValue frame name) log r) :
    ∃ answer rest, log = ⟨.request (frameRequest frame), answer⟩ :: rest ∧
      ((∃ e, verdict (frameRequest frame) answer = .error e ∧ rest = [] ∧ r = .error e) ∨
        ∃ record value, verdict (frameRequest frame) answer = .ok record ∧
          ((frame = 0 ∧ rest = [⟨.request (evaluateRequest name), value⟩]) ∨
            (frame ≠ 0 ∧ ∃ back, rest = [⟨.request (evaluateRequest name), value⟩,
              ⟨.request (frameRequest 0), back⟩]))) := by
  obtain ⟨answer, rest, rfl, ⟨e, hv, rfl, hr⟩ | ⟨record, hv, hp⟩⟩ := path_call_andThen.1 h
  · exact ⟨answer, [], rfl, .inl ⟨e, hv, rfl, hr⟩⟩
  refine ⟨answer, rest, rfl, .inr ?_⟩
  split at hp
  · next hf =>
    obtain ⟨value, rfl⟩ := exists_of_evaluateSelected hp
    exact ⟨record, value, hv, .inl ⟨hf, rfl⟩⟩
  · next hf =>
    obtain ⟨first, second, he, hq, rfl⟩ := path_thenAlways.1 hp
    obtain ⟨value, rfl⟩ := exists_of_evaluateSelected he
    obtain ⟨back, rfl⟩ := path_tryCall.1 hq
    exact ⟨record, value, hv, .inr ⟨hf, back, rfl⟩⟩

end KernelProbe.Gdb
