import Mathlib.Algebra.Group.Nat.Defs
import KernelProbe.Debugger.Script
import KernelProbe.Proofs.Interaction.Path

/-!
# Reading numbers

Reading a number is one read of as many bytes as the number has, and what the number is follows
from the reply alone.
-/

namespace KernelProbe.Debugger

open Program

variable {H : Type} {bits : Nat} {space : AddressSpace} {address : UInt64}
  {log : Log (interface H)}

/-- The number of `bits` bits in the reply to a read. -/
def numberOf (bits : Nat) : Except Error (List UInt8) → Except Error Nat
  | .error e => .error e
  | .ok bytes =>
    if bytes.length = bits / 8 then .ok (LittleEndian.value bytes)
    else .error (.wrongLength bits bytes.length)

/-- The number of 64 bits in the reply to a read of 8 bytes. -/
def word64Of (reply : Except Error (List UInt8)) : Except Error UInt64 :=
  (numberOf 64 reply).map Nat.toUInt64

/-- The number of 16 bits in the reply to a read of 2 bytes. -/
def word16Of (reply : Except Error (List UInt8)) : Except Error UInt16 :=
  (numberOf 16 reply).map Nat.toUInt16

/-- The bytes of a number are read as what is left of it below the power of 256. -/
theorem value_bytes (count n : Nat) :
    LittleEndian.value (LittleEndian.bytes count n) = n % 256 ^ count := by
  induction count generalizing n with
  | zero => rw [LittleEndian.bytes, LittleEndian.value, Nat.pow_zero, Nat.mod_one]
  | succ count ih =>
    have hb : n.toUInt8.toNat = n % 256 := UInt8.toNat_ofNat'
    rw [LittleEndian.bytes, LittleEndian.value, ih, hb, Nat.pow_succ', Nat.mod_mul]

/-- The bytes of a number are the reply that says the number. -/
theorem numberOf_bytes {n : Nat} (h : n < 256 ^ (bits / 8)) :
    numberOf bits (.ok (LittleEndian.bytes (bits / 8) n)) = .ok n := by
  rw [numberOf, LittleEndian.length_bytes, if_pos rfl, value_bytes, Nat.mod_eq_of_lt h]

theorem word64Of_bytes (v : UInt64) : word64Of (.ok (LittleEndian.bytes 8 v.toNat)) = .ok v := by
  have hn : numberOf 64 (.ok (LittleEndian.bytes 8 v.toNat)) = .ok v.toNat :=
    numberOf_bytes v.toNat_lt
  rw [word64Of, hn]
  exact congrArg Except.ok UInt64.ofNat_toNat

theorem word16Of_bytes (u : UInt16) : word16Of (.ok (LittleEndian.bytes 2 u.toNat)) = .ok u := by
  have hn : numberOf 16 (.ok (LittleEndian.bytes 2 u.toNat)) = .ok u.toNat :=
    numberOf_bytes u.toNat_lt
  rw [word16Of, hn]
  exact congrArg Except.ok UInt16.ofNat_toNat

theorem word16Of_of_length_ne {bytes : List UInt8} (h : bytes.length ≠ 2) :
    word16Of (.ok bytes) = .error (.wrongLength 16 bytes.length) := by
  rw [word16Of, numberOf, if_neg h]
  rfl

theorem readNumber_eq : readNumber (H := H) bits space address =
    (read space address (bits / 8)).bind fun reply => .done (numberOf bits reply) := by
  refine congrArg (Program.bind _) (funext fun reply => ?_)
  cases reply with
  | error e => rfl
  | ok bytes =>
    simp only [numberOf]
    split <;> rfl

theorem path_readNumber {r : Except Error Nat} :
    Path (readNumber bits space address) log r ↔
      ∃ reply, log = [⟨.read space address (bits / 8), reply⟩] ∧ r = numberOf bits reply := by
  rw [readNumber_eq, path_bind_done]
  exact exists_congr fun reply => and_congr_left' path_ask

/-- What follows from a number that is read follows from the reply. -/
theorem path_map_readNumber {α : Type} {f : Except Error Nat → α} {a : α} :
    Path ((readNumber bits space address).bind fun n => .done (f n)) log a ↔
      ∃ reply, log = [⟨.read space address (bits / 8), reply⟩] ∧ a = f (numberOf bits reply) := by
  rw [path_bind_done]
  constructor
  · rintro ⟨n, hn, rfl⟩
    obtain ⟨reply, rfl, rfl⟩ := path_readNumber.1 hn
    exact ⟨reply, rfl, rfl⟩
  · rintro ⟨reply, rfl, rfl⟩
    exact ⟨_, path_readNumber.2 ⟨reply, rfl, rfl⟩, rfl⟩

theorem readWord64_eq : readWord64 (H := H) space address =
    (read space address 8).bind fun reply => .done (word64Of reply) := by
  rw [readWord64, readNumber_eq]
  rfl

theorem readWord16_eq : readWord16 (H := H) space address =
    (read space address 2).bind fun reply => .done (word16Of reply) := by
  rw [readWord16, readNumber_eq]
  rfl

theorem path_readWord64 {r : Except Error UInt64} :
    Path (readWord64 space address) log r ↔
      ∃ reply, log = [⟨.read space address 8, reply⟩] ∧ r = word64Of reply :=
  path_map_readNumber

theorem path_readWord16 {r : Except Error UInt16} :
    Path (readWord16 space address) log r ↔
      ∃ reply, log = [⟨.read space address 2, reply⟩] ∧ r = word16Of reply :=
  path_map_readNumber

theorem only_readWord16 {P : Request H → Prop} (h : P (.read space address 2)) :
    Only P (readWord16 space address) := by
  intro log r hp e he
  obtain ⟨reply, rfl, -⟩ := path_readWord16.1 hp
  rw [List.mem_singleton] at he
  exact he ▸ h

end KernelProbe.Debugger
