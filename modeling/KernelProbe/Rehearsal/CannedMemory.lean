import KernelProbe.Target.Simulated

/-!
# Canned memory

A debugger that can only read memory, and whose reads are answered in order from a list of
replies, whatever was asked for.
-/

namespace KernelProbe.Rehearsal

open Debugger

/-- Memory with prepared replies. -/
structure CannedMemory where
  /-- The replies to the next reads; a read without a reply fails. -/
  replies : List (Option (List UInt8))
  /-- The reads so far, oldest first. -/
  reads : List Target.Read

/-- The failure of a read without a reply, and of all that is no read. -/
def cannedFailure : Error := .connection "canned failure"

namespace CannedMemory

/-- Answers a request. -/
def answer : (r : Request Empty) → CannedMemory → r.Answer × CannedMemory
  | .read space address size, m =>
    let reply := m.replies.head?.join
    (reply.elim (.error cannedFailure) .ok,
      ⟨m.replies.tail, m.reads ++ [⟨space, address, size⟩]⟩)
  | .evaluate _, m => (.error cannedFailure, m)
  | .execute _, m => (.error cannedFailure, m)
  | .setBreakpoint _, m => (.error cannedFailure, m)
  | .frameValue .., m => (.error cannedFailure, m)
  | .print _, m => ((), m)

/-- Carries out a script. -/
def run {α : Type} (m : CannedMemory) (s : Script Empty α) : α × CannedMemory :=
  Program.run answer s m

end CannedMemory

end KernelProbe.Rehearsal
