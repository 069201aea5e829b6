import KernelProbe.Gdb.Channel
import KernelProbe.Rehearsal.Rulebook
import KernelProbe.Session.Worker

/-!
# Rehearsed conversations

A conversation stands for the connection to a debugger: a rulebook has the answers to requests.
`Conversation.run` carries out a program over it, and `Conversation.notify` does so with the
worker of a session.
-/

namespace KernelProbe.Rehearsal

open Debugger Gdb Session

/-- The answers of a rule, a lost answer being `none`. -/
abbrev Replies := List (Option String)

/-- The answer where no rule matches. -/
def defaultReply : String := "^done"

/-- The line that answers a request, if it is answered. -/
def replyTo (rules : Rulebook Replies) (request : String) :
    Option String × Rulebook Replies :=
  match rules.use request with
  | (none, rules) => (some defaultReply, rules)
  | (some (replies, n), rules) =>
    let count (c : Char) := if c = 'n' then some (Text.digits 10 n) else none
    let line := (nthOrLast? replies n).join.map fun s => String.ofList (fillIn count s.toList)
    (line, rules)

/-- What becomes of the reply to a request. -/
abbrev Delivery := (request : String) → (reply : Option String) → Except Error Mi.Record

/-- The delivery that tells a lost reply from one that is no record. -/
def deliver : Delivery
  | request, none => .error (.noReply request)
  | _, some line =>
    match Mi.Record.read? line with
    | none => .error (.connection s!"bad reply {line}")
    | some record => .ok record

/-- The delivery of a session, which passes on records only. -/
def deliverRecords : Delivery := fun request reply =>
  (reply.bind Mi.Record.read?).elim (.error (.noReply request)) .ok

/-- A connection with answers from a rulebook. -/
structure Conversation where
  rules : Rulebook Replies
  /-- The commands known to the operator. -/
  commands : Registry
  /-- What was sent, oldest first. -/
  sent : List WorkerMessage

namespace Conversation

/-- A connection over which nothing has gone. -/
def new (rules : Rulebook Replies) : Conversation := ⟨rules, .empty, []⟩

/-- Answers a message. -/
def answer (delivery : Delivery) : (m : Message) → Conversation → m.Answer × Conversation
  | .request command, c =>
    let (reply, rules) := replyTo c.rules command
    (delivery command reply, { c with rules, sent := c.sent ++ [.request command] })
  | .console line, c => ((), { c with sent := c.sent ++ [.output line] })
  | .register name handler, c => ((), { c with commands := c.commands.insert name handler })

/-- Carries out a program over a connection. -/
def run {α : Type} (delivery : Delivery) (c : Conversation) (p : Program channel α) :
    α × Conversation :=
  Program.run (answer delivery) p c

/-- The requests that were sent. -/
def requests (c : Conversation) : List String :=
  c.sent.filterMap fun
    | .request command => some command
    | _ => none

/-- The lines that were shown on the operator's console. -/
def console (c : Conversation) : List String :=
  c.sent.filterMap fun
    | .output line => some line
    | _ => none

/-- The connection with nothing sent. -/
def clear (c : Conversation) : Conversation :=
  { c with sent := [] }

/-- Tells a worker an event; gives what it sends. -/
def notify (c : Conversation) (w : Worker) (e : WorkerEvent) :
    List WorkerMessage × Worker × Conversation :=
  let ((w, completion), c) := c.clear.run deliverRecords (w.react c.commands e)
  (c.sent ++ completion.toList.map .finished, w, c)

end Conversation

end KernelProbe.Rehearsal
