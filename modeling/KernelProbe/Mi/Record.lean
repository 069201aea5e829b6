import KernelProbe.Mi.Value
import KernelProbe.Text.Blank
import KernelProbe.Text.Digits
import KernelProbe.Text.Search

/-!
# Records

A record is a line with an optional token, a sigil for its kind, a class, and results behind a
comma. Streams and prompts are no records. `Record.read?` and `Record.render` are for records of
the debugger; the rest of the module writes the lines that go to it and to the operator.
-/

namespace KernelProbe.Mi

open Text

/-- The kinds of records. -/
inductive RecordKind
  /-- The answer to a request. -/
  | result
  /-- A change of the target's running. -/
  | exec
  /-- A report of progress. -/
  | status
  /-- Any other news. -/
  | notify
  deriving DecidableEq, Repr

/-- The sigil of a kind. -/
def RecordKind.sigil : RecordKind → Char
  | .result => '^'
  | .exec => '*'
  | .status => '+'
  | .notify => '='

/-- The kind of a sigil. -/
def RecordKind.ofSigil? (c : Char) : Option RecordKind :=
  if c = '^' then some .result
  else if c = '*' then some .exec
  else if c = '+' then some .status
  else if c = '=' then some .notify
  else none

/-- A record. -/
structure Record where
  /-- The token of the request that the record belongs to. -/
  token : Option UInt64
  kind : RecordKind
  /-- What the record says, in a word. -/
  className : String
  results : Results

/-- The number in the leading digits of a text, and the text behind them; nothing if the number
    does not fit in 64 bits. -/
def splitToken? (s : List Char) : Option (Option UInt64 × List Char) :=
  match s.takeWhile isDecimalDigit with
  | [] => some (none, s)
  | ds =>
    match readWord64 10 ds with
    | .ok token => some (some token, s.dropWhile isDecimalDigit)
    | .error _ => none

/-- The spelling of a token. -/
def renderToken : Option UInt64 → List Char
  | none => []
  | some token => digits 10 token.toNat

namespace Record

/-- Reads the class and results of a record. -/
def readBody? (body : List Char) : Option (String × Results) :=
  let (className, results) :=
    match splitAt? ',' body with
    | none => (body, some [])
    | some (name, rest) => (name, Results.read? rest)
  if className.isEmpty then none else results.map fun rs => (String.ofList className, rs)

/-- Reads a line; blanks at its end do not count. -/
def read? (line : String) : Option Record := do
  let (token, rest) ← splitToken? (trimEnd line.toList)
  match rest with
  | [] => none
  | c :: body =>
    let kind ← RecordKind.ofSigil? c
    let (className, results) ← readBody? body
    some { token, kind, className, results }

/-- The spelling of a record. -/
def render (r : Record) : String :=
  String.ofList (renderToken r.token ++ r.kind.sigil :: r.className.toList
    ++ (if r.results.isEmpty then [] else ',' :: Results.render r.results))

/-- The value of the first result with a name. -/
def get? (r : Record) (name : String) : Option Value :=
  Results.get? r.results name

/-- The message of an answer that reports an error; empty if it has none. -/
def errorMessage? (r : Record) : Option String :=
  if r.kind = .result ∧ r.className = "error" then
    some (((r.get? "msg").bind Value.text?).getD "")
  else none

/-- The number of the breakpoint at which the target stopped. -/
def breakpointHit? (r : Record) : Option UInt32 :=
  if r.kind = .exec ∧ r.className = "stopped"
      ∧ (r.get? "reason").bind Value.text? = some "breakpoint-hit" then do
    let number ← (← r.get? "bkptno").text?
    (readWord32 10 number.toList).toOption
  else none

end Record

/-- The request that makes the debugger carry out a command of its console. -/
def consoleRequest (command : String) : String :=
  "-interpreter-exec console " ++ Literal.quote command

/-- The record that shows a line on the operator's console. -/
def consoleRecord (line : String) : String :=
  "~" ++ Literal.quote (line ++ "\n")

/-- The record that answers a request of the operator, with an error or without. -/
def resultRecord (token : Option UInt64) (error : Option String) : String :=
  String.ofList (renderToken token)
    ++ match error with
      | none => "^done"
      | some message => "^error,msg=" ++ Literal.quote message

/-- The blanks of the ASCII set that may stand behind a console command. -/
def isAsciiBlank (c : Char) : Bool :=
  c = ' ' || c = '\t' || c = '\n' || c = '\x0c' || c = '\r'

/-- The console command in a line of the operator, with the line's token: the literal of a
    request to carry out a console command, or the line itself if it is no request. -/
def consoleInput? (line : String) : Option (Option UInt64 × String) := do
  let (token, rest) ← splitToken? (trim line.toList)
  let rest := trimStart rest
  match afterStart? "-interpreter-exec".toList rest with
  | some arguments =>
    let command ← afterStart? "console".toList (trimStart arguments)
    let (text, behind) ← Literal.read? (trimStart command)
    if behind.val.all isAsciiBlank then some (token, text) else none
  | none =>
    match rest with
    | [] => none
    | '-' :: _ => none
    | _ => some (token, String.ofList rest)

end KernelProbe.Mi
