import KernelProbe.Text.Digits
import KernelProbe.Text.Search

/-!
# Options

The arguments of a command are options, with a value or without, and operands. A `Grammar` says
which options a command has and what happens to operands; `Grammar.read` sorts the arguments by
it. Options have a long name behind two hyphens, with the value behind an equals sign or in the
next argument, and some have a letter behind one hyphen; letters can be joined, and the rest of
such an argument is the value of a letter that takes one.

Where a command passes arguments on to another program, the first operand or unknown option
starts them, and they are not looked into. An option that waits for its value takes an unknown
option as value there.
-/

namespace KernelProbe.CommandLine

open Text

/-- What an option does. -/
inductive OptionKind
  /-- Switches something on. -/
  | switch
  /-- Takes a value. -/
  | value
  /-- Takes a value that is not empty. -/
  | nonemptyValue
  /-- Takes a number of 64 bits. -/
  | number
  /-- Shows the help. -/
  | help
  /-- Shows the version. -/
  | version
  deriving DecidableEq, Repr

/-- Whether an option has a value. -/
def OptionKind.takesValue : OptionKind → Bool
  | value => true
  | nonemptyValue => true
  | number => true
  | _ => false

/-- Whether an option can have a value. -/
def OptionKind.accepts (kind : OptionKind) (value : String) : Bool :=
  match kind with
  | nonemptyValue => value ≠ ""
  | number => (readWord64 10 value.toList).isOk
  | _ => true

/-- An option. -/
structure Choice where
  name : String
  letter : Option Char
  kind : OptionKind
  deriving DecidableEq, Repr

/-- What happens to the operands of a command. -/
inductive Operands
  /-- The first one is the name of a command, and the rest are its arguments. -/
  | command
  /-- There are at most so many, and none of them is empty. -/
  | atMost (count : Nat)
  /-- They are passed on to another program. -/
  | passedOn
  deriving DecidableEq, Repr

/-- Which arguments a command has. -/
structure Grammar where
  options : List Choice
  operands : Operands

/-- Why the arguments of a command are not carried out. -/
inductive Halt
  /-- They are wrong. -/
  | misuse
  /-- The help is asked for. -/
  | help
  /-- The version is asked for. -/
  | version
  deriving DecidableEq, Repr

/-- Sorted arguments. -/
structure Arguments where
  /-- The options that are there, with their values. -/
  given : List (String × String)
  operands : List String
  deriving DecidableEq, Repr

namespace Arguments

/-- No arguments. -/
def none : Arguments := ⟨[], []⟩

/-- Whether an option is there. -/
def has (a : Arguments) (name : String) : Bool :=
  a.given.any (·.1 = name)

/-- The value of an option. -/
def value? (a : Arguments) (name : String) : Option String :=
  (a.given.find? (·.1 = name)).map (·.2)

/-- The arguments with an option, which must not be there yet. -/
def give (a : Arguments) (c : Choice) (value : String) : Except Halt Arguments :=
  if !a.has c.name && c.kind.accepts value then
    .ok { a with given := a.given ++ [(c.name, value)] }
  else .error .misuse

/-- What an option without a value leads to. -/
def switchOn (a : Arguments) (c : Choice) : Except Halt Arguments :=
  match c.kind with
  | .help => .error .help
  | .version => .error .version
  | _ => a.give c ""

end Arguments

namespace Grammar

/-- The option with a name. -/
def named? (g : Grammar) (name : List Char) : Option Choice :=
  g.options.find? (·.name.toList = name)

/-- The option with a letter. -/
def lettered? (g : Grammar) (letter : Char) : Option Choice :=
  g.options.find? (·.letter = some letter)

/-- Whether unknown options are passed on. -/
def passesOn (g : Grammar) : Bool :=
  g.operands = .passedOn

/-- What an argument can be. -/
inductive Reading
  /-- The mark behind which all are operands. -/
  | mark
  /-- A long option with the value behind its equals sign, if there is one. -/
  | long (c : Choice) (value : Option String)
  /-- Letters of options. -/
  | letters (text : List Char)
  /-- An unknown option. -/
  | unknown
  /-- Any other text. -/
  | plain

/-- The name and value of a long option. -/
def splitLong (text : List Char) : List Char × Option String :=
  match splitAt? '=' text with
  | some (name, value) => (name, some (String.ofList value))
  | Option.none => (text, Option.none)

/-- What an argument is by its form. -/
def classify (g : Grammar) (argument : String) : Reading :=
  match argument.toList with
  | ['-', '-'] => .mark
  | '-' :: '-' :: text =>
    let (name, value) := splitLong text
    match g.named? name with
    | some c => .long c value
    | Option.none => .unknown
  | '-' :: c :: r =>
    if g.passesOn && (c :: r).any fun d => (g.lettered? d).isNone then .unknown
    else .letters (c :: r)
  | _ => .plain

/-- Takes joined letters; gives the option that waits for its value, if one does. -/
def takeLetters (g : Grammar) :
    List Char → Arguments → Except Halt (Arguments × Option Choice)
  | [], a => .ok (a, Option.none)
  | letter :: r, a =>
    match g.lettered? letter with
    | Option.none => .error .misuse
    | some c =>
      if c.kind.takesValue then
        match r with
        | [] => .ok (a, some c)
        | '=' :: value => (a.give c (String.ofList value)).map (·, Option.none)
        | value => (a.give c (String.ofList value)).map (·, Option.none)
      else do takeLetters g r (← a.switchOn c)

/-- Takes a long option; gives the option if it waits for its value. -/
def takeLong (c : Choice) (value : Option String) (a : Arguments) :
    Except Halt (Arguments × Option Choice) :=
  match c.kind.takesValue, value with
  | true, some value => (a.give c value).map (·, Option.none)
  | true, Option.none => .ok (a, some c)
  | false, some _ => .error .misuse
  | false, Option.none => (a.switchOn c).map (·, Option.none)

/-- Takes operands only. -/
def takeOperands (g : Grammar) (rest : List String) (a : Arguments) : Except Halt Arguments :=
  match g.operands with
  | .passedOn => .ok { a with operands := a.operands ++ rest }
  | .command => if rest.isEmpty then .ok a else .error .misuse
  | .atMost count =>
    if a.operands.length + rest.length ≤ count ∧ rest.all (· ≠ "") then
      .ok { a with operands := a.operands ++ rest }
    else .error .misuse

/-- Sorts arguments, behind some that are sorted already and an option that may wait for its
    value. -/
def readFrom (g : Grammar) :
    List String → Option Choice → Arguments → Except Halt Arguments
  | [], some _, _ => .error .misuse
  | [], Option.none, a => .ok a
  | argument :: rest, waiting, a =>
    match g.classify argument, waiting with
    | .mark, Option.none => g.takeOperands rest a
    | .long c value, Option.none => do
      let (a, waiting) ← takeLong c value a
      readFrom g rest waiting a
    | .letters text, Option.none => do
      let (a, waiting) ← g.takeLetters text a
      readFrom g rest waiting a
    | .unknown, some c =>
      if g.passesOn then do readFrom g rest Option.none (← a.give c argument)
      else .error .misuse
    | .plain, some c => do readFrom g rest Option.none (← a.give c argument)
    | .unknown, Option.none =>
      if g.passesOn then g.takeOperands (argument :: rest) a else .error .misuse
    | .plain, Option.none =>
      match g.operands with
      | .passedOn => g.takeOperands (argument :: rest) a
      | .command => .ok { a with operands := argument :: rest }
      | .atMost _ => do readFrom g rest Option.none (← g.takeOperands [argument] a)
    | _, some _ => .error .misuse

/-- Sorts the arguments of a command. -/
def read (g : Grammar) (arguments : List String) : Except Halt Arguments :=
  g.readFrom arguments Option.none .none

end Grammar

end KernelProbe.CommandLine
