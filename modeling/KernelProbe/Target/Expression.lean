import KernelProbe.Debugger.Error
import KernelProbe.Interaction.Dict
import KernelProbe.Text.Blank
import KernelProbe.Text.Search

/-!
# Expressions of a simulated target

A term is the address of a symbol, a register, a number, a truth value, or a name: of a
variable, or else of a symbol. An expression is a term, or a name, an equals sign and a term,
which gives the variable of that name the value of the term.
-/

namespace KernelProbe.Target

open Text Debugger

/-- The names that a term may use. -/
structure Names where
  /-- Symbols with their addresses. -/
  symbols : Dict String UInt64
  /-- Variables that expressions have set. -/
  assigned : Dict String UInt64
  /-- Registers, without the dollar sign. -/
  registers : Dict String UInt64

/-- The address of a symbol. -/
def Names.symbol (n : Names) (name : String) : Except Error UInt64 :=
  (n.symbols.find? name).elim (.error (.unknownSymbol name)) .ok

/-- The value of a term. -/
def Names.term (n : Names) (text : List Char) : Except Error UInt64 :=
  let t := trim text
  let s := String.ofList t
  match t with
  | '&' :: name => n.symbol (String.ofList (trim name))
  | '$' :: name =>
    (n.registers.find? (String.ofList name)).elim (.error (.invalidExpression s)) .ok
  | '0' :: 'x' :: ds =>
    match readWord64 16 ds with
    | .ok v => .ok v
    | .error _ => .error (.invalidExpression s)
  | _ =>
    if s = "true" then .ok 1
    else if s = "false" then .ok 0
    else
      match readWord64 10 t with
      | .ok v => .ok v
      | .error _ => (n.assigned.find? s).elim (n.symbol s) .ok

/-- The value of an expression, and the names after it. -/
def Names.evaluate (n : Names) (expression : String) : Except Error UInt64 × Names :=
  match splitAt? '=' expression.toList with
  | none => (n.term expression.toList, n)
  | some (left, right) =>
    if (trim left).isEmpty || (trim right).isEmpty then
      (.error (.invalidExpression expression), n)
    else
      match n.term right with
      | .error e => (.error e, n)
      | .ok v =>
        (.ok v, { n with assigned := n.assigned.insert (String.ofList (trim left)) v })

end KernelProbe.Target
