import KernelProbe.Text.Digits
import KernelProbe.Text.Search

/-!
# Rulebooks

A rehearsal runs a session without processes: what the debugger would do is laid down in a
rulebook. The first rule that matches a line counts. A rulebook counts the uses of each rule,
so that a rule can react to each use in its own way.
-/

namespace KernelProbe.Rehearsal

open Text

/-- How a rule compares its pattern with a line. -/
inductive Matching
  /-- The line is the pattern. -/
  | whole
  /-- The line starts with the pattern. -/
  | start
  /-- The line has the pattern in it. -/
  | part
  deriving DecidableEq, Repr

/-- Whether a line fits a pattern. -/
def Matching.fits (pattern line : String) : Matching → Bool
  | whole => pattern = line
  | start => (afterStart? pattern.toList line.toList).isSome
  | part => contains line pattern

/-- A rule with a reaction of type `α`. -/
structure Rule (α : Type) where
  matching : Matching
  pattern : String
  reaction : α
  /-- How often the rule was used. -/
  uses : Nat := 0

/-- Rules, in the order in which they are tried. -/
abbrev Rulebook (α : Type) := List (Rule α)

/-- Uses the first rule that matches a line; gives its reaction and the number of the use,
    counted from 1. -/
def Rulebook.use {α : Type} (line : String) : Rulebook α → Option (α × Nat) × Rulebook α
  | [] => (none, [])
  | rule :: r =>
    if rule.matching.fits rule.pattern line then
      (some (rule.reaction, rule.uses + 1), { rule with uses := rule.uses + 1 } :: r)
    else
      let (used, r) := use line r
      (used, rule :: r)

/-- The item for the n-th use, counted from 1: the n-th one, or the last one if there are
    fewer. -/
def nthOrLast? {α : Type} (items : List α) (n : Nat) : Option α :=
  items[min n items.length - 1]?

/-- Puts texts for the letters in braces. -/
def fillIn (put : Char → Option (List Char)) : List Char → List Char
  | [] => []
  | '\x7b' :: letter :: '\x7d' :: r =>
    match put letter with
    | some text => text ++ fillIn put r
    | none => '\x7b' :: fillIn put (letter :: '\x7d' :: r)
  | c :: r => c :: fillIn put r
  termination_by s => s.length

end KernelProbe.Rehearsal
