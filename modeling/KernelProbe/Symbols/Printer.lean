import KernelProbe.Symbols.Mangled
import KernelProbe.Text.Punycode
import KernelProbe.Text.Quoted

/-!
# Names of the newer mangling

The newer scheme writes a path as `_R` and a sentence of a grammar of paths, types and
constants, in which a reference repeats an earlier part. A `Printer` reads such a sentence and
shows it as it goes; it can also read without showing, and then it follows no references.

What cannot be read is shown as a mark, and what would come behind it as question marks, so
that the form of the name stays visible. The text shown is limited, because references can
repeat references.
-/

namespace KernelProbe.Symbols

open Text

/-- What a printer has shown, in reverse, and how many bytes more it may show. -/
structure Display where
  shown : List (List Char)
  left : Nat

/-- The state of a printer. -/
structure PrinterState where
  /-- Where the printer reads, or why it cannot read on. -/
  reader : Except ReadError Reader
  /-- What is shown; nothing while the printer only reads. -/
  display : Option Display
  /-- How many lifetimes the binders around the place have. -/
  lifetimes : Nat

/-- The sign that the limit of the display is reached. -/
inductive Full
  | full

/-- A step of a printer. -/
abbrev Printer (α : Type) := ExceptT Full (StateM PrinterState) α

namespace Printer

/-- Shows a text, all of it or nothing. -/
def put (text : List Char) : Printer Unit := do
  let s ← get
  match s.display with
  | none => pure ()
  | some d =>
    let size := (Utf8.encode text).length
    if size ≤ d.left then
      set { s with display := some ⟨text :: d.shown, d.left - size⟩ }
    else throw .full

/-- Shows a string. -/
def print (text : String) : Printer Unit :=
  put text.toList

/-- Shows a number. -/
def printNumber (n : Nat) : Printer Unit :=
  put (digits 10 n)

/-- Whether the printer shows what it reads. -/
def isShowing : Printer Bool := do
  return (← get).display.isSome

/-- Whether the printer can read on. -/
def canRead : Printer Bool := do
  return (← get).reader.isOk

/-- Shows the mark of an error and stops reading. -/
def fail (e : ReadError) : Printer Unit := do
  print e.message
  modify fun s => { s with reader := .error e }

/-- Reads something and goes on with it; where that cannot be read, nothing more is done and
    the result is `otherwise`. -/
def readingOr {α β : Type} (otherwise : β) (read : Read α) (next : α → Printer β) :
    Printer β := do
  match (← get).reader with
  | .error _ =>
    print "?"
    pure otherwise
  | .ok r =>
    match read r with
    | .error e =>
      fail e
      pure otherwise
    | .ok (a, r) =>
      modify fun s => { s with reader := .ok r }
      next a

/-- Reads something and goes on with it; where that cannot be read, nothing more is done. -/
def reading {α : Type} (read : Read α) (next : α → Printer Unit) : Printer Unit :=
  readingOr () read next

/-- Changes the place of reading, if there is one. -/
def moveReader (f : Reader → Reader) : Printer Unit :=
  modify fun s => { s with reader := s.reader.map f }

/-- Goes one level up. -/
def leave : Printer Unit :=
  moveReader fun r => { r with depth := r.depth - 1 }

/-- Steps over a character if it is the next one; says whether it was. -/
def eat (c : Char) : Printer Bool := do
  match (← get).reader with
  | .error _ => pure false
  | .ok r =>
    match r.rest with
    | [] => pure false
    | d :: rest =>
      if c = d then
        moveReader fun r => { r with rest }
        pure true
      else pure false

/-- Reads without showing. -/
def skipping (p : Printer Unit) : Printer Unit := do
  let display := (← get).display
  modify fun s => { s with display := none }
  p
  modify fun s => { s with display }

/-- Shows the earlier part that a reference points to, and reads on behind the reference; the
    result is `otherwise` if nothing is shown there. -/
def atReference {α : Type} (otherwise : α) (p : Printer α) : Printer α :=
  readingOr otherwise Reader.reference fun target => do
    if ← isShowing then
      let reader := (← get).reader
      modify fun s => { s with reader := .ok target }
      let a ← p
      modify fun s => { s with reader }
      pure a
    else pure otherwise

/-- Shows the items of a list up to its end; gives their number. -/
def separated (item : Printer Unit) (sep : String) : (fuel count : Nat) → Printer Nat
  | 0, count => pure count
  | fuel + 1, count => do
    if !(← canRead) then pure count
    else if ← eat 'E' then pure count
    else
      if 0 < count then print sep
      item
      separated item sep fuel (count + 1)

/-- The greatest number of characters of an identifier that is shown decoded. -/
def maxDecoded : Nat := 128

/-- Shows an identifier; one whose code cannot be decoded is shown as it is. -/
def identifier (i : Identifier) : Printer Unit := do
  if i.code.isEmpty then put i.ascii
  else
    match Punycode.decode? maxDecoded i.ascii i.code with
    | some text => text.forM fun c => put [c]
    | none =>
      print "punycode\x7b"
      if !i.ascii.isEmpty then
        put i.ascii
        print "-"
      put i.code
      print "\x7d"

/-- Shows characters between quotes, one character of their spelling at a time. -/
def quotedChars (quote : Char) (text : List Char) : Printer Unit :=
  (quotedBy quote text).forM fun c => put [c]

/-- Shows a lifetime by its number: 0 has no name, and 1 is the one bound last. -/
def lifetime (n : Nat) : Printer Unit := do
  if ← isShowing then
    print "'"
    let bound := (← get).lifetimes
    if n = 0 then print "_"
    else if bound < n then fail .invalid
    else
      let depth := bound - n
      if depth < 26 then put [Char.ofNat ('a'.toNat + depth)]
      else
        print "_"
        printNumber depth

/-- Binds lifetimes and shows their names. -/
def bindLifetimes : (count : Nat) → (isFirst : Bool) → Printer Unit
  | 0, _ => pure ()
  | count + 1, isFirst => do
    if !isFirst then print ", "
    modify fun s => { s with lifetimes := s.lifetimes + 1 }
    lifetime 1
    bindLifetimes count false

/-- Shows what stands under a binder, which is read first. -/
def inBinder (p : Printer Unit) : Printer Unit :=
  reading (Reader.word (tagged62? 'G')) fun count => do
    if !(← isShowing) then p
    else
      if 0 < count then
        print "for<"
        bindLifetimes count true
        print "> "
      p
      modify fun s => { s with lifetimes := s.lifetimes - count }

/-- The name of a basic type. -/
def basicType? (tag : Char) : Option String :=
  match tag with
  | 'b' => some "bool"
  | 'c' => some "char"
  | 'e' => some "str"
  | 'u' => some "()"
  | 'a' => some "i8"
  | 's' => some "i16"
  | 'l' => some "i32"
  | 'x' => some "i64"
  | 'n' => some "i128"
  | 'i' => some "isize"
  | 'h' => some "u8"
  | 't' => some "u16"
  | 'm' => some "u32"
  | 'y' => some "u64"
  | 'o' => some "u128"
  | 'j' => some "usize"
  | 'f' => some "f32"
  | 'd' => some "f64"
  | 'z' => some "!"
  | 'p' => some "_"
  | 'v' => some "..."
  | _ => none

/-- Shows a constant number; one that does not fit in 64 bits keeps its digits. -/
def constantNumber : Printer Unit :=
  reading (Reader.word nibbles?) fun ds =>
    match nibbleNumber? ds with
    | some n => printNumber n
    | none => do
      print "0x"
      put ds

/-- Shows a constant text. -/
def constantText : Printer Unit :=
  reading (Reader.word nibbles?) fun ds =>
    match nibbleText? ds with
    | some text => quotedChars '"' text
    | none => fail .invalid

/-- The character with a number, if there is one. -/
def characterNumbered? (n : Nat) : Option Char :=
  if (Char.ofNat n).toNat = n then some (Char.ofNat n) else none

/-- Shows the name of a calling convention, whose hyphens are written as underscores. -/
def callingConvention (name : List Char) : Printer Unit := do
  print "extern \""
  put (name.map fun c => if c = '_' then '-' else c)
  print "\" "

/-- Reads the name of a calling convention, if there is one, and goes on with it. -/
def readConvention (next : Option (List Char) → Printer Unit) : Printer Unit := do
  if ← eat 'K' then
    if ← eat 'C' then next (some ['C'])
    else
      reading (Reader.word identifier?) fun name =>
        if name.ascii.isEmpty || !name.code.isEmpty then fail .invalid
        else next (some name.ascii)
  else next none

/-- Reads a disambiguator, which is not shown. -/
def disambiguator : Read Nat :=
  Reader.word (tagged62? 's')

/-- Reads a disambiguator and an identifier, and goes on with them. -/
def readName (next : Nat → Identifier → Printer Unit) : Printer Unit :=
  reading disambiguator fun number =>
    reading (Reader.word identifier?) fun name => next number name

/-- Shows the last part of a path in a namespace. -/
def pathPart (namespaceTag : Option Char) (number : Nat) (name : Identifier) :
    Printer Unit := do
  match namespaceTag with
  | some tag =>
    print "::\x7b"
    if tag = 'C' then print "closure"
    else if tag = 'S' then print "shim"
    else put [tag]
    if !name.isEmpty then
      print ":"
      identifier name
    print "#"
    printNumber number
    print "\x7d"
  | none =>
    if !name.isEmpty then
      print "::"
      identifier name

/-- Shows items between parentheses; one item alone has a comma behind it. -/
def parenthesized (fuel : Nat) (item : Printer Unit) : Printer Unit := do
  print "("
  if (← separated item ", " fuel 0) = 1 then print ","
  print ")"

/-- Shows a list of items between two brackets. -/
def bracketed (fuel : Nat) (opening closing : String) (item : Printer Unit) :
    Printer Unit := do
  print opening
  let _ ← separated item ", " fuel 0
  print closing

mutual

/-- Shows a path; its generic arguments have a double colon before them in a value. -/
def path (inValue : Bool) : (fuel : Nat) → Printer Unit
  | 0 => pure ()
  | fuel + 1 =>
    reading Reader.enter fun _ => reading Reader.next fun tag =>
      match tag with
      | 'C' => readName fun _ name => do
        identifier name
        leave
      | 'N' => reading Reader.namespaceTag fun namespaceTag => do
        path inValue fuel
        if !(← canRead) then print "::"
        readName fun number name => do
          pathPart namespaceTag number name
          leave
      | 'M' => reading disambiguator fun _ => do
        skipping (path false fuel)
        print "<"
        type fuel
        print ">"
        leave
      | 'X' => reading disambiguator fun _ => do
        skipping (path false fuel)
        qualified fuel
        leave
      | 'Y' => do
        qualified fuel
        leave
      | 'I' => do
        path inValue fuel
        if inValue then print "::"
        bracketed fuel "<" ">" (genericArgument fuel)
        leave
      | 'B' => do
        atReference () (path inValue fuel)
        leave
      | _ => fail .invalid

/-- Shows a type seen as an instance of a trait. -/
def qualified : (fuel : Nat) → Printer Unit
  | 0 => pure ()
  | fuel + 1 => do
    print "<"
    type fuel
    print " as "
    path false fuel
    print ">"

/-- Shows a generic argument. -/
def genericArgument : (fuel : Nat) → Printer Unit
  | 0 => pure ()
  | fuel + 1 => do
    if ← eat 'L' then reading (Reader.word number62?) lifetime
    else if ← eat 'K' then constant false fuel
    else type fuel

/-- Shows a type; a mark in front says that a function takes its parts one by one. -/
def type : (fuel : Nat) → Printer Unit
  | 0 => pure ()
  | fuel + 1 => do
    if ← eat 'w' then print "#[splat] "
    reading Reader.next fun tag =>
      match basicType? tag with
      | some name => print name
      | none => reading Reader.enter fun _ =>
        match tag with
        | 'R' => do
          print "&"
          if ← eat 'L' then
            reading (Reader.word number62?) fun n => do
              if n ≠ 0 then
                lifetime n
                print " "
              type fuel
              leave
          else
            type fuel
            leave
        | 'Q' => do
          print "&"
          if ← eat 'L' then
            reading (Reader.word number62?) fun n => do
              if n ≠ 0 then
                lifetime n
                print " "
              print "mut "
              type fuel
              leave
          else
            print "mut "
            type fuel
            leave
        | 'P' => do
          print "*const "
          type fuel
          leave
        | 'O' => do
          print "*mut "
          type fuel
          leave
        | 'A' => do
          print "["
          type fuel
          print "; "
          constant true fuel
          print "]"
          leave
        | 'S' => do
          print "["
          type fuel
          print "]"
          leave
        | 'T' => do
          parenthesized fuel (type fuel)
          leave
        | 'F' => do
          inBinder (functionType fuel)
          leave
        | 'D' => do
          print "dyn "
          inBinder (do let _ ← separated (traitOfObject fuel) " + " fuel 0)
          if ← eat 'L' then
            reading (Reader.word number62?) fun n => do
              if n ≠ 0 then
                print " + "
                lifetime n
              leave
          else fail .invalid
        | 'B' => do
          atReference () (type fuel)
          leave
        | 'W' => do
          type fuel
          print " is "
          pattern fuel
          leave
        | _ => do
          moveReader fun r => { r with rest := tag :: r.rest }
          path false fuel
          leave

/-- Shows the type of a function, behind its binder. -/
def functionType : (fuel : Nat) → Printer Unit
  | 0 => pure ()
  | fuel + 1 => do
    let isUnsafe ← eat 'U'
    readConvention fun convention => do
      if isUnsafe then print "unsafe "
      match convention with
      | some name => callingConvention name
      | none => pure ()
      bracketed fuel "fn(" ")" (type fuel)
      if !(← eat 'u') then
        print " -> "
        type fuel

/-- Shows a path whose generic arguments are left open; says whether it has some. -/
def openPath : (fuel : Nat) → Printer Bool
  | 0 => pure false
  | fuel + 1 => do
    if ← eat 'B' then atReference false (openPath fuel)
    else if ← eat 'I' then
      path false fuel
      print "<"
      let _ ← separated (genericArgument fuel) ", " fuel 0
      pure true
    else
      path false fuel
      pure false

/-- Shows a trait of a trait object, with the types and constants that it is bound to. -/
def traitOfObject : (fuel : Nat) → Printer Unit
  | 0 => pure ()
  | fuel + 1 => do
    let isOpen ← openPath fuel
    boundItems isOpen fuel

/-- Shows the types and constants that a trait is bound to, and closes its arguments. -/
def boundItems (isOpen : Bool) : (fuel : Nat) → Printer Unit
  | 0 => pure ()
  | fuel + 1 => do
    if ← eat 'p' then
      print (if isOpen then ", " else "<")
      reading (Reader.word identifier?) fun name => do
        identifier name
        print " = "
        if ← eat 'K' then constant false fuel else type fuel
        boundItems true fuel
    else if isOpen then print ">"

/-- Shows a pattern of a type. -/
def pattern : (fuel : Nat) → Printer Unit
  | 0 => pure ()
  | fuel + 1 =>
    reading Reader.next fun tag =>
      match tag with
      | 'R' => do
        constant false fuel
        print "..="
        constant false fuel
      | 'O' => reading Reader.enter fun _ => do
        pattern fuel
        alternatives fuel
      | 'N' => print "!null"
      | _ => fail .invalid

/-- Shows the further patterns of a list, up to its end. -/
def alternatives : (fuel : Nat) → Printer Unit
  | 0 => pure ()
  | fuel + 1 => do
    if ← eat 'E' then leave
    else if !(← canRead) then fail .invalid
    else
      print " | "
      pattern fuel
      alternatives fuel

/-- Shows a constant; outside a value all but plain ones have braces around them. -/
def constant (inValue : Bool) : (fuel : Nat) → Printer Unit
  | 0 => pure ()
  | fuel + 1 =>
    reading Reader.next fun tag => reading Reader.enter fun _ =>
      let opening := if inValue then pure () else print "\x7b"
      let close := do
        if !inValue then print "\x7d"
        leave
      match tag with
      | 'p' => do
        print "_"
        leave
      | 'b' => reading (Reader.word nibbles?) fun ds => do
        match nibbleNumber? ds with
        | some 0 =>
          print "false"
          leave
        | some 1 =>
          print "true"
          leave
        | _ => fail .invalid
      | 'c' => reading (Reader.word nibbles?) fun ds => do
        match (nibbleNumber? ds).bind characterNumbered? with
        | some c =>
          quotedChars '\'' [c]
          leave
        | none => fail .invalid
      | 'e' => do
        opening
        print "*"
        constantText
        close
      | 'R' => do
        if ← eat 'e' then
          constantText
          leave
        else
          opening
          print "&"
          constant true fuel
          close
      | 'Q' => do
        opening
        print "&mut "
        constant true fuel
        close
      | 'A' => do
        opening
        bracketed fuel "[" "]" (constant true fuel)
        close
      | 'T' => do
        opening
        parenthesized fuel (constant true fuel)
        close
      | 'V' => do
        opening
        path true fuel
        reading Reader.next fun shape =>
          match shape with
          | 'U' => close
          | 'T' => do
            bracketed fuel "(" ")" (constant true fuel)
            close
          | 'S' => do
            bracketed fuel " \x7b " " \x7d" (constantField fuel)
            close
          | _ => fail .invalid
      | 'B' => do
        atReference () (constant inValue fuel)
        leave
      | tag => do
        if "htmyoj".toList.contains tag then
          constantNumber
          leave
        else if "aslxni".toList.contains tag then
          if ← eat 'n' then print "-"
          constantNumber
          leave
        else fail .invalid

/-- Shows a field of a constant structure. -/
def constantField : (fuel : Nat) → Printer Unit
  | 0 => pure ()
  | fuel + 1 => readName fun _ name => do
    identifier name
    print ": "
    constant true fuel

end

/-- Runs a printer at the start of a name. -/
def run (p : Printer Unit) (name : List Char) (display : Option Display) :
    Except Full Unit × PrinterState :=
  StateT.run (ExceptT.run p) ⟨.ok (.start name), display, 0⟩

end Printer

/-- The greatest number of bytes that a name is shown in. -/
def maxShown : Nat := 1000000

/-- What is shown in the end if the name is too long. -/
def limitMark : String := "\x7bsize limit reached\x7d"

/-- A bound on the steps that are nested when a name is shown: at each depth there are at most
    six for the depth and one for each item of a list. -/
def nestingBound (name : List Char) : Nat :=
  (Reader.maxDepth + 2) * (name.length + 8)

/-- What stands behind the leading mark of the scheme. -/
def structuredBody? (s : List Char) : Option (List Char) :=
  match s with
  | '_' :: 'R' :: c :: r => some (c :: r)
  | 'R' :: c :: r => some (c :: r)
  | '_' :: '_' :: 'R' :: c :: r => some (c :: r)
  | _ => none

/-- Whether a path may start with a character. -/
def startsPath (c : Char) : Bool :=
  'A' ≤ c && c ≤ 'Z'

/-- What is left behind a path that starts at a reader, if it is one. -/
def pathEnd? (name : List Char) (r : Reader) : Option Reader :=
  let s := (StateT.run (ExceptT.run (Printer.path false (nestingBound name)))
    ⟨.ok r, none, 0⟩ : Except Full Unit × PrinterState).2
  s.reader.toOption

/-- The text behind a name: behind its path, and behind the path of the package that uses it, if
    there is one. -/
def nameEnd? (name : List Char) : Option (List Char) := do
  let r ← pathEnd? name (.start name)
  match r.rest with
  | [] => some []
  | c :: rest =>
    if startsPath c then do
      let r ← pathEnd? name r
      some r.rest
    else some (c :: rest)

/-- The path that a name of the scheme stands for. -/
def showName (name : List Char) : String :=
  let (result, s) :=
    Printer.run (Printer.path true (nestingBound name)) name (some ⟨[], maxShown⟩)
  let shown := match s.display with
    | some d => String.ofList d.shown.reverse.flatten
    | none => ""
  match result with
  | .ok () => shown
  | .error _ => shown ++ limitMark

/-- The path that a name of the scheme stands for, and the text behind the name. -/
def demangleStructured? (s : List Char) : Option (String × List Char) := do
  let name ← structuredBody? s
  if name.head?.any startsPath && name.all (·.toNat < 0x80) then
    let rest ← nameEnd? name
    some (showName name, rest)
  else none

end KernelProbe.Symbols
