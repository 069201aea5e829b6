import KernelProbe.Mi.Literal

/-!
# Values and results

A result is a name with a value; a value is a text, a tuple of results or a list of values. A
list may hold results too: each stands for a tuple of that one result. `Results.read?` reads
`name=value` pairs joined by commas, and `render` writes them.
-/

namespace KernelProbe.Mi

open Text

/-- A value. -/
inductive Value where
  | text (s : String)
  | tuple (fields : List (String × Value))
  | list (items : List Value)

/-- Results: names with their values. -/
abbrev Results := List (String × Value)

/-- The value of the first result with a name. -/
def Results.get? (rs : Results) (name : String) : Option Value :=
  (rs.find? (·.1 = name)).map (·.2)

namespace Value

/-- The text of a value that is one. -/
def text? : Value → Option String
  | text s => some s
  | _ => none

/-- The items of a value that is a list. -/
def items? : Value → Option (List Value)
  | list items => some items
  | _ => none

/-- The field of a value that is a tuple. -/
def field? (name : String) : Value → Option Value
  | tuple fields => Results.get? fields name
  | _ => none

end Value

mutual

/-- The spelling of a value. -/
def Value.render : Value → List Char
  | .text s => (Literal.quote s).toList
  | .tuple fields => '{' :: Results.render fields ++ ['}']
  | .list items => '[' :: Value.renderItems items ++ [']']

/-- The spelling of results. -/
def Results.render : List (String × Value) → List Char
  | [] => []
  | [(name, v)] => name.toList ++ '=' :: v.render
  | (name, v) :: r => name.toList ++ '=' :: v.render ++ ',' :: Results.render r

/-- The spelling of the items of a list. -/
def Value.renderItems : List Value → List Char
  | [] => []
  | [v] => v.render
  | v :: r => v.render ++ ',' :: Value.renderItems r

end

/-- Whether a character may stand in the name of a result. -/
def isNameChar (c : Char) : Bool :=
  !(c = '=' || c = ',' || c = '{' || c = '}' || c = '[' || c = ']' || c = '"')

/-- What follows the longest name at the start of a text. -/
def afterName (s : List Char) : { r : List Char // r.length ≤ s.length } :=
  ⟨s.dropWhile isNameChar, (List.dropWhile_suffix isNameChar).length_le⟩

/-- The name at the start of a result, and the text behind its equals sign. -/
def name? (s : List Char) : Option (String × Rest s) :=
  match afterName s with
  | ⟨'=' :: r, h⟩ =>
    if (s.takeWhile isNameChar).isEmpty then none
    else some (String.ofList (s.takeWhile isNameChar), ⟨r, h⟩)
  | _ => none

mutual

/-- Reads a value. -/
def Value.read? (s : List Char) : Option (Value × Rest s) :=
  match s with
  | [] => none
  | c :: r =>
    if c = '"' then
      (Literal.read? (c :: r)).map fun (text, rest) => (.text text, rest)
    else if c = '{' then
      match (Rest.tail c r).behind? '}' with
      | some rest => some (.tuple [], rest)
      | none =>
        match Results.readSome? r with
        | none => none
        | some (fields, rest) =>
          (rest.behind? '}').map fun rest => (.tuple fields, rest.within (Nat.le_succ _))
    else if c = '[' then
      match (Rest.tail c r).behind? ']' with
      | some rest => some (.list [], rest)
      | none =>
        match Value.readItems? r with
        | none => none
        | some (items, rest) =>
          (rest.behind? ']').map fun rest => (.list items, rest.within (Nat.le_succ _))
    else none
  termination_by (s.length, 0)

/-- Reads a result. -/
def Results.readOne? (s : List Char) : Option ((String × Value) × Rest s) :=
  match name? s with
  | none => none
  | some (name, ⟨r, h⟩) =>
    match Value.read? r with
    | none => none
    | some (v, rest) => some ((name, v), rest.within (Nat.le_of_lt h))
  termination_by (s.length, 1)

/-- Reads one or more results joined by commas. -/
def Results.readSome? (s : List Char) : Option (List (String × Value) × Rest s) :=
  match Results.readOne? s with
  | none => none
  | some (one, rest) =>
    match rest.behind? ',' with
    | none => some ([one], rest)
    | some ⟨r, shorter⟩ =>
      match Results.readSome? r with
      | none => none
      | some (more, rest) => some (one :: more, rest.within (Nat.le_of_lt shorter))
  termination_by (s.length, 2)

/-- Reads an item of a list: a value, or a result as a tuple. -/
def Value.readItem? (s : List Char) : Option (Value × Rest s) :=
  match s with
  | [] => none
  | c :: r =>
    if c = '"' || c = '{' || c = '[' then Value.read? (c :: r)
    else
      match Results.readOne? (c :: r) with
      | none => none
      | some (one, rest) => some (.tuple [one], rest)
  termination_by (s.length, 2)

/-- Reads one or more items of a list joined by commas. -/
def Value.readItems? (s : List Char) : Option (List Value × Rest s) :=
  match Value.readItem? s with
  | none => none
  | some (one, rest) =>
    match rest.behind? ',' with
    | none => some ([one], rest)
    | some ⟨r, shorter⟩ =>
      match Value.readItems? r with
      | none => none
      | some (more, rest) => some (one :: more, rest.within (Nat.le_of_lt shorter))
  termination_by (s.length, 3)

end

/-- Reads a text that is results and nothing else. -/
def Results.read? (s : List Char) : Option Results :=
  match Results.readSome? s with
  | some (rs, ⟨[], _⟩) => some rs
  | _ => none

end KernelProbe.Mi
