/-!
# Finding texts in texts

Leading texts, occurrences and their replacement. `replaceAll` goes through the text once from
the left: what it puts in is not looked at again.
-/

namespace KernelProbe.Text

/-- The text behind a leading `start`, if the text begins with it. -/
def afterStart? : (start text : List Char) → Option (List Char)
  | [], s => some s
  | _ :: _, [] => none
  | c :: cs, d :: ds => if c = d then afterStart? cs ds else none

/-- Whether `part` occurs in the text. -/
def occursIn (part : List Char) : List Char → Bool
  | [] => part.isEmpty
  | c :: r => (afterStart? part (c :: r)).isSome || occursIn part r

/-- Whether the string has `part` in it. -/
def contains (s part : String) : Bool :=
  occursIn part.toList s.toList

theorem length_of_afterStart? {start text rest : List Char}
    (h : afterStart? start text = some rest) : rest.length + start.length = text.length := by
  induction start generalizing text with
  | nil => simp [afterStart?] at h; simp [h]
  | cons c cs ih =>
    cases text with
    | nil => simp [afterStart?] at h
    | cons d ds =>
      simp only [afterStart?] at h
      split at h
      · have := ih h
        simp only [List.length_cons]
        omega
      · contradiction

/-- Puts `put` for every occurrence of `part`, from the left. -/
def replaceAll (part put : List Char) : List Char → List Char
  | [] => []
  | c :: r =>
    if _hp : part = [] then c :: r
    else
      match _h : afterStart? part (c :: r) with
      | some rest => put ++ replaceAll part put rest
      | none => c :: replaceAll part put r
  termination_by s => s.length
  decreasing_by
    · have := length_of_afterStart? _h
      have := List.length_pos_iff.mpr _hp
      omega
    · simp

/-- The text before the first occurrence of a character and the text behind it. -/
def splitAt? (sep : Char) : List Char → Option (List Char × List Char)
  | [] => none
  | c :: r => if c = sep then some ([], r) else (splitAt? sep r).map fun p => (c :: p.1, p.2)

theorem length_of_splitAt? {sep : Char} {s before behind : List Char}
    (h : splitAt? sep s = some (before, behind)) :
    before.length + behind.length + 1 = s.length := by
  induction s generalizing before behind with
  | nil => simp [splitAt?] at h
  | cons c r ih =>
    simp only [splitAt?] at h
    split at h
    · cases h
      simp
    · obtain ⟨⟨b, e⟩, hp, hq⟩ := Option.map_eq_some_iff.1 h
      cases hq
      have := ih hp
      simp only [List.length_cons]
      omega

/-- The text before the last occurrence of a character and the text behind it. -/
def splitAtLast? (sep : Char) (s : List Char) : Option (List Char × List Char) :=
  (splitAt? sep s.reverse).map fun p => (p.2.reverse, p.1.reverse)

/-- The pieces between the occurrences of a character. -/
def splitOn (sep : Char) : List Char → List (List Char)
  | [] => [[]]
  | c :: r =>
    if c = sep then [] :: splitOn sep r
    else
      match splitOn sep r with
      | [] => [[c]]
      | p :: ps => (c :: p) :: ps

/-- The text without the occurrences of a character at its end. -/
def trimEndOf (c : Char) (s : List Char) : List Char :=
  s.foldr (fun d r => if r.isEmpty && d == c then [] else d :: r) []

end KernelProbe.Text
