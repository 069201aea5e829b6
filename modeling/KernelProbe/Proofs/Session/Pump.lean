import KernelProbe.Proofs.Text.Lines
import KernelProbe.Session.Pump

/-!
# What a pump sends

A pump sends the lines of its stream up to the first one that is no text, in whichever pieces the
stream comes (`feed_append`, `feed_new`), and is open as long as all lines so far are texts. At the
end of the stream the piece behind the last line feed is a line as well (`finish_feed_new`).
-/

namespace KernelProbe.Session.Pump

variable {xs ys : List (List UInt8)} {line : List UInt8}

/-! ## Lines and texts -/

/-- The lines in the bytes of a stream. At the end of the stream the piece behind the last line
    feed is one of them, unless it is empty. -/
def linesIn (bytes : List UInt8) (ended : Bool) : List (List UInt8) :=
  (Text.byteLines bytes).1 ++
    if ended && !(Text.byteLines bytes).2.isEmpty then [(Text.byteLines bytes).2] else []

/-- The text in the bytes of a line. -/
def text? (line : List UInt8) : Option String :=
  (Text.Utf8.decode? line).map String.ofList

/-- Whether all lines are texts. -/
def allText (xs : List (List UInt8)) : Bool :=
  xs.all fun line => (text? line).isSome

/-- The lines of text in front of the first line that is none. -/
def textsIn (xs : List (List UInt8)) : List String :=
  (xs.takeWhile fun line => (text? line).isSome).filterMap text?

theorem textsIn_cons (line : List UInt8) (xs : List (List UInt8)) :
    textsIn (line :: xs) = (text? line).elim [] fun text => text :: textsIn xs := by
  unfold textsIn
  rw [List.takeWhile_cons]
  cases h : text? line <;> simp [h]

theorem allText_cons (line : List UInt8) (xs : List (List UInt8)) :
    allText (line :: xs) = ((text? line).isSome && allText xs) :=
  List.all_cons

theorem allText_append (xs ys : List (List UInt8)) :
    allText (xs ++ ys) = (allText xs && allText ys) :=
  List.all_append

/-- Behind a line that is no text, nothing counts. -/
theorem textsIn_append (xs ys : List (List UInt8)) :
    textsIn (xs ++ ys) = textsIn xs ++ if allText xs then textsIn ys else [] := by
  induction xs with
  | nil => rfl
  | cons line xs ih =>
    rw [List.cons_append, textsIn_cons, textsIn_cons, allText_cons, ih]
    cases text? line <;> simp

/-- Where all lines are texts, these are the texts. -/
theorem map_textsIn (h : allText xs = true) : (textsIn xs).map some = xs.map text? := by
  induction xs with
  | nil => rfl
  | cons line xs ih =>
    rw [allText_cons, Bool.and_eq_true] at h
    obtain ⟨text, ht⟩ := Option.isSome_iff_exists.1 h.1
    rw [textsIn_cons, List.map_cons, ← ih h.2, ht]
    rfl

theorem readable_eq (xs : List (List UInt8)) : readable xs = (textsIn xs, allText xs) := by
  induction xs with
  | nil => rfl
  | cons line xs ih =>
    rw [readable, ih, textsIn_cons, allText_cons]
    cases hd : Text.Utf8.decode? line <;> simp [text?, hd]

/-! ## Pieces of a stream -/

variable {p : Pump} {bytes more : List UInt8}

theorem feed_of_closed (h : p.isOpen = false) (bytes : List UInt8) : p.feed bytes = ([], p) := by
  unfold feed
  rw [h]
  rfl

/-- An open pump sends the texts of the lines that are finished. -/
theorem feed_of_open (h : p.isOpen = true) (bytes : List UInt8) :
    p.feed bytes = (textsIn (Text.byteLines (p.carry ++ bytes)).1,
      if allText (Text.byteLines (p.carry ++ bytes)).1
      then ⟨(Text.byteLines (p.carry ++ bytes)).2, true⟩ else closed) := by
  unfold feed
  dsimp only
  rw [if_pos h, readable_eq]
  cases allText (Text.byteLines (p.carry ++ bytes)).1 <;> rfl

/-- What is sent does not depend on the pieces in which the stream comes. -/
theorem feed_append (p : Pump) (bytes more : List UInt8) :
    p.feed (bytes ++ more) =
      ((p.feed bytes).1 ++ ((p.feed bytes).2.feed more).1, ((p.feed bytes).2.feed more).2) := by
  cases h : p.isOpen with
  | false => rw [feed_of_closed h, feed_of_closed h, feed_of_closed h, List.append_nil]
  | true =>
    rw [feed_of_open h, feed_of_open h, ← List.append_assoc, Text.byteLines_append]
    dsimp only
    rw [textsIn_append, allText_append]
    cases allText (Text.byteLines (p.carry ++ bytes)).1 with
    | false => rw [if_neg nofun, if_neg nofun, if_neg nofun, feed_of_closed rfl]
    | true => rw [if_pos rfl, if_pos rfl, Bool.true_and, feed_of_open rfl]

theorem feed_new (bytes : List UInt8) :
    new.feed bytes = (textsIn (linesIn bytes false),
      if allText (linesIn bytes false) then ⟨(Text.byteLines bytes).2, true⟩ else closed) := by
  have hl : linesIn bytes false = (Text.byteLines bytes).1 := List.append_nil _
  rw [feed_of_open rfl, hl]
  rfl

theorem feed_new_fst (bytes : List UInt8) :
    (new.feed bytes).1 = textsIn (linesIn bytes false) :=
  congrArg Prod.fst (feed_new bytes)

/-- The lines of a stream go on with what comes behind. -/
theorem allText_linesIn_of_append {ended : Bool}
    (h : allText (linesIn (bytes ++ more) ended) = true) :
    allText (linesIn bytes false) = true := by
  have hl : linesIn bytes false = (Text.byteLines bytes).1 := List.append_nil _
  rw [linesIn, Text.byteLines_append, List.append_assoc, allText_append, Bool.and_eq_true] at h
  rw [hl]
  exact h.1

/-- A pump is open as long as the lines so far are texts. -/
theorem isOpen_feed_new (bytes : List UInt8) :
    (new.feed bytes).2.isOpen = allText (linesIn bytes false) := by
  rw [feed_new]
  cases allText (linesIn bytes false) <;> rfl

/-- At the end of a stream, its lines have been sent up to the first one that is no text. -/
theorem finish_feed_new (bytes : List UInt8) :
    (new.feed bytes).1 ++ (new.feed bytes).2.finish.1 = textsIn (linesIn bytes true) := by
  have hl : linesIn bytes false = (Text.byteLines bytes).1 := List.append_nil _
  rw [feed_new, hl, linesIn, Bool.true_and, textsIn_append]
  unfold finish
  cases allText (Text.byteLines bytes).1 with
  | false => rfl
  | true =>
    rw [if_pos rfl, if_pos rfl, Bool.true_and, readable_eq]
    cases (Text.byteLines bytes).2.isEmpty <;> rfl

theorem finish_snd (p : Pump) : p.finish.2 = closed := by
  unfold finish
  split <;> rfl

end KernelProbe.Session.Pump
