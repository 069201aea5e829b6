import Mathlib.Data.List.TakeWhile
import KernelProbe.Mi.Value
import KernelProbe.Proofs.Mi.Literal

/-!
# The grammar of values and results

What a text says as a value, a result, results, an item or items is a derivation
(`Value.Spells` and so on), one rule for each form. A value ends by its own last character; a row
of results or items ends where no comma follows.

* `Value.Spells.gives` and `exists_of_value`, and the same for the other forms: a reader finds exactly
  what its text derives;
* `read?_results_iff`: a whole text is read as results exactly if it derives them;
* `Value.spells_render`: what is written for a value whose names are all names derives it.
-/

namespace KernelProbe.Mi

open Text Rest

/-- The characters that are in no name. -/
def marks : List Char := ['=', ',', '{', '}', '[', ']', '"']

/-- A text that can be the name of a result. -/
structure IsName (n : List Char) : Prop where
  ne_nil : n ≠ []
  not_mem : ∀ c ∈ n, c ∉ marks

mutual

/-- What a text says as a value. -/
inductive Value.Spells : List Char → Value → Prop
  | text {t bytes} : Literal.Units t bytes →
      Value.Spells ('"' :: (t ++ ['"'])) (.text (String.ofList (Utf8.decodeLossy bytes)))
  | emptyTuple : Value.Spells ['{', '}'] (.tuple [])
  | tuple {t fields} : Results.Spells t fields → Value.Spells ('{' :: (t ++ ['}'])) (.tuple fields)
  | emptyList : Value.Spells ['[', ']'] (.list [])
  | list {t items} : Items.Spells t items → Value.Spells ('[' :: (t ++ [']'])) (.list items)

/-- What a text says as a result. -/
inductive Result.Spells : List Char → String × Value → Prop
  | mk {n t v} : IsName n → Value.Spells t v → Result.Spells (n ++ '=' :: t) (String.ofList n, v)

/-- What a text says as one or more results. -/
inductive Results.Spells : List Char → List (String × Value) → Prop
  | one {t x} : Result.Spells t x → Results.Spells t [x]
  | more {t u x xs} : Result.Spells t x → Results.Spells u xs →
      Results.Spells (t ++ ',' :: u) (x :: xs)

/-- What a text says as an item of a list. -/
inductive Item.Spells : List Char → Value → Prop
  | value {t v} : Value.Spells t v → Item.Spells t v
  | result {t x} : Result.Spells t x → Item.Spells t (.tuple [x])

/-- What a text says as one or more items of a list. -/
inductive Items.Spells : List Char → List Value → Prop
  | one {t v} : Item.Spells t v → Items.Spells t [v]
  | more {t u v vs} : Item.Spells t v → Items.Spells u vs → Items.Spells (t ++ ',' :: u) (v :: vs)

end

variable {s t r n : List Char} {v : Value} {vs : List Value} {x : String × Value}
  {xs : List (String × Value)} {c : Char}

/-! ## Names -/

theorem isNameChar_iff : isNameChar c = true ↔ c ∉ marks := by
  simp [isNameChar, marks, and_assoc]

theorem isName_iff : IsName n ↔ n.isEmpty = false ∧ n.all isNameChar = true := by
  rw [List.isEmpty_eq_false_iff, List.all_eq_true]
  simp only [isNameChar_iff]
  exact ⟨fun h => ⟨h.ne_nil, h.not_mem⟩, fun h => ⟨h.1, h.2⟩⟩

instance (n : List Char) : Decidable (IsName n) :=
  decidable_of_iff _ isName_iff.symm

theorem gives_name (h : IsName n) (r : List Char) :
    Gives (name? (n ++ '=' :: r)) (String.ofList n) r := by
  have hn : ∀ c ∈ n, isNameChar c = true := fun c hc => isNameChar_iff.2 (h.not_mem c hc)
  have hd : (n ++ '=' :: r).dropWhile isNameChar = '=' :: r := by
    rw [List.dropWhile_append_of_pos hn]
    rfl
  have ht : (n ++ '=' :: r).takeWhile isNameChar = n := by
    rw [List.takeWhile_append_of_pos hn]
    exact List.append_nil n
  have hl : r.length < (n ++ '=' :: r).length := by
    rw [List.length_append, List.length_cons]
    omega
  have ha : afterName (n ++ '=' :: r) = ⟨'=' :: r, hl⟩ := Subtype.ext hd
  refine ⟨hl, ?_⟩
  unfold name?
  rw [ha, ht]
  exact if_neg (by rw [List.isEmpty_iff]; exact h.ne_nil)

theorem exists_of_name {name : String} (h : Gives (name? s) name r) :
    ∃ n, s = n ++ '=' :: r ∧ IsName n ∧ name = String.ofList n := by
  have hs := List.takeWhile_append_dropWhile (p := isNameChar) (l := s)
  unfold name? afterName at h
  split at h
  · next r' h' hd =>
    have hd : s.dropWhile isNameChar = '=' :: r' := congrArg Subtype.val hd
    split at h
    · exact absurd h not_gives_none
    · next hn =>
      obtain ⟨rfl, rfl⟩ := gives_some.unique h
      rw [hd] at hs
      refine ⟨_, hs.symm, ⟨by simpa using hn, fun c hc => ?_⟩, rfl⟩
      exact isNameChar_iff.1 (List.mem_takeWhile_imp hc)
  · exact absurd h not_gives_none

/-! ## First characters -/

theorem Value.Spells.head (h : Value.Spells t v) :
    ∃ c t', t = c :: t' ∧ (c = '"' ∨ c = '{' ∨ c = '[') := by
  cases h <;> exact ⟨_, _, rfl, by simp⟩

theorem Result.Spells.head (h : Result.Spells t x) : ∃ c t', t = c :: t' ∧ c ∉ marks := by
  obtain @⟨n, t, v, hn, hv⟩ := h
  cases n with
  | nil => exact absurd rfl hn.ne_nil
  | cons c n => exact ⟨c, _, rfl, hn.not_mem c List.mem_cons_self⟩

theorem Results.Spells.head (h : Results.Spells t xs) : ∃ c t', t = c :: t' ∧ c ∉ marks := by
  cases h with
  | one hx => exact hx.head
  | more hx _ =>
    obtain ⟨c, t, rfl, hc⟩ := hx.head
    exact ⟨c, _, rfl, hc⟩

theorem ne_of_not_mem_marks (h : c ∉ marks) : c ≠ ',' ∧ c ≠ '}' ∧ c ≠ ']' := by
  refine ⟨?_, ?_, ?_⟩ <;> (rintro rfl; exact h (by decide))

theorem Item.Spells.head (h : Item.Spells t v) :
    ∃ c t', t = c :: t' ∧ c ≠ ',' ∧ c ≠ '}' ∧ c ≠ ']' := by
  cases h with
  | value hv =>
    obtain ⟨c, t, rfl, hc⟩ := hv.head
    refine ⟨c, t, rfl, ?_⟩
    rcases hc with rfl | rfl | rfl <;> decide
  | result hx =>
    obtain ⟨c, t, rfl, hc⟩ := hx.head
    exact ⟨c, t, rfl, ne_of_not_mem_marks hc⟩

theorem Items.Spells.head (h : Items.Spells t vs) :
    ∃ c t', t = c :: t' ∧ c ≠ ',' ∧ c ≠ '}' ∧ c ≠ ']' := by
  cases h with
  | one hv => exact hv.head
  | more hv _ =>
    obtain ⟨c, t, rfl, hc⟩ := hv.head
    exact ⟨c, _, rfl, hc⟩

theorem Value.Spells.ne_nil (h : Value.Spells t v) : t ≠ [] := by
  obtain ⟨c, t, rfl, -⟩ := h.head
  exact List.cons_ne_nil _ _

theorem Results.Spells.ne_nil (h : Results.Spells t xs) : t ≠ [] := by
  obtain ⟨c, t, rfl, -⟩ := h.head
  exact List.cons_ne_nil _ _

theorem Results.Spells.results_ne_nil (h : Results.Spells t xs) : xs ≠ [] := by
  cases h <;> exact List.cons_ne_nil _ _

/-! ## Last characters -/

/-- A value ends in a quote or bracket. -/
theorem Value.Spells.last (h : Value.Spells t v) :
    ∃ s c, t = s ++ [c] ∧ (c = '"' ∨ c = '}' ∨ c = ']') := by
  cases h with
  | text _ => exact ⟨'"' :: _, '"', rfl, .inl rfl⟩
  | emptyTuple => exact ⟨['{'], '}', rfl, .inr (.inl rfl)⟩
  | tuple _ => exact ⟨'{' :: _, '}', rfl, .inr (.inl rfl)⟩
  | emptyList => exact ⟨['['], ']', rfl, .inr (.inr rfl)⟩
  | list _ => exact ⟨'[' :: _, ']', rfl, .inr (.inr rfl)⟩

/-- Results end as their last value does. -/
theorem Results.Spells.last (h : Results.Spells t xs) :
    ∃ s c, t = s ++ [c] ∧ (c = '"' ∨ c = '}' ∨ c = ']') := by
  have one : ∀ {t x}, Result.Spells t x → ∃ s c, t = s ++ [c] ∧ (c = '"' ∨ c = '}' ∨ c = ']') := by
    rintro _ _ @⟨n, t, v, -, hv⟩
    obtain ⟨s, c, rfl, hc⟩ := hv.last
    exact ⟨n ++ '=' :: s, c, by simp, hc⟩
  induction xs generalizing t with
  | nil => exact absurd rfl h.results_ne_nil
  | cons x xs ih =>
    cases h with
    | one hx => exact one hx
    | @more t _ _ _ _ hs =>
      obtain ⟨s, c, rfl, hc⟩ := ih hs
      exact ⟨t ++ ',' :: s, c, by simp, hc⟩

/-! ## Rows -/

section Rows

variable {α : Type} {one : (s : List Char) → Option (α × Rest s)}
  {row : (s : List Char) → Option (List α × Rest s)} {a : α} {as : List α}

/-- One step of a reader of a row: what `one` reads, and the rest of the row behind a comma. -/
def rowStep (one : (s : List Char) → Option (α × Rest s))
    (row : (s : List Char) → Option (List α × Rest s)) (s : List Char) :
    Option (List α × Rest s) :=
  match one s with
  | none => none
  | some (a, rest) =>
    match rest.behind? ',' with
    | some behind =>
      match row behind.val with
      | none => none
      | some (more, rest) => some (a :: more, rest.within (Nat.le_of_lt behind.property))
    | none => some ([a], rest)

/-- The last of a row: no comma follows. -/
theorem gives_last (hr : r.head? ≠ some ',') (h : Gives (one s) a r) :
    Gives (rowStep one row s) [a] r := by
  obtain ⟨_, h⟩ := h
  rw [rowStep, h]
  dsimp only
  rw [behind?_eq_none.2 hr]
  exact gives_some

/-- One in front of others. -/
theorem gives_more (h : Gives (one s) a (',' :: t)) (hs : Gives (row t) as r) :
    Gives (rowStep one row s) (a :: as) r := by
  obtain ⟨_, h⟩ := h
  obtain ⟨_, hs⟩ := hs
  rw [rowStep, h]
  dsimp only
  rw [behind?_self]
  dsimp only
  rw [hs]
  exact gives_some

theorem row_cases (h : Gives (rowStep one row s) as r) :
    (∃ a, Gives (one s) a r ∧ r.head? ≠ some ',' ∧ as = [a]) ∨
      ∃ a t bs, Gives (one s) a (',' :: t) ∧ Gives (row t) bs r ∧ as = a :: bs := by
  unfold rowStep at h
  split at h
  · exact absurd h not_gives_none
  · next a rest ha =>
    split at h
    · next behind hb =>
      split at h
      · exact absurd h not_gives_none
      · next bs rest' hs =>
        obtain ⟨rfl, rfl⟩ := gives_some.unique h
        refine .inr ⟨a, behind.val, bs, ?_, gives_of_eq hs, rfl⟩
        rw [← behind?_eq_some.1 hb]
        exact gives_of_eq ha
    · next hb =>
      obtain ⟨rfl, rfl⟩ := gives_some.unique h
      exact .inl ⟨a, gives_of_eq ha, behind?_eq_none.1 hb, rfl⟩

end Rows

theorem readSome?_eq (s : List Char) :
    Results.readSome? s = rowStep Results.readOne? Results.readSome? s := by
  rw [Results.readSome?, rowStep]
  rcases Results.readOne? s with _ | ⟨x, rest⟩
  · rfl
  dsimp only
  rcases rest.behind? ',' with _ | ⟨r, shorter⟩
  · rfl
  dsimp only
  cases Results.readSome? r <;> rfl

theorem readItems?_eq (s : List Char) :
    Value.readItems? s = rowStep Value.readItem? Value.readItems? s := by
  rw [Value.readItems?, rowStep]
  rcases Value.readItem? s with _ | ⟨v, rest⟩
  · rfl
  dsimp only
  rcases rest.behind? ',' with _ | ⟨r, shorter⟩
  · rfl
  dsimp only
  cases Value.readItems? r <;> rfl

/-! ## What derives is read -/

theorem gives_emptyTuple (r : List Char) :
    Gives (Value.read? ('{' :: '}' :: r)) (.tuple []) r := by
  rw [Value.read?, if_neg (by decide), if_pos rfl, Rest.tail, behind?_self]
  exact gives_some

theorem gives_tuple (hx : Results.Spells t xs)
    (h : Gives (Results.readSome? (t ++ '}' :: r)) xs ('}' :: r)) :
    Gives (Value.read? ('{' :: (t ++ '}' :: r))) (.tuple xs) r := by
  obtain ⟨c, t, rfl, hc⟩ := hx.head
  -- The tuple is not taken for the empty one.
  have hn : c ≠ '}' := by
    rintro rfl
    exact hc (by decide)
  rw [List.cons_append] at h ⊢
  obtain ⟨_, h⟩ := h
  rw [Value.read?, if_neg (by decide), if_pos rfl, Rest.tail, behind?_of_ne hn, h]
  dsimp only
  rw [behind?_self]
  exact gives_some

theorem gives_emptyList (r : List Char) :
    Gives (Value.read? ('[' :: ']' :: r)) (.list []) r := by
  rw [Value.read?, if_neg (by decide), if_neg (by decide), if_pos rfl, Rest.tail, behind?_self]
  exact gives_some

theorem gives_list (hv : Items.Spells t vs)
    (h : Gives (Value.readItems? (t ++ ']' :: r)) vs (']' :: r)) :
    Gives (Value.read? ('[' :: (t ++ ']' :: r))) (.list vs) r := by
  obtain ⟨c, t, rfl, hc⟩ := hv.head
  rw [List.cons_append] at h ⊢
  obtain ⟨_, h⟩ := h
  rw [Value.read?, if_neg (by decide), if_neg (by decide), if_pos rfl, Rest.tail,
    behind?_of_ne hc.2.2, h]
  dsimp only
  rw [behind?_self]
  exact gives_some

theorem gives_one (hn : IsName n) (h : Gives (Value.read? s) v r) :
    Gives (Results.readOne? (n ++ '=' :: s)) (String.ofList n, v) r := by
  obtain ⟨_, hn⟩ := gives_name hn s
  obtain ⟨_, h⟩ := h
  rw [Results.readOne?, hn]
  dsimp only
  rw [h]
  exact gives_some

theorem gives_item_value (hv : Value.Spells t v) (h : Gives (Value.read? (t ++ r)) v r) :
    Gives (Value.readItem? (t ++ r)) v r := by
  obtain ⟨c, t, rfl, hc⟩ := hv.head
  rw [List.cons_append] at h ⊢
  rw [Value.readItem?, if_pos (by simpa [or_assoc] using hc)]
  exact h

theorem gives_item_result (hx : Result.Spells t x)
    (h : Gives (Results.readOne? (t ++ r)) x r) :
    Gives (Value.readItem? (t ++ r)) (.tuple [x]) r := by
  obtain ⟨c, t, rfl, hc⟩ := hx.head
  -- The first character of a name tells a result from a value.
  have hn : ¬(c = '"' || c = '{' || c = '[') = true := by
    intro h
    simp only [Bool.or_eq_true, decide_eq_true_eq] at h
    rcases h with (rfl | rfl) | rfl <;> exact hc (by decide)
  rw [List.cons_append] at h ⊢
  obtain ⟨_, h⟩ := h
  rw [Value.readItem?, if_neg hn, h]
  exact gives_some

mutual

/-- A text that derives a value is read as it, whatever follows. -/
theorem Value.Spells.gives {t : List Char} {v : Value} (r : List Char) :
    Value.Spells t v → Gives (Value.read? (t ++ r)) v r
  | .text h => by
    obtain ⟨_, hl⟩ := Literal.gives_read h r
    rw [List.cons_append, List.append_assoc, List.singleton_append, Value.read?, if_pos rfl, hl]
    exact gives_some
  | .emptyTuple => gives_emptyTuple r
  | .tuple h => by
    rw [List.cons_append, List.append_assoc, List.singleton_append]
    exact gives_tuple h (h.gives _ (by simp))
  | .emptyList => gives_emptyList r
  | .list h => by
    rw [List.cons_append, List.append_assoc, List.singleton_append]
    exact gives_list h (h.gives _ (by simp))

theorem Result.Spells.gives {t : List Char} {x : String × Value} (r : List Char) :
    Result.Spells t x → Gives (Results.readOne? (t ++ r)) x r
  | .mk hn h => by
    rw [List.append_assoc, List.cons_append]
    exact gives_one hn (h.gives r)

/-- A text that derives results is read as them, unless a comma follows. -/
theorem Results.Spells.gives {t : List Char} {xs : List (String × Value)} (r : List Char)
    (hr : r.head? ≠ some ',') : Results.Spells t xs → Gives (Results.readSome? (t ++ r)) xs r
  | .one h => by
    rw [readSome?_eq]
    exact gives_last hr (h.gives r)
  | .more h hs => by
    rw [readSome?_eq, List.append_assoc, List.cons_append]
    exact gives_more (h.gives _) (hs.gives r hr)

theorem Item.Spells.gives {t : List Char} {v : Value} (r : List Char) :
    Item.Spells t v → Gives (Value.readItem? (t ++ r)) v r
  | .value h => gives_item_value h (h.gives r)
  | .result h => gives_item_result h (h.gives r)

theorem Items.Spells.gives {t : List Char} {vs : List Value} (r : List Char)
    (hr : r.head? ≠ some ',') : Items.Spells t vs → Gives (Value.readItems? (t ++ r)) vs r
  | .one h => by
    rw [readItems?_eq]
    exact gives_last hr (h.gives r)
  | .more h hs => by
    rw [readItems?_eq, List.append_assoc, List.cons_append]
    exact gives_more (h.gives _) (hs.gives r hr)

end

/-! ## What is read derives -/

theorem value_cases (h : Gives (Value.read? s) v r) :
    (∃ text, Gives (Literal.read? s) text r ∧ v = .text text) ∨
      (s = '{' :: '}' :: r ∧ v = .tuple []) ∨
      (∃ t xs, s = '{' :: t ∧ Gives (Results.readSome? t) xs ('}' :: r) ∧ v = .tuple xs) ∨
      (s = '[' :: ']' :: r ∧ v = .list []) ∨
      ∃ t vs, s = '[' :: t ∧ Gives (Value.readItems? t) vs (']' :: r) ∧ v = .list vs := by
  cases s with
  | nil =>
    rw [Value.read?] at h
    exact absurd h not_gives_none
  | cons c s =>
    rw [Value.read?] at h
    split at h
    · obtain ⟨⟨text, rest⟩, hl, rfl, rfl⟩ := exists_of_map h
      exact .inl ⟨text, gives_of_eq hl, rfl⟩
    split at h
    · next hc =>
      subst hc
      split at h
      · next rest hb =>
        obtain ⟨rfl, rfl⟩ := gives_some.unique h
        exact .inr (.inl ⟨congrArg _ (behind?_eq_some.1 hb), rfl⟩)
      · split at h
        · exact absurd h not_gives_none
        · next xs rest hx =>
          obtain ⟨behind, hb, rfl, rfl⟩ := exists_of_map h
          refine .inr (.inr (.inl ⟨s, xs, rfl, ?_, rfl⟩))
          rw [val_within, ← behind?_eq_some.1 hb]
          exact gives_of_eq hx
    split at h
    · next hc =>
      subst hc
      split at h
      · next rest hb =>
        obtain ⟨rfl, rfl⟩ := gives_some.unique h
        exact .inr (.inr (.inr (.inl ⟨congrArg _ (behind?_eq_some.1 hb), rfl⟩)))
      · split at h
        · exact absurd h not_gives_none
        · next vs rest hv =>
          obtain ⟨behind, hb, rfl, rfl⟩ := exists_of_map h
          refine .inr (.inr (.inr (.inr ⟨s, vs, rfl, ?_, rfl⟩)))
          rw [val_within, ← behind?_eq_some.1 hb]
          exact gives_of_eq hv
    · exact absurd h not_gives_none

theorem one_cases (h : Gives (Results.readOne? s) x r) : ∃ n t v, s = n ++ '=' :: t ∧ IsName n ∧
    Gives (Value.read? t) v r ∧ x = (String.ofList n, v) := by
  rw [Results.readOne?] at h
  split at h
  · exact absurd h not_gives_none
  · next name t shorter hn =>
    obtain ⟨n, hs, hn', rfl⟩ := exists_of_name (gives_of_eq hn)
    split at h
    · exact absurd h not_gives_none
    · next v rest hv =>
      obtain ⟨rfl, rfl⟩ := gives_some.unique h
      exact ⟨n, t, v, hs, hn', gives_of_eq hv, rfl⟩

theorem item_cases (h : Gives (Value.readItem? s) v r) :
    Gives (Value.read? s) v r ∨ ∃ x, Gives (Results.readOne? s) x r ∧ v = .tuple [x] := by
  cases s with
  | nil =>
    rw [Value.readItem?] at h
    exact absurd h not_gives_none
  | cons c s =>
    rw [Value.readItem?] at h
    split at h
    · exact .inl h
    split at h
    · exact absurd h not_gives_none
    · next x rest hx =>
      obtain ⟨rfl, rfl⟩ := gives_some.unique h
      exact .inr ⟨x, gives_of_eq hx, rfl⟩

-- A value is read from a shorter text than the one it stands in. At one and the same text, a
-- reader calls those below it only: items, an item or results, a result, a value.
mutual

/-- What is read as a value derives it. -/
theorem exists_of_value {s r : List Char} {v : Value} (h : Gives (Value.read? s) v r) :
    ∃ t, s = t ++ r ∧ Value.Spells t v := by
  rcases value_cases h with ⟨text, hl, rfl⟩ | ⟨rfl, rfl⟩ | ⟨t, xs, hs, hx, rfl⟩ | ⟨rfl, rfl⟩ |
    ⟨t, vs, hs, hv, rfl⟩
  · obtain ⟨t, bytes, rfl, ht, rfl⟩ := Literal.exists_of_read hl
    exact ⟨_, by simp, .text ht⟩
  · exact ⟨_, rfl, .emptyTuple⟩
  · obtain ⟨u, ht, hu, -⟩ := exists_of_results hx
    exact ⟨_, by rw [hs, ht]; simp, .tuple hu⟩
  · exact ⟨_, rfl, .emptyList⟩
  · obtain ⟨u, ht, hu, -⟩ := exists_of_items hv
    exact ⟨_, by rw [hs, ht]; simp, .list hu⟩
  termination_by (s.length, 0)
  decreasing_by all_goals exact .left _ _ (hs ▸ Nat.lt_succ_self _)

theorem exists_of_result {s r : List Char} {x : String × Value}
    (h : Gives (Results.readOne? s) x r) : ∃ t, s = t ++ r ∧ Result.Spells t x := by
  obtain ⟨n, t, v, hs, hn, hv, rfl⟩ := one_cases h
  obtain ⟨u, ht, hu⟩ := exists_of_value hv
  exact ⟨_, by rw [hs, ht]; simp, .mk hn hu⟩
  termination_by (s.length, 1)
  decreasing_by
    refine .left _ _ ?_
    rw [hs, List.length_append, List.length_cons]
    omega

/-- What is read as results derives them, and no comma follows. -/
theorem exists_of_results {s r : List Char} {xs : List (String × Value)}
    (h : Gives (Results.readSome? s) xs r) :
    ∃ t, s = t ++ r ∧ Results.Spells t xs ∧ r.head? ≠ some ',' := by
  rcases row_cases (readSome?_eq s ▸ h) with ⟨x, hx, hr, rfl⟩ | ⟨x, t, ys, hx, hy, rfl⟩
  · obtain ⟨u, hs, hu⟩ := exists_of_result hx
    exact ⟨u, hs, .one hu, hr⟩
  · obtain ⟨u, hs, hu⟩ := exists_of_result hx
    obtain ⟨w, ht, hw, hr⟩ := exists_of_results hy
    exact ⟨_, by rw [hs, ht]; simp, .more hu hw, hr⟩
  termination_by (s.length, 2)
  decreasing_by
    · exact .right _ (by decide)
    · exact .right _ (by decide)
    · exact .left _ _ (Nat.lt_of_succ_lt hx.length_lt)

theorem exists_of_item {s r : List Char} {v : Value} (h : Gives (Value.readItem? s) v r) :
    ∃ t, s = t ++ r ∧ Item.Spells t v := by
  rcases item_cases h with hv | ⟨x, hx, rfl⟩
  · obtain ⟨u, hs, hu⟩ := exists_of_value hv
    exact ⟨u, hs, .value hu⟩
  · obtain ⟨u, hs, hu⟩ := exists_of_result hx
    exact ⟨u, hs, .result hu⟩
  termination_by (s.length, 2)
  decreasing_by all_goals exact .right _ (by decide)

/-- What is read as items derives them, and no comma follows. -/
theorem exists_of_items {s r : List Char} {vs : List Value}
    (h : Gives (Value.readItems? s) vs r) :
    ∃ t, s = t ++ r ∧ Items.Spells t vs ∧ r.head? ≠ some ',' := by
  rcases row_cases (readItems?_eq s ▸ h) with ⟨v, hv, hr, rfl⟩ | ⟨v, t, ws, hv, hw, rfl⟩
  · obtain ⟨u, hs, hu⟩ := exists_of_item hv
    exact ⟨u, hs, .one hu, hr⟩
  · obtain ⟨u, hs, hu⟩ := exists_of_item hv
    obtain ⟨w, ht, hw, hr⟩ := exists_of_items hw
    exact ⟨_, by rw [hs, ht]; simp, .more hu hw, hr⟩
  termination_by (s.length, 3)
  decreasing_by
    · exact .right _ (by decide)
    · exact .right _ (by decide)
    · exact .left _ _ (Nat.lt_of_succ_lt hv.length_lt)

end

/-- A text is read as results exactly if it derives them. -/
theorem read?_results_iff : Results.read? s = some xs ↔ Results.Spells s xs := by
  constructor
  · intro h
    unfold Results.read? at h
    split at h
    · next ys hr hx =>
      obtain rfl := Option.some.inj h
      obtain ⟨t, hs, ht, -⟩ := exists_of_results (gives_of_eq hx)
      rw [hs, List.append_nil]
      exact ht
    · cases h
  · intro h
    have hx := h.gives [] (by simp)
    rw [List.append_nil] at hx
    obtain ⟨_, hx⟩ := hx
    rw [Results.read?, hx]

/-! ## What is written derives -/

/-- However a text is written between its quotes, it is the value. -/
theorem Value.spells_of_written (h : Literal.Written s t) :
    Value.Spells ('"' :: (t ++ ['"'])) (.text (String.ofList s)) := by
  have ht := Value.Spells.text h.units
  rw [Utf8.decodeLossy_encode] at ht
  exact ht

mutual

/-- Every name in a value, at any depth, is a name. -/
def Value.WellNamed : Value → Prop
  | .text _ => True
  | .tuple fields => Results.WellNamed fields
  | .list items => Items.WellNamed items

/-- Every name in results, at any depth, is a name. -/
def Results.WellNamed : List (String × Value) → Prop
  | [] => True
  | (name, v) :: xs => IsName name.toList ∧ v.WellNamed ∧ Results.WellNamed xs

/-- Every name in items, at any depth, is a name. -/
def Items.WellNamed : List Value → Prop
  | [] => True
  | v :: vs => v.WellNamed ∧ Items.WellNamed vs

end

mutual

theorem Value.Spells.wellNamed {t : List Char} {v : Value} : Value.Spells t v → v.WellNamed
  | .text _ => by rw [Value.WellNamed]; trivial
  | .emptyTuple => by rw [Value.WellNamed, Results.WellNamed]; trivial
  | .tuple h => by rw [Value.WellNamed]; exact h.wellNamed
  | .emptyList => by rw [Value.WellNamed, Items.WellNamed]; trivial
  | .list h => by rw [Value.WellNamed]; exact h.wellNamed

theorem Result.Spells.wellNamed {t : List Char} {x : String × Value} :
    Result.Spells t x → IsName x.1.toList ∧ x.2.WellNamed
  | .mk hn h => ⟨by rwa [String.toList_ofList], h.wellNamed⟩

/-- The names in what a text derives are names. -/
theorem Results.Spells.wellNamed {t : List Char} {xs : List (String × Value)} :
    Results.Spells t xs → Results.WellNamed xs
  | .one h => by
    rw [Results.WellNamed, Results.WellNamed, and_true]
    exact h.wellNamed
  | .more h hs => by
    rw [Results.WellNamed, ← and_assoc]
    exact ⟨h.wellNamed, hs.wellNamed⟩

theorem Item.Spells.wellNamed {t : List Char} {v : Value} : Item.Spells t v → v.WellNamed
  | .value h => h.wellNamed
  | .result h => by
    rw [Value.WellNamed, Results.WellNamed, Results.WellNamed, and_true]
    exact h.wellNamed

theorem Items.Spells.wellNamed {t : List Char} {vs : List Value} :
    Items.Spells t vs → Items.WellNamed vs
  | .one h => by
    rw [Items.WellNamed, Items.WellNamed, and_true]
    exact h.wellNamed
  | .more h hs => by
    rw [Items.WellNamed]
    exact ⟨h.wellNamed, hs.wellNamed⟩

end

mutual

/-- What is written for a value derives it. -/
theorem Value.spells_render : (v : Value) → v.WellNamed → Value.Spells v.render v
  | .text s, _ => by
    have h := Value.spells_of_written (Literal.written_escape s.toList)
    rw [String.ofList_toList] at h
    rw [Value.render, Literal.quote, String.toList_ofList]
    exact h
  | .tuple [], _ => by
    rw [Value.render, Results.render]
    exact .emptyTuple
  | .tuple (x :: xs), h => by
    rw [Value.render]
    rw [Value.WellNamed] at h
    exact .tuple (Results.spells_render (x :: xs) (List.cons_ne_nil _ _) h)
  | .list [], _ => by
    rw [Value.render, Value.renderItems]
    exact .emptyList
  | .list (v :: vs), h => by
    rw [Value.render]
    rw [Value.WellNamed] at h
    exact .list (Items.spells_render (v :: vs) (List.cons_ne_nil _ _) h)

/-- What is written for results derives them. -/
theorem Results.spells_render : (xs : List (String × Value)) → xs ≠ [] →
    Results.WellNamed xs → Results.Spells (Results.render xs) xs
  | [], hn, _ => absurd rfl hn
  | [(name, v)], _, h => by
    rw [Results.WellNamed] at h
    rw [Results.render]
    have hx := Result.Spells.mk h.1 (v.spells_render h.2.1)
    rw [String.ofList_toList] at hx
    exact .one hx
  | (name, v) :: y :: ys, _, h => by
    rw [Results.WellNamed] at h
    rw [Results.render]
    · have hx := Result.Spells.mk h.1 (v.spells_render h.2.1)
      rw [String.ofList_toList] at hx
      exact .more hx (Results.spells_render (y :: ys) (List.cons_ne_nil _ _) h.2.2)
    · exact List.cons_ne_nil _ _

theorem Items.spells_render : (vs : List Value) → vs ≠ [] →
    Items.WellNamed vs → Items.Spells (Value.renderItems vs) vs
  | [], hn, _ => absurd rfl hn
  | [v], _, h => by
    rw [Items.WellNamed] at h
    rw [Value.renderItems]
    exact .one (.value (v.spells_render h.1))
  | v :: w :: ws, _, h => by
    rw [Items.WellNamed] at h
    rw [Value.renderItems]
    · exact .more (.value (v.spells_render h.1))
        (Items.spells_render (w :: ws) (List.cons_ne_nil _ _) h.2)
    · exact List.cons_ne_nil _ _

end

end KernelProbe.Mi
