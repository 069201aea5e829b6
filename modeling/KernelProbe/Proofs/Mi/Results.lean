import KernelProbe.Proofs.Mi.Value

/-!
# What is read as results

A text is read as results exactly if it derives them by the grammar (`Results.Spells`). Two
consequences say what such a text cannot be. Nothing is left to wait for at its end (`waits`): no
string for its closing quote, no bracket for its partner, and no comma for what it announces. And
what stands behind results is itself results, behind a comma, or nothing (`spells_append_iff`).
-/

namespace KernelProbe.Mi

open Text Rest

/-! ## What a text waits for -/

/-- What a text may wait for. -/
inductive Wait
  /-- In a string: for the closing quote. -/
  | quote
  /-- Behind a backslash in a string: for any character. -/
  | escaped
  /-- In a tuple or list: for the closing bracket. -/
  | bracket (closing : Char)
  /-- Behind a comma: for what it announces. -/
  | next
  /-- Behind a closing bracket or comma in a wrong place: for nothing that could come. -/
  | never
  deriving DecidableEq, Repr

namespace Wait

/-- What a character outside of strings adds to what a text waits for. -/
def outside (c : Char) (w : List Wait) : List Wait :=
  if c = '"' then quote :: w
  else if c = '{' then bracket '}' :: w
  else if c = '[' then bracket ']' :: w
  else if c = ',' then next :: w
  else if c = '}' ∨ c = ']' then never :: w
  else w

/-- What a text waits for when a character comes, innermost first. -/
def behind : List Wait → Char → List Wait
  | escaped :: w, _ => w
  | quote :: w, c =>
    if c = '"' then w else if c = '\\' then escaped :: quote :: w else quote :: w
  | bracket closing :: w, c => if c = closing then w else outside c (bracket closing :: w)
  | next :: w, c => if c = ',' ∨ c = '}' ∨ c = ']' then never :: w else outside c w
  | w, c => outside c w

/-- A place where a value or result may stand, but is not announced. -/
def IsOutside (w : List Wait) : Prop :=
  ∀ x, w.head? = some x → x = bracket '}' ∨ x = bracket ']' ∨ x = never

end Wait

/-- What a text waits for at its end, innermost first. -/
def waits (s : List Char) : List Wait :=
  s.foldl Wait.behind []

namespace Wait

variable {w : List Wait} {t : List Char} {c : Char}

/-- A character outside of strings that does not close the innermost bracket. -/
theorem behind_of_isOutside (h : IsOutside w) (hb : w.head? ≠ some (bracket c)) :
    behind w c = outside c w := by
  cases w with
  | nil => rfl
  | cons x w =>
    rcases h x rfl with rfl | rfl | rfl
    · exact if_neg fun hc => hb (by rw [hc]; rfl)
    · exact if_neg fun hc => hb (by rw [hc]; rfl)
    · rfl

/-- The start of a value or result goes on with a comma as without one. -/
theorem behind_next (h : IsOutside w) (hc : c ≠ ',' ∧ c ≠ '}' ∧ c ≠ ']') :
    behind (next :: w) c = behind w c := by
  rw [behind_of_isOutside h, behind, if_neg (by simp [hc])]
  intro hb
  rcases h _ hb with hb | hb | hb
  · exact hc.2.1 (bracket.inj hb)
  · exact hc.2.2 (bracket.inj hb)
  · cases hb

theorem isOutside_nil : IsOutside [] := by
  rintro x ⟨⟩

theorem isOutside_bracket (h : c = '}' ∨ c = ']') : IsOutside (bracket c :: w) := by
  rintro x ⟨⟩
  rcases h with rfl | rfl
  · exact .inl rfl
  · exact .inr (.inl rfl)

/-- A name and its equals sign leave nothing to wait for. -/
theorem foldl_name (h : IsOutside w) (ht : ∀ c ∈ t, c = '=' ∨ c ∉ marks) :
    t.foldl behind w = w := by
  induction t with
  | nil => rfl
  | cons c t ih =>
    have hc : outside c w = w ∧ w.head? ≠ some (bracket c) := by
      rcases ht c List.mem_cons_self with rfl | hc
      · refine ⟨rfl, fun hb => ?_⟩
        rcases h _ hb with hb | hb | hb <;> cases hb
      · simp only [marks, List.mem_cons, List.not_mem_nil, or_false, not_or] at hc
        refine ⟨by simp [outside, hc], fun hb => ?_⟩
        rcases h _ hb with hb | hb | hb <;> simp_all
    rw [List.foldl_cons, behind_of_isOutside h hc.2, hc.1]
    exact ih fun d hd => ht d (List.mem_cons_of_mem _ hd)

/-- The inside of a string keeps the string open. -/
theorem foldl_units {bytes : List UInt8} (h : Literal.Units t bytes) :
    t.foldl behind (quote :: w) = quote :: w := by
  -- A character behind a backslash is taken as it comes; any other one is neither a quote nor a
  -- backslash, and so are the octal digits behind the first.
  have plain : ∀ {c : Char}, c ≠ '"' → c ≠ '\\' → behind (quote :: w) c = quote :: w := by
    intro c hq hb
    rw [behind, if_neg hq, if_neg hb]
  have digits : ∀ ds : List Char, (∀ d ∈ ds, d ∈ Literal.octals) →
      ds.foldl behind (quote :: w) = quote :: w := by
    intro ds hd
    induction ds with
    | nil => rfl
    | cons d ds ih =>
      have hd' := hd d List.mem_cons_self
      rw [List.foldl_cons, plain (by rintro rfl; exact absurd hd' (by decide))
        (by rintro rfl; exact absurd hd' (by decide))]
      exact ih fun e he => hd e (List.mem_cons_of_mem _ he)
  induction h with
  | nil => rfl
  | plain hq hb _ ih => rw [List.foldl_cons, plain hq hb, ih]
  | control _ _ ih => exact ih
  | @octal ds t bytes hn _ hd _ _ ih =>
    cases ds with
    | nil => exact absurd rfl hn
    | cons d ds =>
      rw [List.cons_append, List.foldl_cons, List.foldl_cons, List.foldl_append]
      change t.foldl behind (ds.foldl behind (quote :: w)) = _
      rw [digits ds fun e he => hd e (List.mem_cons_of_mem _ he), ih]
  | other _ _ _ ih => exact ih

/-- What closes leaves what was waited for before it opened. -/
theorem foldl_concat {u : List Char} {x : Wait} (hu : u.foldl behind (x :: w) = x :: w)
    (hc : behind (x :: w) c = w) : (u ++ [c]).foldl behind (x :: w) = w := by
  rw [List.foldl_append, hu, List.foldl_cons, List.foldl_nil, hc]

/-- A comma between two parts is waited for by the second. -/
theorem foldl_comma {u : List Char} (hw : IsOutside w) (ht : t.foldl behind w = w)
    (hu : u.foldl behind (next :: w) = w) : (t ++ ',' :: u).foldl behind w = w := by
  have hb : w.head? ≠ some (bracket ',') := by
    intro hb
    rcases hw _ hb with hb | hb | hb <;> cases hb
  rw [List.foldl_append, ht, List.foldl_cons, behind_of_isOutside hw hb]
  exact hu

/-- Where a part starts with none of the characters behind which a comma waits forever, it may
    stand behind a comma. -/
theorem foldl_next (hw : IsOutside w) (hc : ∃ c t', t = c :: t' ∧ c ≠ ',' ∧ c ≠ '}' ∧ c ≠ ']')
    (ht : t.foldl behind w = w) : t.foldl behind (next :: w) = w := by
  obtain ⟨c, t, rfl, hc⟩ := hc
  rw [List.foldl_cons, behind_next hw hc]
  exact ht

/-- What opens a value outside of strings. -/
theorem behind_opening (hw : IsOutside w) (hc : c = '"' ∨ c = '{' ∨ c = '[') :
    behind w c = outside c w := by
  refine behind_of_isOutside hw fun hb => ?_
  rcases hw _ hb with hb | hb | hb <;> rcases hc with rfl | rfl | rfl <;> cases hb

end Wait

open Wait

mutual

/-- A value leaves nothing to wait for but what was waited for before. -/
theorem Value.Spells.foldl_behind {t : List Char} {v : Value} {w : List Wait}
    (hw : IsOutside w) : Value.Spells t v → t.foldl behind w = w
  | .text h => by
    rw [List.foldl_cons, behind_opening hw (by simp)]
    exact foldl_concat (foldl_units h) rfl
  | .emptyTuple => by
    rw [List.foldl_cons, behind_opening hw (by simp)]
    rfl
  | .tuple h => by
    rw [List.foldl_cons, behind_opening hw (by simp)]
    exact foldl_concat (h.foldl_behind (isOutside_bracket (.inl rfl))) rfl
  | .emptyList => by
    rw [List.foldl_cons, behind_opening hw (by simp)]
    rfl
  | .list h => by
    rw [List.foldl_cons, behind_opening hw (by simp)]
    exact foldl_concat (h.foldl_behind (isOutside_bracket (.inr rfl))) rfl

theorem Result.Spells.foldl_behind {t : List Char} {x : String × Value} {w : List Wait}
    (hw : IsOutside w) : Result.Spells t x → t.foldl behind w = w
  | @Result.Spells.mk n t v hn h => by
    have hname : (n ++ ['=']).foldl behind w = w := by
      refine foldl_name hw fun c hc => ?_
      rcases List.mem_append.1 hc with hc | hc
      · exact .inr (hn.not_mem c hc)
      · exact .inl (List.mem_singleton.1 hc)
    rw [List.append_cons, List.foldl_append, hname]
    exact h.foldl_behind hw

theorem Results.Spells.foldl_behind {t : List Char} {xs : List (String × Value)}
    {w : List Wait} (hw : IsOutside w) : Results.Spells t xs → t.foldl behind w = w
  | .one h => h.foldl_behind hw
  | .more h hs => by
    obtain ⟨c, t', ht, hc⟩ := hs.head
    exact foldl_comma hw (h.foldl_behind hw)
      (foldl_next hw ⟨c, t', ht, ne_of_not_mem_marks hc⟩ (hs.foldl_behind hw))

theorem Item.Spells.foldl_behind {t : List Char} {v : Value} {w : List Wait}
    (hw : IsOutside w) : Item.Spells t v → t.foldl behind w = w
  | .value h => h.foldl_behind hw
  | .result h => h.foldl_behind hw

theorem Items.Spells.foldl_behind {t : List Char} {vs : List Value} {w : List Wait}
    (hw : IsOutside w) : Items.Spells t vs → t.foldl behind w = w
  | .one h => h.foldl_behind hw
  | .more h hs => foldl_comma hw (h.foldl_behind hw) (foldl_next hw hs.head (hs.foldl_behind hw))

end

/-! ## What stands behind results -/

variable {s t r : List Char} {x : String × Value} {xs ys : List (String × Value)}

theorem Results.Spells.append (h : Results.Spells s xs) (h' : Results.Spells t ys) :
    Results.Spells (s ++ ',' :: t) (xs ++ ys) := by
  induction xs generalizing s with
  | nil => exact absurd rfl h.results_ne_nil
  | cons x xs ih =>
    cases h with
    | one hx => exact .more hx h'
    | more hx hs =>
      rw [List.append_assoc, List.cons_append]
      exact .more hx (ih hs)

/-- The first of a row of results ends at its comma, so the others are behind it. -/
theorem spells_of_cons (hx : Result.Spells s x) (h : Results.Spells (s ++ ',' :: t) ys) :
    ∃ zs, ys = x :: zs ∧ Results.Spells t zs := by
  have hy := h.gives [] (by simp)
  rw [List.append_nil] at hy
  rcases row_cases (readSome?_eq _ ▸ hy) with ⟨y, hr, -, rfl⟩ | ⟨y, u, zs, hr, hz, rfl⟩
  · obtain ⟨-, hu⟩ := hr.unique (hx.gives (',' :: t))
    cases hu
  · obtain ⟨rfl, hu⟩ := hr.unique (hx.gives (',' :: t))
    cases hu
    refine ⟨zs, rfl, ?_⟩
    obtain ⟨u, ht, hu, -⟩ := exists_of_results hz
    rw [ht, List.append_nil]
    exact hu

theorem Results.Spells.of_append (h : Results.Spells s xs)
    (h' : Results.Spells (s ++ ',' :: t) ys) :
    ∃ zs, ys = xs ++ zs ∧ Results.Spells t zs := by
  induction xs generalizing s ys with
  | nil => exact absurd rfl h.results_ne_nil
  | cons x xs ih =>
    cases h with
    | one hx => exact spells_of_cons hx h'
    | more hx hs =>
      rw [List.append_assoc, List.cons_append] at h'
      obtain ⟨ys, rfl, hy⟩ := spells_of_cons hx h'
      obtain ⟨zs, rfl, hz⟩ := ih hs hy
      exact ⟨zs, rfl, hz⟩

/-- Behind results stands nothing, or a comma and results. -/
theorem spells_append_iff (h : Results.Spells s xs) : Results.Spells (s ++ t) ys ↔
    (t = [] ∧ ys = xs) ∨ ∃ u zs, t = ',' :: u ∧ Results.Spells u zs ∧ ys = xs ++ zs := by
  constructor
  · intro hy
    by_cases ht : t.head? = some ','
    · cases t with
      | nil => cases ht
      | cons c u =>
        obtain rfl := Option.some.inj ht
        obtain ⟨zs, rfl, hz⟩ := h.of_append hy
        exact .inr ⟨u, zs, rfl, hz, rfl⟩
    · -- The results end where no comma follows, and nothing is left behind them.
      have hg := hy.gives [] (by simp)
      rw [List.append_nil] at hg
      obtain ⟨hyx, htn⟩ := hg.unique (h.gives t ht)
      exact .inl ⟨htn.symm, hyx⟩
  · rintro (⟨rfl, rfl⟩ | ⟨u, zs, rfl, hz, rfl⟩)
    · rw [List.append_nil]
      exact h
    · exact h.append hz

/-- A text is read as results exactly if it derives them. Nothing that a text waits for at its
    end is missing from one that is read, no comma ends it, and it is continued only by a comma
    and further results. -/
theorem results_read_exactly (s : List Char) :
    (∀ xs, Results.read? s = some xs ↔ Results.Spells s xs) ∧
    (waits s ≠ [] → Results.read? s = none) ∧
    Results.read? (s ++ [',']) = none ∧
    ∀ xs, Results.read? s = some xs → ∀ t ys, Results.read? (s ++ t) = some ys ↔
      (t = [] ∧ ys = xs) ∨ ∃ u zs, t = ',' :: u ∧ Results.read? u = some zs ∧ ys = xs ++ zs := by
  refine ⟨fun xs => read?_results_iff, fun hw => ?_, ?_, fun xs h t ys => ?_⟩
  · rw [Option.eq_none_iff_forall_ne_some]
    intro xs h
    exact hw ((read?_results_iff.1 h).foldl_behind isOutside_nil)
  · rw [Option.eq_none_iff_forall_ne_some]
    intro xs h
    obtain ⟨t, c, ht, hc⟩ := (read?_results_iff.1 h).last
    obtain ⟨-, ⟨⟩⟩ := List.append_inj' ht rfl
    rcases hc with hc | hc | hc <;> cases hc
  · simp only [read?_results_iff] at h ⊢
    exact spells_append_iff h

end KernelProbe.Mi
