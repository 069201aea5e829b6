import Mathlib.Data.List.Forall2
import KernelProbe.Embedding
import KernelProbe.Proofs.Automation.AddressText
import KernelProbe.Proofs.Text.Blank
import KernelProbe.Proofs.Text.Numerals
import KernelProbe.Proofs.Text.Pieces

/-!
# What embedded files declare

The texts for an embedded file are read back: a text falls into declarations at its semicolons, a
declaration into words and the text behind its equals sign (`declaration`), and the items of an
initializer stand between braces, with commas between them (`items?`).

Nothing that comes from a path or from the bytes disturbs the reader: names are made of letters,
digits and underscores (`isPlain_symbolBase`), and items of digits behind `0x`. So the source and
the header declare the same array and the same constant, and the items of the array are the bytes
(`embedded_read_back`).
-/

namespace KernelProbe.Embedding

open Text

/-! ## Reading declarations -/

/-- What a text declares. -/
structure Declaration where
  /-- The words for the linkage and the type. -/
  specifiers : List String
  name : String
  /-- Whether there are brackets behind the name. -/
  isArray : Bool
  /-- The text behind the equals sign. -/
  initializer : Option String
  deriving DecidableEq, Repr

/-- Whether a word is an attribute, which says nothing about the type. -/
def isAttribute (w : List Char) : Bool :=
  (afterStart? "__attribute__((".toList w).isSome

/-- The declaration with the given words in front of the equals sign: the last one, without the
    attributes, has the name. -/
def Declaration.ofWords (ws : List (List Char)) (initializer : Option String) : Declaration :=
  let ws := ws.filter (!isAttribute ·)
  let declarator := ws.getLastD []
  let name := (splitAt? '[' declarator).map Prod.fst
  ⟨ws.dropLast.map String.ofList, String.ofList (name.getD declarator), name.isSome, initializer⟩

/-- Reads a declaration without the semicolon behind it. -/
def declaration (s : List Char) : Declaration :=
  match splitAt? '=' s with
  | none => .ofWords (words s) none
  | some (head, value) => .ofWords (words head) (some (String.ofList (trim value)))

/-- Reads the declarations in a text, up to their semicolons. -/
def declarations (text : String) : List Declaration :=
  ((pieces [';'] text.toList).filter fun s => words s ≠ []).map declaration

/-- The items between the first opening brace and the first closing one behind it. -/
def items? (initializer : String) : Option (List (List Char)) := do
  let (_, behind) ← splitAt? '\x7b' initializer.toList
  let (inside, _) ← splitAt? '\x7d' behind
  return if inside = [] then [] else pieces [','] inside

/-- A number in hexadecimal digits behind their mark. -/
def IsHexLiteral (s : List Char) (n : Nat) : Prop :=
  ∃ mark ∈ Automation.hexMarks, ∃ ds, s = mark ++ ds ∧ Numeral 16 ds n

variable {base name type : String} {bytes : List UInt8} {c : Char} {s t : List Char}

/-! ## Names -/

/-- A text of letters, digits and underscores. -/
def IsPlain (s : List Char) : Prop :=
  ∀ c ∈ s, isWordChar c ∨ c = '_'

theorem isPlain_symbolBase (path : String) : IsPlain (symbolBase path).toList := by
  intro c hc
  rw [symbolBase, String.toList_ofList, List.mem_map] at hc
  obtain ⟨d, -, rfl⟩ := hc
  split
  · next hd => exact .inl hd
  · exact .inr rfl

theorem bounds_of_isWordChar (h : isWordChar c) : 48 ≤ c.toNat ∧ c.toNat ≤ 122 := by
  simp only [isWordChar, isDecimalDigit, Bool.or_eq_true, Bool.and_eq_true, decide_eq_true_eq] at h
  rcases h with (⟨h₁, h₂⟩ | ⟨h₁, h₂⟩) | ⟨h₁, h₂⟩
  · exact ⟨h₁, Nat.le_trans h₂ (by decide)⟩
  · exact ⟨Nat.le_trans (by decide) h₁, h₂⟩
  · exact ⟨Nat.le_trans (by decide) h₁, Nat.le_trans h₂ (by decide)⟩

namespace IsPlain

theorem append (hs : IsPlain s) (ht : IsPlain t) : IsPlain (s ++ t) :=
  List.forall_mem_append.2 ⟨hs, ht⟩

theorem not_mem (h : IsPlain s) (hw : isWordChar c = false) (hc : c ≠ '_') : c ∉ s := by
  intro hm
  rcases h c hm with hword | rfl
  · rw [hw] at hword
    cases hword
  · exact hc rfl

theorem isBlank_eq_false (h : IsPlain s) : ∀ c ∈ s, isBlank c = false := by
  intro c hm
  rcases h c hm with hword | rfl
  · have hc := bounds_of_isWordChar hword
    rw [Bool.eq_false_iff]
    intro hb
    simp only [isBlank, Bool.or_eq_true, Bool.and_eq_true, decide_eq_true_eq, beq_iff_eq] at hb
    omega
  · rfl

end IsPlain

/-- A plain text that is not empty. -/
structure IsName (s : List Char) : Prop where
  isPlain : IsPlain s
  ne_nil : s ≠ []

theorem isName_append {suffix : String} (h : IsPlain base.toList)
    (hs : IsPlain suffix.toList) (hne : suffix.toList ≠ []) :
    IsName (base ++ suffix).toList := by
  rw [String.toList_append]
  exact ⟨h.append hs, List.append_ne_nil_of_right_ne_nil _ hne⟩

theorem isName_dataName (h : IsPlain base.toList) : IsName (dataName base).toList :=
  isName_append h (by simp [IsPlain, isWordChar, isDecimalDigit]) (by simp)

theorem isName_sizeName (h : IsPlain base.toList) : IsName (sizeName base).toList :=
  isName_append h (by simp [IsPlain, isWordChar, isDecimalDigit]) (by simp)

/-! ## Tokens -/

/-- Whether a character does not divide a text into declarations, words and initializers. -/
def isTokenChar (c : Char) : Bool :=
  !isBlank c && c != ';' && c != '='

/-- A word that stands in a declaration as it is. -/
structure IsToken (w : List Char) : Prop where
  ne_nil : w ≠ []
  all : w.all isTokenChar

theorem IsToken.isWord (h : IsToken s) : IsWord s := by
  refine ⟨h.ne_nil, fun c hc => ?_⟩
  have hc := List.all_eq_true.1 h.all c hc
  simp only [isTokenChar, Bool.and_eq_true, Bool.not_eq_true'] at hc
  exact hc.1.1

theorem IsToken.not_mem (h : IsToken s) (hc : isTokenChar c = false) : c ∉ s := by
  intro hm
  have ht := List.all_eq_true.1 h.all c hm
  rw [hc] at ht
  cases ht

/-- The specifiers of an unsigned constant. -/
def constant (type : String) : List String := ["extern", "\"C\"", "const", "unsigned", type]

/-- The specifiers as words. -/
def constantWords (type : String) : List (List Char) := (constant type).map String.toList

/-- The attribute of a definition. -/
def used : String := "__attribute__((used))"

/-- The name in a declaration, with brackets behind it if it is one of an array. -/
def declarator (name : String) (isArray : Bool) : List Char :=
  name.toList ++ if isArray then ['[', ']'] else []

theorem isToken_constantWords (ht : type = "char" ∨ type = "int") :
    ∀ w ∈ constantWords type, IsToken w ∧ isAttribute w = false := by
  have hall : ∀ w ∈ constantWords "char" ++ constantWords "int",
      w ≠ [] ∧ w.all isTokenChar ∧ isAttribute w = false := by decide
  intro w hw
  have hm : w ∈ constantWords "char" ++ constantWords "int" := by
    rcases ht with rfl | rfl
    · exact List.mem_append_left _ hw
    · exact List.mem_append_right _ hw
  obtain ⟨hne, htoken, ha⟩ := hall w hm
  exact ⟨⟨hne, htoken⟩, ha⟩

theorem isToken_used : IsToken used.toList :=
  ⟨by decide, by decide⟩

section

variable (h : IsName name.toList) (isArray : Bool)
include h

theorem isToken_declarator : IsToken (declarator name isArray) := by
  refine ⟨List.append_ne_nil_of_left_ne_nil h.ne_nil _, List.all_eq_true.2 ?_⟩
  refine List.forall_mem_append.2 ⟨fun c hc => ?_, ?_⟩
  · have hne {d : Char} (hw : isWordChar d = false) (hd : d ≠ '_') : c ≠ d := fun he =>
      h.isPlain.not_mem hw hd (he ▸ hc)
    simp [isTokenChar, h.isPlain.isBlank_eq_false c hc, hne (d := ';') rfl (by decide),
      hne (d := '=') rfl (by decide)]
  · cases isArray
    · exact List.forall_mem_nil _
    · simp [isTokenChar, isBlank]

/-- An attribute has parentheses, and a name with brackets behind it has none. -/
theorem isAttribute_declarator : isAttribute (declarator name isArray) = false := by
  rw [isAttribute, Option.isSome_eq_false_iff, Option.isNone_iff_eq_none,
    Option.eq_none_iff_forall_ne_some]
  intro rest hs
  rw [afterStart?_eq_some] at hs
  have hparen : '(' ∈ declarator name isArray := hs ▸ List.mem_append_left _ (by decide)
  rcases List.mem_append.1 hparen with hm | hm
  · exact h.isPlain.not_mem (by decide) (by decide) hm
  · cases isArray <;> simp at hm

/-- Words that are no attributes and a declarator, with attributes behind them. -/
theorem Declaration.ofWords_append {ws attributes : List (List Char)}
    (hws : ∀ w ∈ ws, isAttribute w = false) (ha : ∀ a ∈ attributes, isAttribute a)
    (initializer : Option String) :
    ofWords (ws ++ declarator name isArray :: attributes) initializer =
      ⟨ws.map String.ofList, name, isArray, initializer⟩ := by
  have hkeep : ws.filter (!isAttribute ·) = ws :=
    List.filter_eq_self.2 fun w hw => by rw [hws w hw]; rfl
  have hname : (!isAttribute (declarator name isArray)) = true := by
    rw [isAttribute_declarator h]
    rfl
  have hdrop : attributes.filter (!isAttribute ·) = [] :=
    List.filter_eq_nil_iff.2 fun a hm => by rw [ha a hm]; decide
  have hfilter : (ws ++ declarator name isArray :: attributes).filter (!isAttribute ·) =
      ws ++ [declarator name isArray] := by
    rw [List.filter_append, hkeep, List.filter_cons, if_pos hname, hdrop]
  have hb : '[' ∉ name.toList := h.isPlain.not_mem (by decide) (by decide)
  rw [ofWords, hfilter, List.getLastD_concat, List.dropLast_concat]
  cases isArray with
  | true =>
    have hs : splitAt? '[' (declarator name true) = some (name.toList, [']']) :=
      splitAt?_append hb _
    rw [hs]
    exact congrArg (Declaration.mk _ · _ _) String.ofList_toList
  | false =>
    have hs : splitAt? '[' (declarator name false) = none :=
      splitAt?_eq_none_iff.2 (by simpa [declarator] using hb)
    rw [hs]
    exact congrArg (Declaration.mk _ · _ _) (by simp [declarator])

end

/-! ## Statements of tokens -/

section

variable {lead : List Char} {ws : List (List Char)} (hl : ∀ c ∈ lead, isBlank c)
  (hws : ∀ w ∈ ws, IsToken w)
include hl hws

theorem words_tokens (s : List Char) : words (lead ++ (spaced ws ++ s)) = ws ++ words s := by
  rw [words_append_of_blank hl, words_spaced_append fun w hw => (hws w hw).isWord]

theorem not_mem_tokens (hc : isTokenChar c = false) (hb : isBlank c = false) (hs : c ∉ s) :
    c ∉ lead ++ (spaced ws ++ s) := by
  intro hm
  rcases List.mem_append.1 hm with hm | hm
  · rw [hl c hm] at hb
    cases hb
  rcases List.mem_append.1 hm with hm | hm
  · obtain ⟨w, hw, hm⟩ := List.mem_flatMap.1 hm
    rcases List.mem_append.1 hm with hm | hm
    · exact (hws w hw).not_mem hc hm
    · rw [List.mem_singleton.1 hm] at hb
      cases hb
  · exact hs hm

/-- Tokens with a last one behind them, and nothing behind an equals sign. -/
theorem declaration_tokens {w : List Char} (hw : IsToken w) :
    declaration (lead ++ (spaced ws ++ w)) = .ofWords (ws ++ [w]) none := by
  have hlast := hw.isWord.words_append (t := []) nofun
  rw [List.append_nil, words_nil] at hlast
  rw [declaration, splitAt?_eq_none_iff.2 (not_mem_tokens hl hws rfl rfl (hw.not_mem rfl))]
  dsimp only
  rw [words_tokens hl hws, hlast]

/-- Tokens with a text behind an equals sign. -/
theorem declaration_tokens_initializer (value : List Char) :
    declaration (lead ++ (spaced ws ++ '=' :: value)) =
      .ofWords ws (some (String.ofList (trim value))) := by
  have heq := not_mem_tokens hl hws (c := '=') rfl rfl List.not_mem_nil
  have hwords := words_tokens hl hws []
  rw [words_nil, List.append_nil] at hwords
  rw [List.append_nil] at heq hwords
  rw [declaration, ← List.append_assoc, splitAt?_append heq]
  dsimp only
  rw [hwords]

end

/-! ## Items -/

/-- The texts of the items. -/
def itemTexts (bytes : List UInt8) : List (List Char) :=
  bytes.map fun b => (paddedHex 2 b.toNat).toList

theorem not_mem_of_mem_itemTexts (hx : c ≠ 'x') (hd : isHexDigit c = false) :
    ∀ s ∈ itemTexts bytes, c ∉ s := by
  intro s hs hc
  obtain ⟨b, -, rfl⟩ := List.mem_map.1 hs
  obtain ⟨ds, he, hn⟩ := exists_paddedHex 2 b.toNat
  rw [he, List.mem_cons, List.mem_cons] at hc
  rcases hc with rfl | rfl | hc
  · exact absurd hd (by decide)
  · exact hx rfl
  · rw [hn.isHexDigit c hc] at hd
    cases hd

/-- Items with commas between them, in braces. -/
def braced (items : List (List Char)) : List Char :=
  '\x7b' :: ([','].intercalate items ++ ['\x7d'])

/-- Items are found again between their braces. -/
theorem items?_braced {items : List (List Char)} (hne : ∀ s ∈ items, s ≠ [])
    (hcomma : ∀ s ∈ items, ',' ∉ s) (hbrace : ∀ s ∈ items, '\x7d' ∉ s) :
    items? (String.ofList (braced items)) = some items := by
  have hopen : splitAt? '\x7b' (braced items) = some ([], [','].intercalate items ++ ['\x7d']) :=
    splitAt?_append List.not_mem_nil _
  have hclose : splitAt? '\x7d' ([','].intercalate items ++ ['\x7d']) =
      some ([','].intercalate items, []) :=
    splitAt?_append (not_mem_intercalate hbrace (by decide)) _
  rw [items?, String.toList_ofList, hopen]
  simp only [Option.bind_eq_bind, Option.bind_some, hclose]
  cases items with
  | nil => rfl
  | cons s items =>
    have hfirst : [','].intercalate (s :: items) ≠ [] := by
      have hs := hne s List.mem_cons_self
      cases items <;> simp [hs]
    have hpieces : pieces [','] ([','].intercalate (s :: items)) = s :: items :=
      (unbordered_singleton ',').pieces_intercalate (List.cons_ne_nil _ _) (List.cons_ne_nil _ _)
        fun t ht => by
          rw [List.singleton_infix_iff]
          exact hcomma t ht
    rw [if_neg hfirst, hpieces]
    rfl

theorem items?_itemTexts (bytes : List UInt8) :
    items? (String.ofList (braced (itemTexts bytes))) = some (itemTexts bytes) := by
  refine items?_braced ?_ (not_mem_of_mem_itemTexts (by decide) (by decide))
    (not_mem_of_mem_itemTexts (by decide) (by decide))
  intro s hs
  obtain ⟨b, -, rfl⟩ := List.mem_map.1 hs
  obtain ⟨ds, he, -⟩ := exists_paddedHex 2 b.toNat
  rw [he]
  exact List.cons_ne_nil _ _

/-- A literal has one value. -/
theorem IsHexLiteral.unique {n k : Nat} (h : IsHexLiteral s n) (h' : IsHexLiteral s k) : n = k := by
  obtain ⟨mark, hm, ds, rfl, hn⟩ := h
  obtain ⟨mark', hm', ds', he, hk⟩ := h'
  have hl : mark.length = mark'.length := by
    rw [Automation.length_of_mem_hexMarks hm, Automation.length_of_mem_hexMarks hm']
  obtain ⟨-, rfl⟩ := List.append_inj he hl
  exact hn.unique (by decide) hk

/-- The items stand for the bytes, and for no other numbers. -/
theorem forall₂_itemTexts_iff {numbers : List Nat} :
    List.Forall₂ IsHexLiteral (itemTexts bytes) numbers ↔ numbers = bytes.map UInt8.toNat := by
  have hbytes : List.Forall₂ IsHexLiteral (itemTexts bytes) (bytes.map UInt8.toNat) := by
    rw [itemTexts, List.forall₂_map_left_iff, List.forall₂_map_right_iff, List.forall₂_same]
    intro b _
    obtain ⟨ds, he, hn⟩ := exists_paddedHex 2 b.toNat
    exact ⟨['0', 'x'], List.mem_cons_self, ds, he, hn⟩
  constructor
  · intro h
    exact List.right_unique_forall₂' (fun _ _ _ h h' => h.unique h') h hbytes
  · rintro rfl
    exact hbytes

/-! ## The two texts -/

theorem declarations_pair {text : String}
    (h : text.toList = s ++ ';' :: (t ++ [';', '\n'])) (hs : ';' ∉ s) (ht : ';' ∉ t)
    (hws : words s ≠ []) (hwt : words t ≠ []) :
    declarations text = [declaration s, declaration t] := by
  have hlast : pieces [';'] ['\n'] = [['\n']] :=
    pieces_of_not_infix (by rw [List.singleton_infix_iff]; decide)
  have hblank : words ['\n'] = [] := by
    rw [← List.append_nil ['\n'], words_append_of_blank (List.forall_mem_singleton.2 rfl),
      words_nil]
  rw [declarations, h, pieces_append_of_not_mem hs, pieces_append_of_not_mem ht, hlast]
  simp [hws, hwt, hblank]

theorem source_eq (base : String) (bytes : List UInt8) : (source base bytes).toList =
    [] ++ (spaced (constantWords "char" ++ [declarator (dataName base) true, used.toList]) ++
      '=' :: ' ' :: braced (itemTexts bytes)) ++
    ';' :: (['\n'] ++ (spaced (constantWords "int" ++
        [declarator (sizeName base) false, used.toList]) ++
      '=' :: ' ' :: ("sizeof(" ++ dataName base ++ ")").toList) ++ [';', '\n']) := by
  unfold source
  simp [spaced, constantWords, constant, declarator, used, braced, itemTexts, toString,
    String.toList_intercalate, Function.comp_def]

theorem header_eq (base : String) : (header base).toList =
    [] ++ (spaced (constantWords "char") ++ declarator (dataName base) true) ++
    ';' :: (['\n'] ++ (spaced (constantWords "int") ++ declarator (sizeName base) false) ++
      [';', '\n']) := by
  unfold header
  simp [spaced, constantWords, constant, declarator, toString]

section

variable {lead : List Char} {isArray : Bool}

/-- The tokens of a definition. -/
theorem isToken_definition (ht : type = "char" ∨ type = "int") (h : IsName name.toList)
    (isArray : Bool) :
    ∀ w ∈ constantWords type ++ [declarator name isArray, used.toList], IsToken w :=
  List.forall_mem_append.2 ⟨fun w hw => (isToken_constantWords ht w hw).1,
    List.forall_mem_cons.2 ⟨isToken_declarator h isArray, List.forall_mem_singleton.2 isToken_used⟩⟩

theorem map_ofList_constantWords (type : String) :
    (constantWords type).map String.ofList = constant type := by
  simp [constantWords, Function.comp_def]

/-- A definition is read without its attribute. -/
theorem declaration_definition (hl : ∀ c ∈ lead, isBlank c) (ht : type = "char" ∨ type = "int")
    (h : IsName name.toList) (value : List Char) :
    declaration (lead ++ (spaced (constantWords type ++ [declarator name isArray, used.toList]) ++
      '=' :: value)) = ⟨constant type, name, isArray, some (String.ofList (trim value))⟩ := by
  rw [declaration_tokens_initializer hl (isToken_definition ht h isArray),
    Declaration.ofWords_append h isArray (fun w hw => (isToken_constantWords ht w hw).2)
      (List.forall_mem_singleton.2 (by decide)), map_ofList_constantWords]

theorem declaration_constant (hl : ∀ c ∈ lead, isBlank c) (ht : type = "char" ∨ type = "int")
    (h : IsName name.toList) :
    declaration (lead ++ (spaced (constantWords type) ++ declarator name isArray)) =
      ⟨constant type, name, isArray, none⟩ := by
  rw [declaration_tokens hl (fun w hw => (isToken_constantWords ht w hw).1)
    (isToken_declarator h isArray),
    Declaration.ofWords_append h isArray (fun w hw => (isToken_constantWords ht w hw).2)
      (List.forall_mem_nil _), map_ofList_constantWords]

end

/-- A blank in front of a text that begins and ends in other characters is taken off. -/
theorem trim_cons {d : Char} (hc : isBlank c = false) (hd : isBlank d = false) (s : List Char) :
    trim (' ' :: c :: (s ++ [d])) = c :: (s ++ [d]) := by
  have h := trim_append (w := [' ']) (t := []) (List.forall_mem_singleton.2 rfl) hc
    (noBlankEnd_concat hd (c :: s))
  rwa [trimEnd_nil, List.append_nil] at h

theorem trim_sizeof (name : String) :
    trim (' ' :: ("sizeof(" ++ name ++ ")").toList) = ("sizeof(" ++ name ++ ")").toList := by
  have h : ("sizeof(" ++ name ++ ")").toList =
      's' :: ("izeof(".toList ++ name.toList ++ [')']) := by simp
  rw [h, trim_cons rfl rfl]

section

variable (h : IsPlain base.toList)
include h

theorem declarations_source (bytes : List UInt8) : declarations (source base bytes) =
    [⟨constant "char", dataName base, true,
        some (String.ofList (braced (itemTexts bytes)))⟩,
      ⟨constant "int", sizeName base, false, some ("sizeof(" ++ dataName base ++ ")")⟩] := by
  have hnil : ∀ c ∈ ([] : List Char), isBlank c := List.forall_mem_nil _
  have hline : ∀ c ∈ ['\n'], isBlank c := List.forall_mem_singleton.2 rfl
  have hdata := isName_dataName h
  have hsize := isName_sizeName h
  rw [declarations_pair (source_eq base bytes)]
  · rw [declaration_definition hnil (.inl rfl) hdata, declaration_definition hline (.inr rfl) hsize,
      braced, trim_cons rfl rfl, trim_sizeof, String.ofList_toList]
  · refine not_mem_tokens hnil (isToken_definition (.inl rfl) hdata true) rfl rfl ?_
    have hitems : ∀ s ∈ itemTexts bytes, ';' ∉ s :=
      not_mem_of_mem_itemTexts (by decide) (by decide)
    simpa [braced] using not_mem_intercalate hitems (d := ',') (by decide)
  · refine not_mem_tokens hline (isToken_definition (.inr rfl) hsize false) rfl rfl ?_
    simpa using hdata.isPlain.not_mem (c := ';') rfl (by decide)
  · rw [words_tokens hnil (isToken_definition (.inl rfl) hdata true)]
    exact List.append_ne_nil_of_left_ne_nil (List.cons_ne_nil _ _) _
  · rw [words_tokens hline (isToken_definition (.inr rfl) hsize false)]
    exact List.append_ne_nil_of_left_ne_nil (List.cons_ne_nil _ _) _

theorem declarations_header : declarations (header base) =
    [⟨constant "char", dataName base, true, none⟩,
      ⟨constant "int", sizeName base, false, none⟩] := by
  have hnil : ∀ c ∈ ([] : List Char), isBlank c := List.forall_mem_nil _
  have hline : ∀ c ∈ ['\n'], isBlank c := List.forall_mem_singleton.2 rfl
  have hdata := isToken_declarator (isName_dataName h) true
  have hsize := isToken_declarator (isName_sizeName h) false
  have hchar := fun w hw => (isToken_constantWords (.inl rfl) w hw).1
  have hint := fun w hw => (isToken_constantWords (.inr rfl) w hw).1
  rw [declarations_pair (header_eq base)]
  · rw [declaration_constant hnil (.inl rfl) (isName_dataName h),
      declaration_constant hline (.inr rfl) (isName_sizeName h)]
  · exact not_mem_tokens hnil hchar rfl rfl (hdata.not_mem rfl)
  · exact not_mem_tokens hline hint rfl rfl (hsize.not_mem rfl)
  · rw [words_tokens hnil hchar]
    exact List.append_ne_nil_of_left_ne_nil (List.cons_ne_nil _ _) _
  · rw [words_tokens hline hint]
    exact List.append_ne_nil_of_left_ne_nil (List.cons_ne_nil _ _) _

end

/-- The texts for a file declare an array and a constant, in the source and in the header alike,
    with names that come from the path. The items of the array are literals for the bytes, in their
    order, and for no other numbers; the constant is the size of this array. -/
theorem embedded_read_back (path : String) (bytes : List UInt8) :
    let base := symbolBase path
    ∃ initializer items,
      declarations (source base bytes) =
        [⟨["extern", "\"C\"", "const", "unsigned", "char"], base ++ "_data", true,
            some initializer⟩,
          ⟨["extern", "\"C\"", "const", "unsigned", "int"], base ++ "_size", false,
            some ("sizeof(" ++ (base ++ "_data") ++ ")")⟩] ∧
      items? initializer = some items ∧
      (∀ numbers, List.Forall₂ IsHexLiteral items numbers ↔ numbers = bytes.map UInt8.toNat) ∧
      declarations (header base) =
        (declarations (source base bytes)).map fun d => { d with initializer := none } := by
  intro base
  have hbase : IsPlain base.toList := isPlain_symbolBase path
  refine ⟨_, _, declarations_source hbase bytes, items?_itemTexts bytes,
    fun numbers => forall₂_itemTexts_iff, ?_⟩
  rw [declarations_header hbase, declarations_source hbase]
  rfl

end KernelProbe.Embedding
