import KernelProbe.CommandLine.Perform
import KernelProbe.Proofs.Embedding
import KernelProbe.Proofs.Interaction.Path

/-!
# The names of embedded files

The name of a file is taken apart at its last point and put together again, so that nothing of it is
lost (`stem_append_extension`). Each of its characters then gives one character of the names that
the file is embedded under: a letter or digit itself, any other an underscore (`toList_symbolBase`).

These names are what the written texts declare (`written_embedFile`, `map_name_of_mem_texts`). They
are identifiers of C unless the name of the file begins with a digit (`declared_names`). The digit
is kept then, and the texts declare what no compiler takes for a name
(`digit_first_not_identifier`).
-/

namespace KernelProbe.Embedding

open Text Program CommandLine

variable {path input outputBase base suffix : String} {name s : List Char} {c : Char}
  {log : Log shell} {r : Except Failure Unit}

/-! ## Stems and extensions -/

theorem stem_append_extension (name : List Char) :
    (splitExtension name).1 ++ (splitExtension name).2.elim [] ('.' :: ·) = name := by
  rw [splitExtension]
  split
  · exact List.append_nil name
  · next stem extension h =>
    split
    · exact List.append_nil name
    · exact (splitAtLast?_eq_some h).1.symm

theorem ne_nil_of_fileName? (h : fileName? path = some name) : name ≠ [] := by
  obtain ⟨last, hl, hn⟩ := Option.bind_eq_some_iff.1 h
  have hkept := (List.mem_filter.1 (List.mem_of_getLast? hl)).2
  rw [Option.ite_none_left_eq_some, Option.some_inj] at hn
  obtain ⟨-, rfl⟩ := hn
  rw [Bool.and_eq_true, Bool.not_eq_true', List.isEmpty_eq_false_iff] at hkept
  exact hkept.1

/-- What a character of the name of a file becomes. -/
def nameChar (c : Char) : Char :=
  if c.isAlphanum then c else '_'

theorem isWordChar_eq (c : Char) : isWordChar c = c.isAlphanum := by
  have hupper : c.isUpper = ('A' ≤ c && c ≤ 'Z') := Bool.decide_and _ _
  calc isWordChar c = (c.isDigit || c.isLower || c.isUpper) := by rw [hupper]; rfl
    _ = (c.isUpper || c.isLower || c.isDigit) := by ac_rfl
    _ = c.isAlphanum := rfl

/-- The names that a file is embedded under begin with its own name, character by character. -/
theorem toList_symbolBase (h : fileName? path = some name) :
    (symbolBase path).toList = name.map nameChar := by
  rw [symbolBase, String.toList_ofList, stem?, extension?, h, Option.map_some, Option.getD_some,
    Option.bind_some, stem_append_extension]
  exact List.map_congr_left fun c _ => by rw [isWordChar_eq, nameChar]

/-! ## Identifiers -/

/-- A text that C takes for an identifier: a letter or an underscore, and behind it letters, digits
    and underscores, all of them of ASCII. -/
def IsIdentifier : List Char → Prop
  | [] => False
  | c :: r => (c.isAlpha ∨ c = '_') ∧ ∀ d ∈ r, d.isAlphanum ∨ d = '_'

instance : DecidablePred IsIdentifier
  | [] => inferInstanceAs (Decidable False)
  | c :: r => inferInstanceAs (Decidable ((c.isAlpha ∨ c = '_') ∧ ∀ d ∈ r, d.isAlphanum ∨ d = '_'))

/-- A text whose first character is a digit. -/
def BeginsWithDigit : List Char → Prop
  | [] => False
  | c :: _ => c.isDigit

instance : DecidablePred BeginsWithDigit
  | [] => inferInstanceAs (Decidable False)
  | c :: _ => inferInstanceAs (Decidable c.isDigit)

theorem beginsWithDigit_cons : BeginsWithDigit (c :: s) ↔ c.isDigit :=
  Iff.rfl

theorem isDigit_iff : c.isDigit ↔ 48 ≤ c.toNat ∧ c.toNat ≤ 57 :=
  Bool.and_eq_true_iff.trans (and_congr decide_eq_true_iff decide_eq_true_iff)

theorem isAlpha_iff :
    c.isAlpha ↔ (65 ≤ c.toNat ∧ c.toNat ≤ 90) ∨ (97 ≤ c.toNat ∧ c.toNat ≤ 122) := by
  have hupper : c.isUpper ↔ 65 ≤ c.toNat ∧ c.toNat ≤ 90 := decide_eq_true_iff
  have hlower : c.isLower ↔ 97 ≤ c.toNat ∧ c.toNat ≤ 122 :=
    Bool.and_eq_true_iff.trans (and_congr decide_eq_true_iff decide_eq_true_iff)
  exact Bool.or_eq_true_iff.trans (or_congr hupper hlower)

/-- No letter is a digit. -/
theorem isAlpha_iff_isAlphanum : c.isAlpha ↔ c.isAlphanum ∧ ¬c.isDigit := by
  rw [Char.isAlphanum, Bool.or_eq_true]
  have hdisjoint : c.isAlpha → ¬c.isDigit := by
    rw [isAlpha_iff, isDigit_iff]
    omega
  exact ⟨fun h => ⟨.inl h, hdisjoint h⟩, fun h => h.1.resolve_right h.2⟩

/-- Identifiers are the names that do not begin with a digit. -/
theorem isIdentifier_iff : IsIdentifier s ↔ IsName s ∧ ¬BeginsWithDigit s := by
  rcases s with _ | ⟨c, r⟩
  · exact ⟨False.elim, fun h => h.1.ne_nil rfl⟩
  have hplain : IsPlain (c :: r) ↔
      (c.isAlphanum ∨ c = '_') ∧ ∀ d ∈ r, d.isAlphanum ∨ d = '_' := by
    simp only [IsPlain, isWordChar_eq, List.forall_mem_cons]
  rw [beginsWithDigit_cons, IsIdentifier, isAlpha_iff_isAlphanum]
  constructor
  · rintro ⟨⟨hc, hd⟩ | rfl, hr⟩
    · exact ⟨⟨hplain.2 ⟨.inl hc, hr⟩, List.cons_ne_nil c r⟩, hd⟩
    · exact ⟨⟨hplain.2 ⟨.inr rfl, hr⟩, List.cons_ne_nil _ r⟩, by decide⟩
  · rintro ⟨hn, hd⟩
    obtain ⟨hc, hr⟩ := hplain.1 hn.isPlain
    exact ⟨hc.imp_left fun ha => ⟨ha, hd⟩, hr⟩

theorem isDigit_nameChar (c : Char) : (nameChar c).isDigit = c.isDigit := by
  rw [nameChar]
  split
  · rfl
  · next h =>
    rw [Char.isAlphanum, Bool.or_eq_true, not_or, Bool.not_eq_true, Bool.not_eq_true] at h
    rw [h.2]
    rfl

/-- Nothing but a digit at the start of the name of a file keeps a name with this start from being
    an identifier. -/
theorem isIdentifier_symbolBase_append (h : fileName? path = some name)
    (hn : IsName (symbolBase path ++ suffix).toList) :
    IsIdentifier (symbolBase path ++ suffix).toList ↔ ¬BeginsWithDigit name := by
  rw [isIdentifier_iff, and_iff_right hn, not_iff_not, String.toList_append, toList_symbolBase h]
  obtain ⟨c, r, rfl⟩ := List.exists_cons_of_ne_nil (ne_nil_of_fileName? h)
  rw [List.map_cons, List.cons_append, beginsWithDigit_cons, beginsWithDigit_cons, isDigit_nameChar]

/-! ## What is written -/

/-- The files that were written, or whose writing was tried, with their texts. -/
def written (log : Log shell) : List (String × String) :=
  log.filterMap fun e =>
    match e.call with
    | .writeFile path text => some (path, text)
    | _ => none

/-- The two files for an embedded file. -/
def texts (outputBase base : String) (bytes : List UInt8) : List (String × String) :=
  [(outputBase ++ ".cpp", source base bytes), (outputBase ++ ".h", header base)]

/-- Embedding writes the two files in their order as far as it comes, and both if it succeeds. -/
theorem written_embedFile (hp : Path (ExceptT.run (embedFile input outputBase)) log r) :
    ∃ bytes, written log <+: texts outputBase (symbolBase input) bytes ∧
      (r = .ok () → written log = texts outputBase (symbolBase input) bytes) := by
  -- The task makes three calls at most: an answer that is an error is the last one.
  obtain ⟨read, rest, rfl, hread⟩ := path_call.1 hp
  rcases read with cause | bytes
  · obtain ⟨rfl, rfl⟩ := path_done.1 hread
    exact ⟨[], List.nil_prefix, nofun⟩
  refine ⟨bytes, ?_⟩
  obtain ⟨first, rest, rfl, hfirst⟩ := path_call.1 hread
  rcases first with cause | _
  · obtain ⟨rfl, rfl⟩ := path_done.1 hfirst
    exact ⟨List.prefix_append _ _, nofun⟩
  obtain ⟨second, rest, rfl, hsecond⟩ := path_call.1 hfirst
  have hrest : rest = [] := by
    rcases second with cause | _
    · exact (path_done.1 hsecond).1
    · exact (path_done.1 hsecond).1
  rw [hrest]
  exact ⟨List.prefix_rfl, fun _ => rfl⟩

/-- Embedding succeeds when the file is read and both texts are written. -/
theorem path_embedFile (input outputBase : String) (bytes : List UInt8) :
    Path (ExceptT.run (embedFile input outputBase))
      [⟨.readFile input, .ok bytes⟩,
        ⟨.writeFile (outputBase ++ ".cpp") (source (symbolBase input) bytes), .ok ()⟩,
        ⟨.writeFile (outputBase ++ ".h") (header (symbolBase input)), .ok ()⟩] (.ok ()) := by
  refine path_call.2 ⟨_, _, rfl, ?_⟩
  refine path_call.2 ⟨_, _, rfl, ?_⟩
  exact path_call.2 ⟨_, _, rfl, path_done.2 ⟨rfl, rfl⟩⟩

theorem map_name_of_mem_texts (hbase : IsPlain base.toList) {bytes : List UInt8}
    {file : String × String} (hf : file ∈ texts outputBase base bytes) :
    (declarations file.2).map Declaration.name = [dataName base, sizeName base] := by
  rcases List.mem_pair.1 hf with rfl | rfl
  · rw [declarations_source hbase]
    rfl
  · rw [declarations_header hbase]
    rfl

/-- The texts for an embedded file declare two names. What both begin with has one character for
    each character of the name of the file: a letter or digit itself, for any other an underscore.
    They are identifiers of C if and only if the name of the file does not begin with a digit. -/
theorem declared_names (h : fileName? input = some name) :
    let names := [symbolBase input ++ "_data", symbolBase input ++ "_size"]
    (∀ outputBase log r, Path (ExceptT.run (embedFile input outputBase)) log r →
      (∀ file ∈ written log, (declarations file.2).map Declaration.name = names) ∧
        (r = .ok () → (written log).map Prod.fst = [outputBase ++ ".cpp", outputBase ++ ".h"])) ∧
    (symbolBase input).toList.length = name.length ∧
    (∀ (i : ℕ) (hi : i < name.length), (symbolBase input).toList[i]? =
      some (if name[i].isAlphanum then name[i] else '_')) ∧
    ∀ n ∈ names, IsIdentifier n.toList ↔ ¬BeginsWithDigit name := by
  have hbase : IsPlain (symbolBase input).toList := isPlain_symbolBase input
  intro names
  refine ⟨fun outputBase log r hp => ?_, ?_, fun i hi => ?_, ?_⟩
  · obtain ⟨bytes, hwritten, hall⟩ := written_embedFile hp
    exact ⟨fun file hf => map_name_of_mem_texts hbase (hwritten.subset hf),
      fun hr => by rw [hall hr]; rfl⟩
  · rw [toList_symbolBase h, List.length_map]
  · rw [toList_symbolBase h, List.getElem?_map, List.getElem?_eq_getElem hi]
    rfl
  · exact List.forall_mem_cons.2 ⟨isIdentifier_symbolBase_append h (isName_dataName hbase),
      List.forall_mem_singleton.2 (isIdentifier_symbolBase_append h (isName_sizeName hbase))⟩

/-- A name that begins with a point, has a letter outside ASCII and a digit behind it. -/
theorem declared_names_hidden :
    fileName? "img.d/.é9.bin" = some ".é9.bin".toList ∧
      (∀ bytes, ∃ log, Path (ExceptT.run (embedFile "img.d/.é9.bin" "out")) log (.ok ()) ∧
        log.head? = some ⟨.readFile "img.d/.é9.bin", .ok bytes⟩ ∧
        (written log).map Prod.fst = ["out.cpp", "out.h"] ∧
        ∀ file ∈ written log, (declarations file.2).map Declaration.name =
          ["__9_bin_data", "__9_bin_size"]) ∧
      ¬BeginsWithDigit ".é9.bin".toList ∧ IsIdentifier "__9_bin_data".toList := by
  have hname : fileName? "img.d/.é9.bin" = some ".é9.bin".toList := by decide
  have hbase : symbolBase "img.d/.é9.bin" = "__9_bin" := by decide
  have hdigit : ¬BeginsWithDigit ".é9.bin".toList := by decide
  obtain ⟨hwritten, -, -, hnames⟩ := declared_names hname
  rw [hbase] at hwritten hnames
  refine ⟨hname, fun bytes => ?_, hdigit, (hnames _ List.mem_cons_self).2 hdigit⟩
  have hp := path_embedFile "img.d/.é9.bin" "out" bytes
  exact ⟨_, hp, rfl, (hwritten _ _ _ hp).2 rfl, (hwritten _ _ _ hp).1⟩

/-- A digit at the start of the name of a file is at the start of the names that the written texts
    declare. -/
theorem digit_first_not_identifier :
    fileName? "fonts/7seg.fnt" = some "7seg.fnt".toList ∧
      symbolBase "fonts/7seg.fnt" = "7seg_fnt" ∧
      ∃ log, Path (ExceptT.run (embedFile "fonts/7seg.fnt" "out")) log (.ok ()) ∧
        ∃ file ∈ written log, ∃ d ∈ declarations file.2, ¬IsIdentifier d.name.toList := by
  refine ⟨by decide, by decide, _, path_embedFile _ _ [], _, List.mem_cons_self, ?_⟩
  rw [declarations_source (isPlain_symbolBase _)]
  exact ⟨_, List.mem_cons_self, by decide⟩

end KernelProbe.Embedding
