import KernelProbe.Proofs.Text.Pieces
import KernelProbe.Session.Placeholder

/-!
# The root in place of the placeholder

A command falls into pieces with the placeholder between them. The placeholder has no border
(`unbordered_placeholder`), so that the pieces are the same however they are looked for, and in the
command that is sent they have the root between them (`root_between_pieces`), without the slashes
at its end (`bareRoot`). What the root brings in is in none of the pieces and is not looked at.
-/

namespace KernelProbe.Session

open Text

/-- The root without the slashes at its end. -/
def bareRoot (root : String) : String :=
  String.ofList (trimEndOf '/' root.toList)

/-- The placeholder is nowhere in the text. -/
def IsPlain (text : String) : Prop :=
  ¬"/mnt//INVALID_CWD".toList <:+: text.toList

/-- Plain texts that are a command when the placeholder is put between them. -/
structure ArePieces (command : String) (ps : List String) : Prop where
  ne_nil : ps ≠ []
  plain : ∀ p ∈ ps, IsPlain p
  intercalate : "/mnt//INVALID_CWD".intercalate ps = command

theorem unbordered_placeholder : Unbordered placeholder.toList := by
  decide

theorem placeholder_ne_nil : placeholder.toList ≠ [] := by
  decide

theorem hasPlaceholder_eq_false_iff {command : String} :
    hasPlaceholder command = false ↔ IsPlain command := by
  rw [IsPlain, ← contains_iff, ← Bool.not_eq_true]
  rfl

/-- The pieces of a command that the text of the command falls into. -/
theorem arePieces_pieces (command : String) :
    ArePieces command ((pieces placeholder.toList command.toList).map String.ofList) where
  ne_nil := by simpa using pieces_ne_nil _ _
  plain p hp := by
    obtain ⟨q, hq, rfl⟩ := List.mem_map.1 hp
    show ¬placeholder.toList <:+: (String.ofList q).toList
    rw [String.toList_ofList]
    exact not_infix_of_mem_pieces placeholder_ne_nil hq
  intercalate := by
    show placeholder.intercalate _ = command
    rw [← String.toList_inj, String.toList_intercalate, List.map_map]
    simp [Function.comp_def, intercalate_pieces]

/-- However a command is taken for pieces, they are those that it falls into. -/
theorem ArePieces.pieces_eq {command : String} {ps : List String} (h : ArePieces command ps) :
    pieces placeholder.toList command.toList = ps.map String.toList := by
  rw [← h.intercalate, String.toList_intercalate]
  refine unbordered_placeholder.pieces_intercalate placeholder_ne_nil (by simpa using h.ne_nil) ?_
  rintro _ hq
  obtain ⟨p, hp, rfl⟩ := List.mem_map.1 hq
  exact h.plain p hp

theorem ArePieces.fillRoot_eq {command : String} {ps : List String} (h : ArePieces command ps)
    (root : String) : fillRoot command root = (bareRoot root).intercalate ps := by
  rw [fillRoot, replaceAll_eq_intercalate, h.pieces_eq, ← String.toList_inj,
    String.toList_ofList, String.toList_intercalate, bareRoot, String.toList_ofList]

theorem existsUnique_pieces (command : String) : ∃! ps, ArePieces command ps := by
  refine ⟨_, arePieces_pieces command, fun ps h => ?_⟩
  rw [h.pieces_eq, List.map_map]
  simp [Function.comp_def]

/-- Pieces on both sides of an occurrence are the pieces of the whole. -/
theorem ArePieces.append {before behind : String} {ps qs : List String}
    (hp : ArePieces before ps) (hq : ArePieces behind qs) :
    ArePieces (before ++ "/mnt//INVALID_CWD" ++ behind) (ps ++ qs) where
  ne_nil := List.append_ne_nil_of_left_ne_nil hp.ne_nil qs
  plain := List.forall_mem_append.2 ⟨hp.plain, hq.plain⟩
  intercalate := by
    rw [String.intercalate_append_of_ne_nil hp.ne_nil hq.ne_nil, hp.intercalate, hq.intercalate]

/-- Wherever the placeholder occurs, the root comes in its place, and the texts before and behind
    it are filled on their own. -/
theorem fillRoot_append (before behind root : String) :
    fillRoot (before ++ "/mnt//INVALID_CWD" ++ behind) root =
      fillRoot before root ++ bareRoot root ++ fillRoot behind root := by
  have hp := arePieces_pieces before
  have hq := arePieces_pieces behind
  rw [(hp.append hq).fillRoot_eq, hp.fillRoot_eq, hq.fillRoot_eq,
    String.intercalate_append_of_ne_nil hp.ne_nil hq.ne_nil]

theorem fillRoot_of_isPlain {command : String} (h : IsPlain command) (root : String) :
    fillRoot command root = command := by
  have hp : ArePieces command [command] :=
    ⟨List.cons_ne_nil _ _, by simpa using h, String.intercalate_singleton⟩
  rw [hp.fillRoot_eq, String.intercalate_singleton]

/-- The root comes in place of the placeholder. Every command is plain pieces with the placeholder
    between them in exactly one way, and what is sent is the same pieces with the root between
    them, without the slashes at the root's end. So an occurrence is filled whatever stands around
    it, with nothing else changed, and a command is left alone exactly if it is plain. -/
theorem root_between_pieces (root : String) :
    (∃ slashes, root.toList = (bareRoot root).toList ++ List.replicate slashes '/') ∧
    (bareRoot root).toList.getLast? ≠ some '/' ∧
    (∀ command,
      (∃! ps, ArePieces command ps) ∧
      (∀ ps, ArePieces command ps → fillRoot command root = (bareRoot root).intercalate ps) ∧
      (hasPlaceholder command = false ↔ IsPlain command) ∧
      (hasPlaceholder command = false → fillRoot command root = command)) ∧
    ∀ before behind, fillRoot (before ++ "/mnt//INVALID_CWD" ++ behind) root =
      fillRoot before root ++ bareRoot root ++ fillRoot behind root := by
  rw [bareRoot, String.toList_ofList]
  refine ⟨exists_trimEndOf_append '/' root.toList, getLast?_trimEndOf '/' root.toList,
    fun command => ⟨existsUnique_pieces command, fun ps h => h.fillRoot_eq root,
      hasPlaceholder_eq_false_iff, fun h => ?_⟩, fun before behind => ?_⟩
  · exact fillRoot_of_isPlain (hasPlaceholder_eq_false_iff.1 h) root
  · exact fillRoot_append before behind root

/-- A root that is a placeholder again with what stands behind it: it is not filled once more. -/
theorem root_between_pieces_not_rescanned :
    ArePieces "a/mnt//INVALID_CWD//INVALID_CWD/x" ["a", "//INVALID_CWD/x"] ∧
      fillRoot "a/mnt//INVALID_CWD//INVALID_CWD/x" "/mnt/" = "a/mnt//INVALID_CWD/x" ∧
      hasPlaceholder "a/mnt//INVALID_CWD/x" = true := by
  have h : ArePieces "a/mnt//INVALID_CWD//INVALID_CWD/x" ["a", "//INVALID_CWD/x"] :=
    ⟨by decide, by simp only [IsPlain]; decide, by decide⟩
  obtain ⟨-, -, hc, -⟩ := root_between_pieces "/mnt/"
  exact ⟨h, (hc _).2.1 _ h, by decide⟩

end KernelProbe.Session
