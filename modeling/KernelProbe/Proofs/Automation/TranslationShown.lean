import KernelProbe.Automation.TranslateAddress
import KernelProbe.Proofs.Paging.Mapping
import KernelProbe.Proofs.Paging.Walk
import KernelProbe.Proofs.Target.Breakpoints
import KernelProbe.Proofs.Target.Memory
import KernelProbe.Proofs.Text.Numerals

/-!
# What the command for addresses shows

On a simulated target, the command `translate_address` looks at the root register, walks the page
tables in memory and prints; everything else of the target stays as it was.

* `run_walk`: a walk adds its reads to the history, and is the way down through the entries that the
  memory has at these places;
* `Step.render_injective`: the line for an entry shows its level, its address and its bits;
* `translation_shown`: what the command prints and reads, for every target and every argument.
-/

namespace KernelProbe

open Debugger Program Target

/-! ## Walks -/

namespace Paging

variable {H : Type} {va word : UInt64} {levels : List Level} {log : Log (interface H)}
  {steps : List Step} {outcome : Except Failure UInt64}

theorem Descent.only_reads (h : Descent va levels word log steps outcome) :
    ∀ e ∈ log, ∃ space address size, e.call = .read space address size := by
  induction h with
  | page _ => exact List.forall_mem_nil _
  | unreadable _ _ => exact List.forall_mem_singleton.2 ⟨_, _, _, rfl⟩
  | notMapped _ _ _ => exact List.forall_mem_singleton.2 ⟨_, _, _, rfl⟩
  | mapped _ _ _ _ ih => exact List.forall_mem_cons.2 ⟨⟨_, _, _, rfl⟩, ih⟩

/-- A walk of a target goes down through the entries in its memory. -/
theorem run_walk (t : Simulated) (cr3 va : UInt64) :
    ∃ reads w, t.run (walk cr3 va) = (w, { t with reads := t.reads ++ reads }) ∧
      w.virtualAddress = va ∧
      Descent va [.pml4, .pdpt, .pdt, .pt] cr3 (reads.map t.replied) w.steps w.outcome := by
  obtain ⟨hva, hd⟩ := path_walk.1 (path_run Simulated.answer (walk cr3 va) t)
  obtain ⟨reads, ht, hl⟩ := Simulated.exists_reads _ t hd.only_reads
  exact ⟨reads, _, Prod.ext rfl ht, hva, hl ▸ hd⟩

theorem run_translate_eq_outcome (t : Simulated) (cr3 va : UInt64) :
    (t.run (translate cr3 va)).1 = (t.run (walk cr3 va)).1.outcome := by
  rw [translate, bind_eq, Simulated.run_bind]
  rfl

/-- A walk is the same script for a command as for anyone else. -/
theorem widen_walkLevels (va : UInt64) (levels : List Level) (base : UInt64) :
    widen (H := H) (walkLevels va levels base) = walkLevels va levels base := by
  induction levels generalizing base with
  | nil => rfl
  | cons level below ih =>
    simp only [walkLevels, bind_eq, readWord64_eq, bind_assoc, done_bind]
    rw [widen, substitute_bind]
    refine congrArg (Program.bind _) (funext fun reply => ?_)
    cases word64Of reply with
    | error cause => rfl
    | ok raw =>
      dsimp only
      split
      · rw [substitute_bind, ← widen, ih]
        rfl
      · rfl

theorem widen_walk (cr3 va : UInt64) : widen (H := H) (walk cr3 va) = walk cr3 va := by
  rw [walk, widen, bind_eq, substitute_bind, ← widen, widen_walkLevels]
  rfl

/-! ## Lines -/

/-- The name of a level, filled up to four characters. -/
def Level.label (l : Level) : List Char :=
  List.replicate (4 - l.name.length) ' ' ++ l.name.toList

theorem Level.length_label (l : Level) : l.label.length = 4 := by
  cases l <;> rfl

theorem Level.label_injective {l l' : Level} (h : l.label = l'.label) : l = l' := by
  cases l <;> cases l' <;> first | rfl | exact absurd h (by decide)

theorem Step.toList_render (s : Step) : ∃ rest, s.render.toList = s.level.label ++
    (' ' :: '@' :: ((Text.paddedHex 0 s.address.toNat).toList ++ ':' :: ' ' ::
      ((Text.paddedHex 16 s.entry.raw.toNat).toList ++ ' ' :: rest))) := by
  rw [Text.paddedHex_zero]
  let flags := String.intercalate " " (s.entry.flags.map Flag.abbreviation)
  refine ⟨("base=" ++ Text.hex s.entry.base.toNat ++ " [" ++ flags ++ "]").toList, ?_⟩
  simp [Step.render, Entry.render, Level.label, toString, flags]

theorem Step.render_injective : Function.Injective Step.render := by
  intro s s' h
  obtain ⟨rest, hs⟩ := s.toList_render
  obtain ⟨rest', hs'⟩ := s'.toList_render
  rw [h, hs'] at hs
  obtain ⟨hl, hs⟩ := List.append_inj hs (by rw [Level.length_label, Level.length_label])
  rw [List.cons_inj_right, List.cons_inj_right] at hs
  obtain ⟨ha, hs⟩ := Text.paddedHex_append_inj (by decide) hs
  rw [List.cons_inj_right] at hs
  obtain ⟨he, -⟩ := Text.paddedHex_append_inj (by decide) hs
  obtain ⟨level, address, ⟨raw⟩⟩ := s
  obtain ⟨level', address', ⟨raw'⟩⟩ := s'
  obtain rfl : level = level' := (Level.label_injective hl).symm
  obtain rfl : address = address' := (UInt64.toNat_inj.1 ha).symm
  obtain rfl : raw = raw' := (UInt64.toNat_inj.1 he).symm
  rfl

/-- The line that says that a virtual address has a physical one. -/
def mappedLine (va p : UInt64) : String :=
  "Virtual address " ++ Text.hex va.toNat ++ " translates to physical address " ++ Text.hex p.toNat

/-- The line that says why a virtual address has no physical one. -/
def unmappedLine (va : UInt64) (e : Failure) : String :=
  "Virtual address " ++ Text.hex va.toNat ++ " is not mapped: " ++ e.message

theorem mappedLine_inj {p p' : UInt64} : mappedLine va p = mappedLine va p' ↔ p = p' :=
  (String.append_right_inj _).trans (Text.hex_injective.eq_iff.trans UInt64.toNat_inj)

/-- The two lines differ behind the virtual address. -/
theorem unmappedLine_ne (va : UInt64) (e : Failure) (p : UInt64) :
    unmappedLine va e ≠ mappedLine va p := by
  have hne (s t u : String) :
      s ++ " is not mapped: " ++ t ≠ s ++ " translates to physical address " ++ u := by
    intro h
    have hl := congrArg String.toList h
    simp at hl
  exact hne _ _ _

/-- A walk is displayed by a line for each entry and one for the outcome. -/
theorem Walk.exists_render (w : Walk) : ∃ last, w.render = w.steps.map Step.render ++ [last] ∧
    (∀ p, last = mappedLine w.virtualAddress p ↔ w.outcome = .ok p) ∧
    ∀ e, w.outcome = .error e → last = unmappedLine w.virtualAddress e := by
  rw [Walk.render]
  cases w.outcome with
  | ok p' =>
    refine ⟨mappedLine w.virtualAddress p', rfl, fun p => ?_, fun e he => (by cases he)⟩
    rw [mappedLine_inj, Except.ok.injEq]
  | error e =>
    refine ⟨unmappedLine w.virtualAddress e, rfl, fun p => ?_, fun _ he => ?_⟩
    · exact ⟨fun h => absurd h (unmappedLine_ne _ _ _), fun h => by cases h⟩
    · cases he
      rfl

end Paging

/-! ## The command -/

namespace Automation

open Paging

variable {H : Type} {t : Simulated} {argument : String} {va cr3 : UInt64}

theorem run_printAll (lines : List String) (t : Simulated) :
    t.run (widen (printAll lines)) = ((), { t with printed := t.printed ++ lines }) := by
  induction lines generalizing t with
  | nil => rw [List.append_nil]; rfl
  | cons line r ih =>
    refine (ih { t with printed := t.printed ++ [line] }).trans ?_
    rw [List.append_assoc]
    rfl

/-- Evaluating the root register looks at the registers alone. -/
theorem run_evaluate_cr3 (t : Simulated) : t.run (evaluate "$cr3") =
    ((t.names.registers.find? "cr3").elim (.error (.invalidExpression "$cr3")) .ok, t) :=
  rfl

theorem run_translateAddress_of_error {e : AddressError} (h : readAddress argument = .error e) :
    t.run (widen (translateAddress argument)) =
      (.ok (), { t with printed := t.printed ++ [usage] }) := by
  rw [translateAddress, h]
  rfl

/-- What the command does for an address. -/
theorem widen_translateAddress (h : readAddress argument = .ok va) :
    widen (H := H) (translateAddress argument) = (evaluate "$cr3").bind fun
      | .error e => .done (.error e)
      | .ok cr3 => (walk cr3 va).bind fun w =>
          (widen (printAll w.render)).bind fun _ => .done (.ok ()) := by
  rw [translateAddress, h]
  refine congrArg (Program.bind (evaluate "$cr3")) (funext fun value => ?_)
  cases value with
  | error e => rfl
  | ok cr3 =>
    show widen ((walk cr3 va).bind fun w =>
      (printAll w.render).bind fun _ => .done (Except.ok ())) = _
    rw [widen, substitute_bind, ← widen, widen_walk]
    refine congrArg (Program.bind _) (funext fun w => ?_)
    rw [substitute_bind]
    rfl

theorem run_translateAddress_of_none (ha : readAddress argument = .ok va)
    (hr : t.names.registers.find? "cr3" = none) :
    t.run (widen (translateAddress argument)) = (.error (.invalidExpression "$cr3"), t) := by
  rw [widen_translateAddress ha, Simulated.run_bind, run_evaluate_cr3, hr]
  rfl

theorem run_translateAddress_of_some {w : Walk} {reads : List Read}
    (ha : readAddress argument = .ok va) (hr : t.names.registers.find? "cr3" = some cr3)
    (hw : t.run (walk cr3 va) = (w, { t with reads := t.reads ++ reads })) :
    t.run (widen (translateAddress argument)) =
      (.ok (), { t with printed := t.printed ++ w.render, reads := t.reads ++ reads }) := by
  rw [widen_translateAddress ha, Simulated.run_bind, run_evaluate_cr3, hr, Option.elim_some]
  dsimp only
  rw [Simulated.run_bind, hw, Simulated.run_bind, run_printAll]
  rfl

/-- What the command does to a target: it adds printed lines and reads, and changes nothing else. An
    argument that is no address gets the usage line. Without a root register nothing is printed or
    read. Otherwise there is a line for each entry on the way down through the tables in memory, and
    one for the outcome: it gives a physical address if and only if a translation does, and that
    address, or else the reason why there is none. -/
theorem translation_shown (t : Simulated) (argument : String) :
    ∃ result lines reads, t.run (widen (translateAddress argument)) =
        (result, { t with printed := t.printed ++ lines, reads := t.reads ++ reads }) ∧
      (∀ e, readAddress argument = .error e →
        result = .ok () ∧ lines = ["Usage: translate_address <address>"] ∧ reads = []) ∧
      ∀ va, readAddress argument = .ok va →
        (t.names.registers.find? "cr3" = none →
          result = .error (.invalidExpression "$cr3") ∧ lines = [] ∧ reads = []) ∧
        ∀ cr3, t.names.registers.find? "cr3" = some cr3 →
          let outcome := (t.run (translate cr3 va)).1
          result = .ok () ∧
          ∃ steps last, lines = steps.map Step.render ++ [last] ∧
            (t.run (walk cr3 va)).1.steps = steps ∧
            Descent va [.pml4, .pdpt, .pdt, .pt] cr3 (reads.map t.replied) steps outcome ∧
            (∀ steps', lines = steps'.map Step.render ++ [last] → steps' = steps) ∧
            (∀ p, last = mappedLine va p ↔ outcome = .ok p) ∧
            ∀ e, outcome = .error e → last = unmappedLine va e := by
  cases ha : readAddress argument with
  | error e =>
    refine ⟨_, [usage], [], (run_translateAddress_of_error ha).trans ?_, fun _ _ => ⟨rfl, rfl, rfl⟩,
      fun va hva => (by cases hva)⟩
    rw [List.append_nil]
  | ok va =>
    cases hr : t.names.registers.find? "cr3" with
    | none =>
      refine ⟨_, [], [], (run_translateAddress_of_none ha hr).trans ?_, fun e he => (by cases he),
        fun _ _ => ⟨fun _ => ⟨rfl, rfl, rfl⟩, fun cr3 hcr3 => (by cases hcr3)⟩⟩
      rw [List.append_nil, List.append_nil]
    | some cr3 =>
      obtain ⟨reads, w, hw, hva, hd⟩ := run_walk t cr3 va
      refine ⟨_, _, reads, run_translateAddress_of_some ha hr hw, fun e he => (by cases he), ?_⟩
      rintro _ ⟨⟩
      refine ⟨fun hnone => (by cases hnone), ?_⟩
      rintro _ ⟨⟩
      have ho : (t.run (translate cr3 va)).1 = w.outcome := by
        rw [run_translate_eq_outcome, hw]
      rw [ho, hw]
      obtain ⟨last, hlines, hmapped, hunmapped⟩ := w.exists_render
      rw [hva] at hmapped hunmapped
      refine ⟨rfl, w.steps, last, hlines, rfl, hd, fun steps' hs => ?_, hmapped, hunmapped⟩
      rw [hlines] at hs
      exact (List.map_injective_iff.2 Step.render_injective (List.append_inj_left' hs rfl)).symm

/-- Behind tables that map the first 2 MiB to themselves, the last address of the region. -/
theorem translation_shown_identity :
    let t := (Layout.inRow 3 (by decide)).written (Simulated.new.setRegister "cr3" 0x1018) 0
      Layout.identity
    (t.run (widen (translateAddress "0x1FFFFF"))).2.printed.getLast? =
      some "Virtual address 0x1fffff translates to physical address 0x1fffff" := by
  have hc : (Layout.inRow 3 (by decide)).Complete := by
    intro level hl
    cases level <;> rfl
  have hline : mappedLine 0x1FFFFF 0x1FFFFF =
      "Virtual address 0x1fffff translates to physical address 0x1fffff" := by decide +kernel
  -- For any target that translates like this, so that no step evaluates the writes.
  have hshown (t : Simulated) (hr : t.names.registers.find? "cr3" = some 0x1018)
      (ht : (t.run (translate 0x1018 0x1FFFFF)).1 = .ok 0x1FFFFF) :
      (t.run (widen (translateAddress "0x1FFFFF"))).2.printed.getLast? =
        some (mappedLine 0x1FFFFF 0x1FFFFF) := by
    obtain ⟨_, _, _, hrun, -, h⟩ := translation_shown t "0x1FFFFF"
    obtain ⟨-, _, last, rfl, -, -, -, hmapped, -⟩ := (h 0x1FFFFF (by decide +kernel)).2 0x1018 hr
    rw [hrun, ← List.append_assoc, List.getLast?_concat, (hmapped 0x1FFFFF).2 ht]
  exact (hshown _ rfl (Layout.run_identity _ (by decide) hc (by decide))).trans
    (congrArg some hline)

end Automation

end KernelProbe
