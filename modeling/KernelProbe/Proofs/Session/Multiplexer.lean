import Mathlib.Order.Basic
import KernelProbe.Proofs.Text.Search
import KernelProbe.Session.Multiplexer

/-!
# The multiplexer and the lines before

The multiplexer sees one line at a time and keeps two marks: whether a prompt has come, and whether
a stop waits for the next one. Here its answer to a line is told from all the lines so far, without
the marks: the initial commands at the first prompt, and the command that lets the target go on at
the first prompt since a stop where a module is loaded.

* `WaitsAt` says of the lines what the second mark keeps, and `waitsAt_succ` how a line changes it;
* `Recalls`: the marks say no more and no less than the lines; one line keeps them so
  (`Recalls.observe`), and hence every sequence of lines does (`recalls_behind`);
* `observe_history`: the answer to each line, and the marks behind it.
-/

namespace KernelProbe.Session

open Text

/-- A line is a prompt. -/
def Markers.IsPrompt (k : Markers) (line : String) : Prop :=
  k.prompt.toList <:+: line.toList

/-- A line tells of a stop where a module is loaded. -/
def Markers.IsLoad (k : Markers) (line : String) : Prop :=
  k.breakpointHit.toList <:+: line.toList ∧ k.loadHook.toList <:+: line.toList

namespace Multiplexer

variable {k : Markers} {initial : List String} {auto : Bool} {lines : Nat → String} {n : Nat}
  {m : Multiplexer}

theorem isPrompt_iff {line : String} : m.isPrompt line ↔ m.markers.IsPrompt line :=
  contains_iff

theorem isLoad_iff {line : String} : m.isLoad line ↔ m.markers.IsLoad line := by
  rw [isLoad, Bool.and_eq_true, contains_iff, contains_iff]
  rfl

/-! ## Stops that wait for a prompt -/

/-- Among the first `n` lines is a stop where a module is loaded, with no prompt in its own line nor
    behind it. -/
def WaitsAt (k : Markers) (lines : Nat → String) (n : Nat) : Prop :=
  ∃ j < n, k.IsLoad (lines j) ∧ ∀ i, j ≤ i → i < n → ¬k.IsPrompt (lines i)

/-- Up to a line, the stop may be one before it or the one in the line itself. -/
theorem waitsAt_or_isLoad : (WaitsAt k lines n ∨ k.IsLoad (lines n)) ↔
    ∃ j ≤ n, k.IsLoad (lines j) ∧ ∀ i, j ≤ i → i < n → ¬k.IsPrompt (lines i) := by
  constructor
  · rintro (⟨j, hj, h⟩ | h)
    · exact ⟨j, hj.le, h⟩
    · exact ⟨n, le_rfl, h, fun i hn hi => absurd hi hn.not_gt⟩
  · rintro ⟨j, hj, h⟩
    rcases hj.lt_or_eq with hj | rfl
    · exact .inl ⟨j, hj, h⟩
    · exact .inr h.1

/-- A stop waits behind a line if it waited before it or is in it, and the line is no prompt. -/
theorem waitsAt_succ : WaitsAt k lines (n + 1) ↔
    (WaitsAt k lines n ∨ k.IsLoad (lines n)) ∧ ¬k.IsPrompt (lines n) := by
  rw [waitsAt_or_isLoad]
  constructor
  · rintro ⟨j, hj, hl, h⟩
    have hj := Nat.le_of_lt_succ hj
    exact ⟨⟨j, hj, hl, fun i hi hn => h i hi (Nat.lt_succ_of_lt hn)⟩, h n hj n.lt_succ_self⟩
  · rintro ⟨⟨j, hj, hl, h⟩, hn⟩
    refine ⟨j, Nat.lt_succ_of_le hj, hl, fun i hi hin => ?_⟩
    rcases (Nat.le_of_lt_succ hin).lt_or_eq with hin | rfl
    · exact h i hi hin
    · exact hn

/-! ## The marks -/

/-- The multiplexer behind the first `n` lines of a sequence. -/
def behind (m : Multiplexer) (lines : Nat → String) : Nat → Multiplexer
  | 0 => m
  | n + 1 => ((m.behind lines n).observe (lines n)).2

/-- The multiplexer knows of the first `n` lines what it needs to know. -/
structure Recalls (k : Markers) (initial : List String) (auto : Bool) (lines : Nat → String)
    (n : Nat) (m : Multiplexer) : Prop where
  markers : m.markers = k
  initialCommands : m.initialCommands = initial
  autoContinue : m.autoContinue = auto
  sentInitial : m.sentInitial ↔ ∃ j < n, k.IsPrompt (lines j)
  loadPending : m.loadPending ↔ auto ∧ WaitsAt k lines n

theorem recalls_new : Recalls k initial auto lines 0 (new k initial auto) where
  markers := rfl
  initialCommands := rfl
  autoContinue := rfl
  sentInitial := by simp [new]
  loadPending := by simp [new, WaitsAt]

namespace Recalls

theorem isPrompt (h : Recalls k initial auto lines n m) {line : String} :
    m.isPrompt line ↔ k.IsPrompt line :=
  h.markers ▸ isPrompt_iff

/-- At a line, a stop may have waited or come in the line itself. -/
theorem pending (h : Recalls k initial auto lines n m) :
    (m.loadPending || (m.autoContinue && m.isLoad (lines n))) ↔
      auto ∧ (WaitsAt k lines n ∨ k.IsLoad (lines n)) := by
  rw [Bool.or_eq_true, Bool.and_eq_true, h.loadPending, h.autoContinue, isLoad_iff, h.markers,
    and_or_left]

theorem observe (h : Recalls k initial auto lines n m) :
    Recalls k initial auto lines (n + 1) (m.observe (lines n)).2 where
  markers := h.markers
  initialCommands := h.initialCommands
  autoContinue := h.autoContinue
  sentInitial := by
    dsimp only [Multiplexer.observe]
    rw [Bool.or_eq_true, h.sentInitial, h.isPrompt]
    exact Nat.exists_lt_succ_right.symm
  loadPending := by
    dsimp only [Multiplexer.observe]
    rw [Bool.and_eq_true, h.pending, Bool.not_eq_true', ← Bool.not_eq_true, h.isPrompt,
      waitsAt_succ, and_assoc]

end Recalls

theorem recalls_behind (n : Nat) :
    Recalls k initial auto lines n ((new k initial auto).behind lines n) := by
  induction n with
  | zero => exact recalls_new
  | succ n ih => exact ih.observe

open Classical in
/-- The answer to a line of any sequence: at the first prompt the initial commands, in order, and
    behind them one command that lets the target go on, if that is switched on and the line is a
    prompt, the first one since a stop where a module is loaded. Behind the line, the marks say
    whether a prompt has come and whether a stop waits for the next one. -/
theorem observe_history (k : Markers) (initial : List String) (auto : Bool)
    (lines : Nat → String) (n : Nat) :
    let m := (new k initial auto).behind lines
    ((m n).observe (lines n)).1 =
      (if k.IsPrompt (lines n) ∧ ∀ j < n, ¬k.IsPrompt (lines j) then initial else []) ++
      (if auto ∧ k.IsPrompt (lines n) ∧
          ∃ j ≤ n, k.IsLoad (lines j) ∧ ∀ i, j ≤ i → i < n → ¬k.IsPrompt (lines i)
        then ["-exec-continue"] else []) ∧
    ((m (n + 1)).sentInitial ↔ ∃ j ≤ n, k.IsPrompt (lines j)) ∧
    ((m (n + 1)).loadPending ↔
      auto ∧ ∃ j ≤ n, k.IsLoad (lines j) ∧ ∀ i, j ≤ i → i ≤ n → ¬k.IsPrompt (lines i)) := by
  intro m
  have before : Recalls k initial auto lines n (m n) := recalls_behind n
  have behind : Recalls k initial auto lines (n + 1) (m (n + 1)) := recalls_behind (n + 1)
  refine ⟨?_, ?_, ?_⟩
  · have first : ((m n).isPrompt (lines n) && !(m n).sentInitial) ↔
        k.IsPrompt (lines n) ∧ ∀ j < n, ¬k.IsPrompt (lines j) := by
      rw [Bool.and_eq_true, before.isPrompt, Bool.not_eq_true', ← Bool.not_eq_true,
        before.sentInitial]
      push Not
      rfl
    have due : ((m n).isPrompt (lines n) &&
        ((m n).loadPending || ((m n).autoContinue && (m n).isLoad (lines n)))) ↔
        auto ∧ k.IsPrompt (lines n) ∧
          ∃ j ≤ n, k.IsLoad (lines j) ∧ ∀ i, j ≤ i → i < n → ¬k.IsPrompt (lines i) := by
      rw [Bool.and_eq_true, before.isPrompt, before.pending, waitsAt_or_isLoad, and_left_comm]
    dsimp only [observe]
    rw [if_congr first before.initialCommands rfl, if_congr due rfl rfl, continueCommand]
  · rw [behind.sentInitial]
    simp only [Nat.lt_succ_iff]
  · rw [behind.loadPending, WaitsAt]
    simp only [Nat.lt_succ_iff]

end Multiplexer

end KernelProbe.Session
