import HackAssembler.Fault
import HackAssembler.Proofs.Earlier
import Mathlib.Data.List.Forall2

/-! # Flaws and the verdict on them

A program may have many flaws, of which assembling reports one. A `Verdict` says what a computation
makes of a list of flaws: without flaws it gives a value that is acceptable, and otherwise it fails
with the first of them. Verdicts compose: one after another judges the flaws of the first before
those of the second (`Verdict.bind`), and a pass judges the flaws at each item in the order of the
items (`Verdict.foldlM`, `Verdict.mapM`).
-/

namespace HackAssembler

/-- The stages of assembling a source. -/
inductive Stage where
  | reading
  | labelling
  | allocation
  | encoding
  deriving DecidableEq, Repr

def Stage.rank : Stage → Nat
  | reading => 0
  | labelling => 1
  | allocation => 2
  | encoding => 3

/-- Something wrong with a program: the fault, the stage that can report it, and its place among
what that stage can report of the same line. -/
structure Flaw where
  stage : Stage
  slot : Nat
  fault : Fault
  deriving DecidableEq, Repr

/-- Flaws are ordered by stage, then by line, and then by their place on the line. -/
def Flaw.Precedes (first second : Flaw) : Prop :=
  first.stage.rank < second.stage.rank ∨
    first.stage.rank = second.stage.rank ∧
      (first.fault.line < second.fault.line ∨
        first.fault.line = second.fault.line ∧ first.slot < second.slot)

theorem Flaw.Precedes.of_line {first second : Flaw} (stage : first.stage = second.stage)
    (line : first.fault.line < second.fault.line) : first.Precedes second :=
  Or.inr ⟨by rw [stage], Or.inl line⟩

/-- A computation gives an acceptable value if there are no flaws, and fails with the first flaw
otherwise. -/
inductive Verdict {α : Type} (Acceptable : α → Prop) : List Flaw → Except Fault α → Prop
  | accepted {value : α} (acceptable : Acceptable value) : Verdict Acceptable [] (.ok value)
  | rejected (flaw : Flaw) (later : List Flaw) :
      Verdict Acceptable (flaw :: later) (.error flaw.fault)

namespace Verdict

variable {α β σ : Type} {Acceptable : α → Prop} {flaws : List Flaw} {result : Except Fault α}

theorem of_ok {value : α} (verdict : Verdict Acceptable flaws (.ok value)) :
    flaws = [] ∧ Acceptable value := by
  cases verdict with
  | accepted acceptable => exact ⟨rfl, acceptable⟩

theorem of_error {fault : Fault} (verdict : Verdict Acceptable flaws (.error fault)) :
    ∃ flaw later, flaws = flaw :: later ∧ fault = flaw.fault := by
  cases verdict with
  | rejected flaw later => exact ⟨flaw, later, rfl, rfl⟩

theorem of_flawless (verdict : Verdict Acceptable flaws result) (flawless : flaws = []) :
    ∃ value, result = .ok value ∧ Acceptable value := by
  cases verdict with
  | accepted acceptable => exact ⟨_, rfl, acceptable⟩
  | rejected flaw later => cases flawless

theorem of_head? {flaw : Flaw} (verdict : Verdict Acceptable flaws result)
    (first : flaws.head? = some flaw) : result = .error flaw.fault := by
  cases verdict with
  | accepted acceptable => cases first
  | rejected other later =>
      cases first
      rfl

theorem exists_ok_iff (verdict : Verdict Acceptable flaws result) :
    (∃ value, result = .ok value) ↔ flaws = [] := by
  constructor
  · intro accepted
    obtain ⟨value, rfl⟩ := accepted
    exact verdict.of_ok.1
  · intro flawless
    obtain ⟨value, given, _⟩ := verdict.of_flawless flawless
    exact ⟨value, given⟩

theorem imp {Good : α → Prop} (verdict : Verdict Acceptable flaws result)
    (good : ∀ value, Acceptable value → Good value) : Verdict Good flaws result := by
  cases verdict with
  | accepted acceptable => exact accepted (good _ acceptable)
  | rejected flaw later => exact rejected flaw later

/-- The flaws of what comes second count after those of what comes first. -/
theorem bind {Good : β → Prop} {others : List Flaw} {next : α → Except Fault β}
    (verdict : Verdict Acceptable flaws result)
    (continued : ∀ value, Acceptable value → Verdict Good others (next value)) :
    Verdict Good (flaws ++ others) (result >>= next) := by
  cases verdict with
  | accepted acceptable => exact continued _ acceptable
  | rejected flaw later => exact rejected flaw (later ++ others)

theorem map {Good : β → Prop} (f : α → β) (verdict : Verdict Acceptable flaws result)
    (good : ∀ value, Acceptable value → Good (f value)) : Verdict Good flaws (result.map f) := by
  cases verdict with
  | accepted acceptable => exact accepted (good _ acceptable)
  | rejected flaw later => exact rejected flaw later

/-- A pass over items that keeps a state meets the flaws in the order of the items. What holds of
the state is a matter of the items that the pass has seen. -/
theorem foldlM {step : σ → α → Except Fault σ} {start : σ} (Reached : List α → σ → Prop)
    {flawsAt : List α → α → List Flaw} (initial : Reached [] start)
    (step_verdict : ∀ earlier item state, Reached earlier state →
      Verdict (Reached (earlier ++ [item])) (flawsAt earlier item) (step state item))
    (items : List α) :
    Verdict (Reached items) ((withEarlier items).flatMap fun pair => flawsAt pair.1 pair.2)
      (items.foldlM step start) := by
  -- By induction at the end of the list, so that what is reached always follows all items before.
  induction items using List.reverseRecOn with
  | nil => exact accepted initial
  | append_singleton items item ih =>
      rw [withEarlier_append_singleton, List.flatMap_append, List.flatMap_singleton,
        List.foldlM_append]
      refine ih.bind fun state reached => ?_
      have stepped := step_verdict items item state reached
      rw [List.foldlM_cons]
      simp only [List.foldlM_nil, bind_pure]
      exact stepped

/-- A pass over items fails with the first flaw at some item, and there are none at the items before
it. -/
theorem exists_first {flawsAt : List α → α → List Flaw} {items : List α} {fault : Fault}
    {Acceptable : σ → Prop}
    (verdict : Verdict Acceptable
      ((withEarlier items).flatMap fun pair => flawsAt pair.1 pair.2) (.error fault)) :
    ∃ earlier item later flaw, items = earlier ++ item :: later ∧
      (flawsAt earlier item).head? = some flaw ∧ fault = flaw.fault ∧
      ∀ pair ∈ withEarlier earlier, flawsAt pair.1 pair.2 = [] := by
  obtain ⟨flaw, others, listed, rfl⟩ := verdict.of_error
  obtain ⟨earlier, item, later, split, first, none⟩ := exists_first_of_flatMap_withEarlier listed
  exact ⟨earlier, item, later, flaw, split, first, rfl, none⟩

/-- A pass that treats each item by itself meets the flaws in the order of the items. -/
theorem mapM {f : α → Except Fault β} {Good : α → β → Prop} {flawsAt : α → List Flaw}
    {items : List α}
    (item_verdict : ∀ item ∈ items, Verdict (Good item) (flawsAt item) (f item)) :
    Verdict (List.Forall₂ Good items) (items.flatMap flawsAt) (items.mapM f) := by
  induction items with
  | nil => exact accepted .nil
  | cons item items ih =>
      rw [List.mapM_cons, List.flatMap_cons]
      refine (item_verdict item List.mem_cons_self).bind fun first good => ?_
      have others := ih fun other member => item_verdict other (List.mem_cons_of_mem _ member)
      exact others.map (first :: ·) fun rest all => .cons good all

end Verdict

end HackAssembler
