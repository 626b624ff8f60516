import HackAssembler.Fault
import Mathlib.Data.List.Forall2

/-! # Computations that agree

Two computations agree when both give values that are alike or both fail with faults that are alike.
What counts as alike is a matter of the comparison, so there are two relations, one on values and
one on faults. Agreement carries over from the steps of two passes to whole passes: one computation
after another (`Agree.bind`), and a pass over items that are alike one by one (`Agree.foldlM`,
`Agree.mapM`).
-/

namespace HackAssembler

/-- Two computations give values that are alike or fail with faults that are alike. -/
inductive Agree {α β : Type} (AlikeFaults : Fault → Fault → Prop) (Alike : α → β → Prop) :
    Except Fault α → Except Fault β → Prop
  | accepted {first : α} {second : β} (alike : Alike first second) :
      Agree AlikeFaults Alike (.ok first) (.ok second)
  | rejected {first second : Fault} (alike : AlikeFaults first second) :
      Agree AlikeFaults Alike (.error first) (.error second)

namespace Agree

variable {α β γ δ : Type} {AlikeFaults : Fault → Fault → Prop} {Alike : α → β → Prop}
  {first : Except Fault α} {second : Except Fault β}

theorem imp {OtherFaults : Fault → Fault → Prop} {Other : α → β → Prop}
    (agree : Agree AlikeFaults Alike first second)
    (faults : ∀ fault other, AlikeFaults fault other → OtherFaults fault other)
    (values : ∀ value other, Alike value other → Other value other) :
    Agree OtherFaults Other first second := by
  cases agree with
  | accepted alike => exact accepted (values _ _ alike)
  | rejected alike => exact rejected (faults _ _ alike)

theorem of_ok {value : α} (agree : Agree AlikeFaults Alike (.ok value) second) :
    ∃ other, second = .ok other ∧ Alike value other := by
  cases agree with
  | accepted alike => exact ⟨_, rfl, alike⟩

theorem of_error {fault : Fault} (agree : Agree AlikeFaults Alike (.error fault) second) :
    ∃ other, second = .error other ∧ AlikeFaults fault other := by
  cases agree with
  | rejected alike => exact ⟨_, rfl, alike⟩

theorem bind {Other : γ → δ → Prop} {next : α → Except Fault γ} {otherNext : β → Except Fault δ}
    (agree : Agree AlikeFaults Alike first second)
    (continued : ∀ value other, Alike value other →
      Agree AlikeFaults Other (next value) (otherNext other)) :
    Agree AlikeFaults Other (first >>= next) (second >>= otherNext) := by
  cases agree with
  | accepted alike => exact continued _ _ alike
  | rejected alike => exact rejected alike

theorem map {Other : γ → δ → Prop} (f : α → γ) (g : β → δ)
    (agree : Agree AlikeFaults Alike first second)
    (values : ∀ value other, Alike value other → Other (f value) (g other)) :
    Agree AlikeFaults Other (first.map f) (second.map g) := by
  cases agree with
  | accepted alike => exact accepted (values _ _ alike)
  | rejected alike => exact rejected alike

/-- Agreement up to equality is equality of what is read off the values. -/
theorem map_eq {f : α → γ} {g : β → γ}
    (agree : Agree Eq (fun value other => f value = g other) first second) :
    first.map f = second.map g := by
  cases agree with
  | accepted alike => exact congrArg Except.ok alike
  | rejected alike => exact congrArg Except.error alike

/-- Passes that keep a state agree if their steps do. -/
theorem foldlM {σ τ : Type} {AlikeStates : σ → τ → Prop} {step : σ → α → Except Fault σ}
    {otherStep : τ → β → Except Fault τ} {items : List α} {others : List β}
    (step_agree : ∀ state other item otherItem, AlikeStates state other → Alike item otherItem →
      Agree AlikeFaults AlikeStates (step state item) (otherStep other otherItem))
    (alike : List.Forall₂ Alike items others) {start : σ} {otherStart : τ}
    (started : AlikeStates start otherStart) :
    Agree AlikeFaults AlikeStates (items.foldlM step start)
      (others.foldlM otherStep otherStart) := by
  induction alike generalizing start otherStart with
  | nil => exact accepted started
  | cons item _ ih =>
      rw [List.foldlM_cons, List.foldlM_cons]
      exact (step_agree _ _ _ _ started item).bind fun _ _ reached => ih reached

/-- Passes over the same items agree if their steps do at each of these items. -/
theorem foldlM_self {σ τ : Type} {AlikeStates : σ → τ → Prop} {step : σ → α → Except Fault σ}
    {otherStep : τ → α → Except Fault τ} {items : List α}
    (step_agree : ∀ item ∈ items, ∀ state other, AlikeStates state other →
      Agree AlikeFaults AlikeStates (step state item) (otherStep other item))
    {start : σ} {otherStart : τ} (started : AlikeStates start otherStart) :
    Agree AlikeFaults AlikeStates (items.foldlM step start)
      (items.foldlM otherStep otherStart) := by
  have same : List.Forall₂ (fun item other => item = other ∧ item ∈ items) items items :=
    List.forall₂_same.mpr fun _ member => ⟨rfl, member⟩
  refine foldlM ?_ same started
  intro state other item _ states both
  obtain ⟨rfl, member⟩ := both
  exact step_agree item member state other states

/-- Passes that treat each item by itself agree if they do on each item. -/
theorem mapM {Other : γ → δ → Prop} {f : α → Except Fault γ} {g : β → Except Fault δ}
    {items : List α} {others : List β}
    (item_agree : ∀ item other, Alike item other → Agree AlikeFaults Other (f item) (g other))
    (alike : List.Forall₂ Alike items others) :
    Agree AlikeFaults (List.Forall₂ Other) (items.mapM f) (others.mapM g) := by
  induction alike with
  | nil => exact accepted .nil
  | cons item _ ih =>
      rw [List.mapM_cons, List.mapM_cons]
      refine (item_agree _ _ item).bind fun head otherHead headsAlike => ?_
      exact ih.map (head :: ·) (otherHead :: ·) fun _ _ tails => .cons headsAlike tails

end Agree

end HackAssembler
