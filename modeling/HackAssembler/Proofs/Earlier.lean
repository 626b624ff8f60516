import Mathlib.Data.List.Induction

/-! # Items with what stands before them

What a pass over a program does at an item may depend on the items before it and on nothing after
it. `withEarlier` pairs each item of a list with the items before it, so that such a dependence can
be stated without the state that the pass keeps.
-/

namespace HackAssembler

variable {α β : Type}

/-- Each item of a list with the items before it. -/
def withEarlier (items : List α) : List (List α × α) :=
  items.zipIdx.map fun (item, position) => (items.take position, item)

@[simp] theorem withEarlier_nil : withEarlier ([] : List α) = [] := rfl

/-- An item at the end sees all others, and none of them sees it. -/
theorem withEarlier_append_singleton (items : List α) (item : α) :
    withEarlier (items ++ [item]) = withEarlier items ++ [(items, item)] := by
  unfold withEarlier
  rw [List.zipIdx_append, List.map_append]
  congr 1
  · apply List.map_congr_left
    intro pair member
    obtain ⟨earlier, position⟩ := pair
    have inside : position < items.length := List.snd_lt_of_mem_zipIdx member
    simp only [List.take_append_of_le_length (Nat.le_of_lt inside)]
  · simp

theorem mem_withEarlier {items earlier : List α} {item : α} :
    (earlier, item) ∈ withEarlier items ↔ ∃ later, items = earlier ++ item :: later := by
  induction items using List.reverseRecOn with
  | nil => simp
  | append_singleton items last ih =>
      rw [withEarlier_append_singleton, List.mem_append, ih, List.mem_singleton]
      constructor
      · intro paired
        rcases paired with ⟨later, rfl⟩ | same
        · exact ⟨later ++ [last], by simp⟩
        · cases same
          exact ⟨[], rfl⟩
      · intro splits
        obtain ⟨later, split⟩ := splits
        rcases List.eq_nil_or_concat later with rfl | ⟨init, final, rfl⟩
        · obtain ⟨rfl, same⟩ := List.append_inj' split rfl
          cases same
          exact Or.inr rfl
        · refine Or.inl ⟨init, ?_⟩
          rw [List.concat_eq_append, ← List.cons_append, ← List.append_assoc] at split
          exact (List.append_inj' split rfl).1

@[simp] theorem map_snd_withEarlier (items : List α) :
    (withEarlier items).map Prod.snd = items := by
  induction items using List.reverseRecOn with
  | nil => rfl
  | append_singleton items last ih =>
      rw [withEarlier_append_singleton, List.map_append, ih]
      rfl

/-- What a pass finds first, it finds at an item before which it finds nothing. -/
theorem exists_first_of_flatMap_withEarlier {found : List α → α → List β} {items : List α}
    {first : β} {others : List β}
    (collected : ((withEarlier items).flatMap fun pair => found pair.1 pair.2) =
      first :: others) :
    ∃ earlier item later, items = earlier ++ item :: later ∧
      (found earlier item).head? = some first ∧
      ∀ pair ∈ withEarlier earlier, found pair.1 pair.2 = [] := by
  induction items using List.reverseRecOn generalizing others with
  | nil => cases collected
  | append_singleton items last ih =>
      rw [withEarlier_append_singleton, List.flatMap_append, List.flatMap_singleton] at collected
      cases before : (withEarlier items).flatMap fun pair => found pair.1 pair.2 with
      | nil =>
          rw [before, List.nil_append] at collected
          exact ⟨items, last, [], rfl, congrArg List.head? collected,
            List.flatMap_eq_nil_iff.mp before⟩
      | cons earliest more =>
          rw [before, List.cons_append] at collected
          cases collected
          obtain ⟨earlier, item, later, rfl, atItem, nothing⟩ := ih before
          exact ⟨earlier, item, later ++ [last], by simp, atItem, nothing⟩

end HackAssembler
