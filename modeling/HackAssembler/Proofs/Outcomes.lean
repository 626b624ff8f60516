/-! # Computations that may fail

The outcome of a computation that may fail determines those of its parts: the computations that it
runs one after another, those whose value or fault it only wraps, and the items of a pass over a
list. A pass that treats each item by itself fails at the first item at which it fails
(`mapM_eq_error_iff`).
-/

namespace HackAssembler

variable {α β σ ε : Type}

/-! ### Parts of a computation -/

section Parts

variable {result : Except ε α} {next : α → Except ε β}

theorem bind_eq_ok_iff {value : β} :
    result >>= next = .ok value ↔ ∃ first, result = .ok first ∧ next first = .ok value := by
  cases result <;> simp [bind, Except.bind]

theorem bind_eq_error_iff {fault : ε} :
    result >>= next = .error fault ↔
      result = .error fault ∨ ∃ first, result = .ok first ∧ next first = .error fault := by
  cases result <;> simp [bind, Except.bind]

theorem map_eq_ok_iff {f : α → β} {value : β} :
    result.map f = .ok value ↔ ∃ given, result = .ok given ∧ f given = value := by
  cases result <;> simp [Except.map]

theorem map_eq_error_iff {f : α → β} {fault : ε} :
    result.map f = .error fault ↔ result = .error fault := by
  cases result <;> simp [Except.map]

theorem mapError_eq_ok_iff {ε' : Type} {wrap : ε → ε'} {value : α} :
    result.mapError wrap = .ok value ↔ result = .ok value := by
  cases result with
  | error fault => exact ⟨(nomatch ·), (nomatch ·)⟩
  | ok given => exact ⟨by rintro ⟨⟩; rfl, by rintro ⟨⟩; rfl⟩

theorem toOption_eq_some_iff {value : α} : result.toOption = some value ↔ result = .ok value := by
  cases result <;> simp [Except.toOption]

end Parts

/-! ### Passes over a list -/

theorem foldlM_eq_ok_congr {f g : σ → α → Except ε σ}
    (same : ∀ state item next, f state item = .ok next ↔ g state item = .ok next)
    {items : List α} {start result : σ} :
    items.foldlM f start = .ok result ↔ items.foldlM g start = .ok result := by
  induction items generalizing start with
  | nil => exact Iff.rfl
  | cons item items ih => simp only [List.foldlM_cons, bind_eq_ok_iff, same, ih]

theorem foldlM_eq_ok_of_forall_eq_ok {step : σ → α → Except ε σ} {state : σ} {items : List α}
    (still : ∀ item ∈ items, step state item = .ok state) :
    items.foldlM step state = .ok state := by
  induction items with
  | nil => rfl
  | cons item items ih =>
      rw [List.foldlM_cons, still item List.mem_cons_self]
      exact ih fun other member => still other (List.mem_cons_of_mem _ member)

theorem exists_mapM_eq_ok {f : α → Except ε β} {items : List α}
    (passed : ∀ item ∈ items, ∃ value, f item = .ok value) :
    ∃ values, items.mapM f = .ok values := by
  induction items with
  | nil => exact ⟨[], rfl⟩
  | cons item items ih =>
      obtain ⟨⟨value, passes⟩, others⟩ := List.forall_mem_cons.mp passed
      obtain ⟨values, rest⟩ := ih others
      refine ⟨value :: values, ?_⟩
      rw [List.mapM_cons, passes, rest]
      rfl

theorem mapM_eq_error_iff {f : α → Except ε β} {items : List α} {fault : ε} :
    items.mapM f = .error fault ↔
      ∃ earlier item later, items = earlier ++ item :: later ∧ f item = .error fault ∧
        ∀ other ∈ earlier, ∃ value, f other = .ok value := by
  constructor
  · intro failed
    induction items with
    | nil => cases failed
    | cons first rest ih =>
        rw [List.mapM_cons, bind_eq_error_iff] at failed
        rcases failed with failedFirst | ⟨value, passedFirst, failedRest⟩
        · exact ⟨[], first, rest, rfl, failedFirst, nofun⟩
        · rcases bind_eq_error_iff.mp failedRest with failedRest | ⟨_, _, passed⟩
          · obtain ⟨earlier, item, later, rfl, failedItem, passed⟩ := ih failedRest
            exact ⟨first :: earlier, item, later, rfl, failedItem,
              List.forall_mem_cons.mpr ⟨⟨value, passedFirst⟩, passed⟩⟩
          · cases passed
  · rintro ⟨earlier, item, later, rfl, failed, passed⟩
    obtain ⟨values, before⟩ := exists_mapM_eq_ok passed
    rw [List.mapM_append, before, List.mapM_cons, failed]
    rfl

end HackAssembler
