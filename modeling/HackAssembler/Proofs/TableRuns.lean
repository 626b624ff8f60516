import HackAssembler.Proofs.Allocation
import Mathlib.Data.List.Dedup

/-! # What is done to a table of symbols

Symbols are put into a table one by one, or by a pass over a program. Whatever is done, the table
grows at its end, so an entry that is present stays where it is (`SymbolTable.isPrefix_of_run?`).
After single insertions the table has the first entry of each name, in the order of these first
entries, and it is read accordingly (`OrderedMap.toList_foldl_insertIfNew`).
`SymbolTable.run?_keeps_entries` puts this together.
-/

namespace HackAssembler

/-! ### First entries -/

section

variable {β : Type} {entries : List (String × β)}

/-- The first entry of each name, in order. -/
def firstEntries (entries : List (String × β)) : List (String × β) :=
  ((withEarlier entries).filter fun (earlier, entry) =>
    entry.1 ∉ earlier.map Prod.fst).map Prod.snd

theorem firstEntries_append_singleton (entries : List (String × β)) (entry : String × β) :
    firstEntries (entries ++ [entry]) =
      firstEntries entries ++ if entry.1 ∈ entries.map Prod.fst then [] else [entry] := by
  unfold firstEntries
  rw [withEarlier_append_singleton, List.filter_append, List.map_append]
  by_cases known : entry.1 ∈ entries.map Prod.fst <;> simp [known]

/-- The first entries have all names. -/
theorem mem_names_firstEntries {name : String} :
    name ∈ (firstEntries entries).map Prod.fst ↔ name ∈ entries.map Prod.fst := by
  induction entries using List.reverseRecOn with
  | nil => rfl
  | append_singleton entries entry ih =>
      rw [firstEntries_append_singleton, List.map_append, List.mem_append, ih, List.map_append,
        List.mem_append]
      split
      · next known =>
          have again : name ∈ [entry].map Prod.fst → name ∈ entries.map Prod.fst := by
            intro same
            rw [List.mem_singleton.mp same]
            exact known
          simp only [List.map_nil, List.not_mem_nil, or_false]
          exact ⟨Or.inl, fun met => met.elim id again⟩
      · rfl

theorem nodup_names_firstEntries (entries : List (String × β)) :
    ((firstEntries entries).map Prod.fst).Nodup := by
  induction entries using List.reverseRecOn with
  | nil => exact List.nodup_nil
  | append_singleton entries entry ih =>
      rw [firstEntries_append_singleton]
      split
      · rw [List.append_nil]
        exact ih
      · next new =>
          rw [List.map_append, List.map_singleton, ← List.concat_eq_append, List.nodup_concat,
            mem_names_firstEntries]
          exact ⟨new, ih⟩

/-- Entries of distinct names are all first ones. -/
theorem firstEntries_eq_self (distinct : (entries.map Prod.fst).Nodup) :
    firstEntries entries = entries := by
  induction entries using List.reverseRecOn with
  | nil => rfl
  | append_singleton entries entry ih =>
      rw [List.map_append, List.map_singleton, ← List.concat_eq_append, List.nodup_concat]
        at distinct
      rw [firstEntries_append_singleton, ih distinct.2, if_neg distinct.1]

/-- A name is looked up at its first entry. -/
theorem lookup_firstEntries (entries : List (String × β)) (name : String) :
    (firstEntries entries).lookup name = entries.lookup name := by
  induction entries using List.reverseRecOn with
  | nil => rfl
  | append_singleton entries entry ih =>
      rw [firstEntries_append_singleton, List.lookup_append, List.lookup_append, ih]
      split
      · next known =>
          rw [List.lookup_nil, Option.or_none]
          by_cases same : name = entry.1
          · obtain ⟨first, member, named⟩ := List.mem_map.mp known
            have found : (entries.lookup name).isSome = true := by
              rw [← Option.ne_none_iff_isSome, Ne, List.lookup_eq_none_iff]
              intro absent
              exact bne_iff_ne.mp (absent first member) (same.trans named.symm)
            rw [Option.or_of_isSome found]
          · rw [List.lookup_cons, beq_false_of_ne same, List.lookup_nil, Option.or_none]
      · rfl

theorem length_firstEntries (entries : List (String × β)) :
    (firstEntries entries).length = (entries.map Prod.fst).dedup.length := by
  have same : ((firstEntries entries).map Prod.fst).Perm (entries.map Prod.fst).dedup := by
    rw [List.perm_ext_iff_of_nodup (nodup_names_firstEntries entries) (List.nodup_dedup _)]
    intro name
    rw [mem_names_firstEntries, List.mem_dedup]
  simpa using same.length_eq

end

namespace OrderedMap

variable {β : Type}

/-- Insertions leave the first entry of each name. -/
theorem toList_foldl_insertIfNew (map : OrderedMap β) (entries : List (String × β)) :
    (entries.foldl (fun map entry => map.insertIfNew entry.1 entry.2) map).toList =
      firstEntries (map.toList ++ entries) := by
  induction entries using List.reverseRecOn with
  | nil =>
      rw [List.append_nil]
      exact (firstEntries_eq_self map.nodup_names).symm
  | append_singleton entries entry ih =>
      rw [List.foldl_append, List.foldl_cons, List.foldl_nil, ← List.append_assoc,
        firstEntries_append_singleton]
      split
      · next known =>
          rw [← mem_names_firstEntries, ← ih] at known
          obtain ⟨value, present⟩ := contains_iff.mp (contains_iff_mem_names.mpr known)
          rw [insertIfNew_of_mem present, List.append_nil, ih]
      · next new =>
          rw [← mem_names_firstEntries, ← ih, ← get?_eq_none_iff] at new
          rw [toList_insertIfNew_of_new new, ih]

end OrderedMap

/-! ### Operations -/

namespace SymbolTable

/-- What is done to a table of symbols: a symbol is inserted, or a program is passed over. -/
inductive Operation where
  | insert (name : String) (symbol : Symbol)
  | bindLabels (program : List (Located Statement))
  | bindVariables (program : List (Located Instruction))

/-- The table after an operation; `none` if it is a pass that fails. -/
def after? (symbols : SymbolTable) : Operation → Option SymbolTable
  | .insert name symbol => some (symbols.insertIfNew name symbol)
  | .bindLabels program => (resolveLabels symbols program).toOption.map Prod.fst
  | .bindVariables program => (resolveVariables symbols program).toOption.map Prod.fst

/-- The table after operations one after another, as long as none fails. -/
def run? (symbols : SymbolTable) (operations : List Operation) : Option SymbolTable :=
  operations.foldlM after? symbols

variable {symbols later : SymbolTable}

/-- An operation leaves the entries of a table and adds others behind them. -/
theorem isPrefix_of_after? {operation : Operation}
    (stepped : symbols.after? operation = some later) : symbols.toList <+: later.toList := by
  cases operation with
  | insert name symbol =>
      cases stepped
      cases known : symbols.get? name with
      | some present =>
          have same := OrderedMap.insertIfNew_of_mem (OrderedMap.get?_eq_some_iff.mp known) symbol
          exact same.symm ▸ List.prefix_rfl
      | none =>
          rw [OrderedMap.toList_insertIfNew_of_new known]
          exact List.prefix_append _ _
  | bindLabels program =>
      obtain ⟨_, bound, rfl⟩ := Option.map_eq_some_iff.mp stepped
      rw [toOption_eq_some_iff] at bound
      have verdict := resolveLabels_verdict symbols program
      rw [bound] at verdict
      rw [verdict.of_ok.2.1]
      exact List.prefix_append _ _
  | bindVariables program =>
      obtain ⟨_, bound, rfl⟩ := Option.map_eq_some_iff.mp stepped
      rw [toOption_eq_some_iff] at bound
      have verdict := resolveVariables_verdict symbols program
      rw [bound] at verdict
      rw [verdict.of_ok.2.1]
      exact List.prefix_append _ _

theorem isPrefix_of_run? {operations : List Operation}
    (ran : symbols.run? operations = some later) : symbols.toList <+: later.toList := by
  unfold run? at ran
  induction operations generalizing symbols with
  | nil =>
      cases ran
      exact List.prefix_rfl
  | cons operation operations ih =>
      rw [List.foldlM_cons] at ran
      obtain ⟨next, stepped, continued⟩ := Option.bind_eq_some_iff.mp ran
      exact (isPrefix_of_after? stepped).trans (ih continued)

theorem run?_insertions (symbols : SymbolTable) (insertions : List (String × Symbol)) :
    symbols.run? (insertions.map fun entry => .insert entry.1 entry.2) =
      some (insertions.foldl (fun map entry => map.insertIfNew entry.1 entry.2) symbols) := by
  unfold run?
  rw [List.foldlM_map]
  exact List.foldlM_pure

/-- **Entries stay.** Whatever table of distinct names a run has come to, be it the empty one, that of
a dialect or any other, what is done to it afterwards leaves each entry at its position. Inserting a
known name gives its entry and changes nothing, and inserting a new one adds the entry at the end.
After single insertions the table has the first entry of each name, in order, and its size and what
is looked up in it are accordingly. -/
theorem run?_keeps_entries (symbols : SymbolTable) :
    (∀ operations later, symbols.run? operations = some later →
      (later.toList.map Prod.fst).Nodup ∧
      ∀ (position : Nat) (entry : String × Symbol), symbols.toList[position]? = some entry →
        later.toList[position]? = some entry) ∧
    (∀ name symbol known, (name, known) ∈ symbols.toList →
      symbols.getThenInsertIfNew? name symbol = (some known, symbols)) ∧
    (∀ name symbol, name ∉ symbols.toList.map Prod.fst →
      ∃ later, symbols.getThenInsertIfNew? name symbol = (none, later) ∧
        later.toList = symbols.toList ++ [(name, symbol)]) ∧
    ∀ insertions, ∃ later,
      symbols.run? (insertions.map fun entry => .insert entry.1 entry.2) = some later ∧
      later.toList = firstEntries (symbols.toList ++ insertions) ∧
      later.size = ((symbols.toList ++ insertions).map Prod.fst).dedup.length ∧
      ∀ name, later.get? name = (symbols.toList ++ insertions).lookup name ∧
        later.value? name = ((symbols.toList ++ insertions).lookup name).map Symbol.value ∧
        (later.contains name = true ↔ name ∈ (symbols.toList ++ insertions).map Prod.fst) := by
  refine ⟨?_, ?_, ?_, ?_⟩
  · intro operations later ran
    refine ⟨later.nodup_names, fun position entry present => ?_⟩
    obtain ⟨inside, same⟩ := List.getElem?_eq_some_iff.mp present
    rw [List.prefix_iff_getElem?.mp (isPrefix_of_run? ran) position inside, same]
  · intro name symbol known present
    rw [OrderedMap.getThenInsertIfNew?_eq, OrderedMap.get?_eq_some_iff.mpr present,
      OrderedMap.insertIfNew_of_mem present]
  · intro name symbol new
    rw [← OrderedMap.get?_eq_none_iff] at new
    refine ⟨_, ?_, OrderedMap.toList_insertIfNew_of_new new⟩
    rw [OrderedMap.getThenInsertIfNew?_eq, new]
  · intro insertions
    have listed := OrderedMap.toList_foldl_insertIfNew symbols insertions
    refine ⟨_, run?_insertions symbols insertions, listed, ?_, ?_⟩
    · rw [← OrderedMap.length_toList, listed, length_firstEntries]
    · intro name
      have found : OrderedMap.get? (insertions.foldl
          (fun map entry => map.insertIfNew entry.1 entry.2) symbols) name =
          (symbols.toList ++ insertions).lookup name := by
        rw [← OrderedMap.lookup_toList, listed, lookup_firstEntries]
      refine ⟨found, congrArg (Option.map Symbol.value) found, ?_⟩
      rw [OrderedMap.contains_iff_mem_names, listed, mem_names_firstEntries]

/-- A label that a program uses is no variable of it, and stays a label when it is inserted again. -/
theorem run?_keeps_entries_label :
    ∃ symbols later : SymbolTable, symbols.toList = [("x", ⟨.label, 3, some 1⟩)] ∧
      symbols.run? [.bindVariables [⟨5, .load (.written "y")⟩, ⟨6, .load (.written "x")⟩],
        .insert "x" ⟨.variable, 16, none⟩] = some later ∧
      later.toList[0]? = some ("x", ⟨.label, 3, some 1⟩) ∧
      symbols.getThenInsertIfNew? "x" ⟨.variable, 16, none⟩ =
        (some ⟨.label, 3, some 1⟩, symbols) ∧
      ∃ extended, symbols.getThenInsertIfNew? "y" ⟨.variable, 16, none⟩ = (none, extended) ∧
        extended.toList = [("x", ⟨.label, 3, some 1⟩), ("y", ⟨.variable, 16, none⟩)] := by
  have listed : (OrderedMap.ofList [("x", (⟨.label, 3, some 1⟩ : Symbol))]).toList =
      [("x", ⟨.label, 3, some 1⟩)] := OrderedMap.toList_ofList (by decide)
  generalize OrderedMap.ofList [("x", (⟨.label, 3, some 1⟩ : Symbol))] = symbols at listed
  obtain ⟨⟨later, evaluated⟩, bound⟩ : ∃ result, resolveVariables symbols
      [⟨5, .load (.written "y")⟩, ⟨6, .load (.written "x")⟩] = .ok result := by
    rw [resolveVariables_ok_iff, listed, ← flatMap_allocationFlaws_eq_nil_iff]
    decide +kernel
  have ran : run? symbols [.bindVariables [⟨5, .load (.written "y")⟩, ⟨6, .load (.written "x")⟩],
      .insert "x" ⟨.variable, 16, none⟩] =
        some (later.insertIfNew "x" ⟨.variable, 16, none⟩) := by
    simp only [run?, List.foldlM_cons, after?, bound]
    rfl
  obtain ⟨kept, known, new, _⟩ := run?_keeps_entries symbols
  obtain ⟨extended, added, extendedList⟩ := new "y" ⟨.variable, 16, none⟩ (by rw [listed]; decide)
  refine ⟨symbols, _, listed, ran, (kept _ _ ran).2 0 _ (by rw [listed]; rfl),
    known "x" _ _ (by rw [listed]; decide), extended, added, ?_⟩
  rw [extendedList, listed]
  rfl

end SymbolTable

end HackAssembler
