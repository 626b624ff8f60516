import HackAssembler.Proofs.SourceLines
import HackAssembler.Proofs.WellFormed

/-! # Binding labels in any table

The label pass may start from any table of symbols and go over any statements, on whatever lines. It
stops at the first declaration that cannot be bound, because of the instructions before it or
because of its name (`Unbindable`). If there is none, it adds the labels behind the symbols of the
table and leaves the instructions. `resolveLabels_outcome` puts this together.
-/

namespace HackAssembler

def Statement.isInstruction : Statement → Bool
  | instruction _ => true
  | label _ => false

/-- Why a label cannot be bound behind some statements: there are too many instructions among them,
the table has its name, or one of them declares it. The line of the other declaration is told. -/
inductive Unbindable (symbols : SymbolTable) (earlier : List (Located Statement))
    (name : String) : Fault.Cause → Prop
  | distant (distant : 65535 < (instructions earlier).length) :
      Unbindable symbols earlier name (.addressOverflow (.written name))
  | known {symbol : Symbol} (near : (instructions earlier).length ≤ 65535)
      (known : symbols.get? name = some symbol) :
      Unbindable symbols earlier name (.duplicateLabel name symbol.line)
  | repeated {line : Nat} (near : (instructions earlier).length ≤ 65535)
      (new : symbols.get? name = none)
      (declared : (⟨line, .label name⟩ : Located Statement) ∈ earlier) :
      Unbindable symbols earlier name (.duplicateLabel name (some line))

variable {symbols : SymbolTable} {program earlier : List (Located Statement)}

/-! ### Where the pass stops -/

theorem exists_declaration_of_lookup {name : String} {symbol : Symbol}
    (found : (labelEntries earlier).lookup name = some symbol) :
    ∃ line, symbol.line = some line ∧ (⟨line, .label name⟩ : Located Statement) ∈ earlier := by
  have lines := map_line_lookup_labelEntries earlier name
  rw [found, Option.map_some] at lines
  obtain ⟨⟨line, item⟩, declared, same⟩ := Option.map_eq_some_iff.mp lines.symm
  have named := List.find?_some declared
  cases of_decide_eq_true named
  exact ⟨line, same.symm, List.mem_of_find?_eq_some declared⟩

theorem unbindable_of_head?_labelFlaws {statement : Located Statement} {flaw : Flaw}
    (first : (labelFlaws symbols.toList earlier statement).head? = some flaw) :
    ∃ name cause, statement.item = .label name ∧ flaw.fault = ⟨cause, statement.line⟩ ∧
      Unbindable symbols earlier name cause := by
  obtain ⟨line, item⟩ := statement
  cases item with
  | instruction body => cases first
  | label name =>
      by_cases near : (instructions earlier).length ≤ symbolMax
      · simp only [labelFlaws, near, ↓reduceIte, List.nil_append, Option.head?_toList,
          List.lookup_append, OrderedMap.lookup_toList] at first
        obtain ⟨symbol, found, rfl⟩ := Option.map_eq_some_iff.mp first
        refine ⟨name, _, rfl, rfl, ?_⟩
        cases old : symbols.get? name with
        | some other =>
            rw [old, Option.some_or, Option.some.injEq] at found
            subst found
            exact .known near old
        | none =>
            rw [old, Option.none_or] at found
            obtain ⟨declaration, same, declared⟩ := exists_declaration_of_lookup found
            rw [same]
            exact .repeated near old declared
      · simp only [labelFlaws, near, ↓reduceIte, List.singleton_append, List.head?_cons,
          Option.some.injEq] at first
        subst first
        exact ⟨name, _, rfl, rfl, .distant (Nat.lt_of_not_le near)⟩

theorem not_unbindable_of_labelFlaws_eq_nil {line : Nat} {name : String} {cause : Fault.Cause}
    (flawless : labelFlaws symbols.toList earlier ⟨line, .label name⟩ = []) :
    ¬ Unbindable symbols earlier name cause := by
  obtain ⟨near, new⟩ := labelFlaws_label_eq_nil_iff.mp flawless
  rw [List.map_append, List.mem_append, not_or] at new
  intro unbindable
  cases unbindable with
  | distant distant => exact Nat.not_lt.mpr near distant
  | known _ known =>
      rw [OrderedMap.get?_eq_none_iff.mpr new.1] at known
      cases known
  | repeated _ _ declared => exact new.2 (mem_names_labelEntries.mpr ⟨_, declared⟩)

/-- The pass fails at the first declaration that cannot be bound. -/
theorem first_unbindable_of_error {fault : Fault}
    (failed : resolveLabels symbols program = .error fault) :
    ∃ earlier line name later cause, program = earlier ++ ⟨line, .label name⟩ :: later ∧
      fault = ⟨cause, line⟩ ∧ Unbindable symbols earlier name cause ∧
      ∀ before other otherName otherCause,
        (before, ⟨other, .label otherName⟩) ∈ withEarlier earlier →
          ¬ Unbindable symbols before otherName otherCause := by
  have verdict : Verdict _ ((withEarlier program).flatMap fun pair =>
      labelFlaws symbols.toList pair.1 pair.2) (.error fault) :=
    failed ▸ resolveLabels_verdict symbols program
  obtain ⟨earlier, ⟨line, item⟩, later, flaw, split, first, rfl, none⟩ := verdict.exists_first
  obtain ⟨name, cause, rfl, same, unbindable⟩ := unbindable_of_head?_labelFlaws first
  refine ⟨earlier, line, name, later, cause, split, same, unbindable, ?_⟩
  intro before other otherName otherCause paired
  exact not_unbindable_of_labelFlaws_eq_nil (none _ paired)

/-- The pass goes through exactly if the labels have distinct and new names and are near. -/
theorem resolveLabels_ok_iff :
    (∃ result, resolveLabels symbols program = .ok result) ↔
      ((labelEntries program).map Prod.fst).Nodup ∧
      (∀ entry ∈ labelEntries program, symbols.contains entry.1 = false) ∧
      ∀ entry ∈ labelEntries program, entry.2.value ≤ 65535 := by
  rw [(resolveLabels_verdict symbols program).exists_ok_iff,
    flatMap_labelFlaws_eq_nil_iff symbols.nodup_names, List.map_append, List.nodup_append]
  refine Iff.trans (and_congr_left fun _ => ?_) and_assoc
  simp only [symbols.nodup_names, true_and, ← Bool.not_eq_true, OrderedMap.contains_iff_mem_names]
  refine and_congr_right fun _ => ⟨?_, ?_⟩
  · intro apart entry member known
    exact apart _ known _ (List.mem_map_of_mem member) rfl
  · intro new name known other label same
    obtain ⟨entry, member, rfl⟩ := List.mem_map.mp label
    exact new entry member (same ▸ known)

/-! ### What the pass leaves -/

theorem map_statement_instructions (program : List (Located Statement)) :
    (instructions program).map Located.statement =
      program.filter fun statement => statement.item.isInstruction := by
  induction program with
  | nil => rfl
  | cons statement program ih =>
      obtain ⟨line, item⟩ := statement
      cases item with
      | label name => exact ih
      | instruction body => exact congrArg (_ :: ·) ih

theorem value_le_of_mem_labelEntries {entry : String × Symbol}
    (member : entry ∈ labelEntries program) :
    entry.2.value ≤ (instructions program).length := by
  obtain ⟨⟨earlier, line, item⟩, paired, bound⟩ := List.mem_filterMap.mp member
  cases item with
  | instruction body => cases bound
  | label name =>
      cases bound
      obtain ⟨later, rfl⟩ := mem_withEarlier.mp paired
      rw [instructions_append, List.length_append]
      exact Nat.le_add_right _ _

/-- Addresses of labels do not descend along a program. -/
theorem pairwise_value_labelEntries (program : List (Located Statement)) :
    ((labelEntries program).map fun entry => entry.2.value).Pairwise (· ≤ ·) := by
  -- By induction at the end: a label more stands behind all instructions so far.
  induction program using List.reverseRecOn with
  | nil => exact .nil
  | append_singleton program statement ih =>
      obtain ⟨line, item⟩ := statement
      rw [labelEntries_append_singleton, List.map_append, List.pairwise_append]
      refine ⟨ih, ?_, ?_⟩
      · cases item with
        | instruction body => exact .nil
        | label name => exact List.pairwise_singleton _ _
      · intro value earlier last added
        obtain ⟨entry, member, rfl⟩ := List.mem_map.mp earlier
        cases item with
        | instruction body => cases added
        | label name =>
            rw [List.mem_singleton.mp added]
            exact value_le_of_mem_labelEntries member

/-- **Labels from any table.** The pass goes through exactly if the declared names are distinct,
none of them is in the table, and none stands behind more than 65535 instructions. It leaves the
instructions, and behind the symbols of the table the labels, at addresses that do not descend.
Otherwise the fault is that of the first declaration that cannot be bound. -/
theorem resolveLabels_outcome (symbols : SymbolTable) (program : List (Located Statement)) :
    ((∃ result, resolveLabels symbols program = .ok result) ↔
      ((labelEntries program).map Prod.fst).Nodup ∧
      (∀ entry ∈ labelEntries program, symbols.contains entry.1 = false) ∧
      ∀ entry ∈ labelEntries program, entry.2.value ≤ 65535) ∧
    (∀ labelled written, resolveLabels symbols program = .ok (labelled, written) →
      written.map Located.statement =
        program.filter (fun statement => statement.item.isInstruction) ∧
      labelled.toList = symbols.toList ++ labelEntries program ∧
      ((labelEntries program).map fun entry => entry.2.value).Pairwise (· ≤ ·) ∧
      ∀ entry ∈ labelEntries program, entry.2.value ≤ written.length) ∧
    ∀ fault, resolveLabels symbols program = .error fault →
      ∃ earlier line name later cause, program = earlier ++ ⟨line, .label name⟩ :: later ∧
        fault = ⟨cause, line⟩ ∧ Unbindable symbols earlier name cause ∧
        ∀ before other otherName otherCause,
          (before, ⟨other, .label otherName⟩) ∈ withEarlier earlier →
            ¬ Unbindable symbols before otherName otherCause := by
  refine ⟨resolveLabels_ok_iff, ?_, fun _ => first_unbindable_of_error⟩
  intro labelled written bound
  have verdict := resolveLabels_verdict symbols program
  rw [bound] at verdict
  obtain ⟨table, rfl⟩ := verdict.of_ok.2
  exact ⟨map_statement_instructions program, table, pairwise_value_labelEntries program,
    fun _ => value_le_of_mem_labelEntries⟩

/-- Lines are only carried along: they may repeat and descend. Two labels may share an address. -/
theorem resolveLabels_outcome_shared_address :
    ∃ labelled written,
      resolveLabels (.ofList [("x", ⟨.variable, 16, some 2⟩)])
          [⟨4, .label "A"⟩, ⟨4, .instruction (.load (.written "x"))⟩, ⟨1, .label "B"⟩,
            ⟨1, .label "C"⟩] = .ok (labelled, written) ∧
      written.map Located.statement = [⟨4, .instruction (.load (.written "x"))⟩] ∧
      labelled.toList = [("x", ⟨.variable, 16, some 2⟩), ("A", ⟨.label, 0, some 4⟩),
        ("B", ⟨.label, 1, some 1⟩), ("C", ⟨.label, 1, some 1⟩)] := by
  have listed : (OrderedMap.ofList [("x", (⟨.variable, 16, some 2⟩ : Symbol))]).toList =
      [("x", ⟨.variable, 16, some 2⟩)] := OrderedMap.toList_ofList (by decide)
  have new : ∀ entry ∈ labelEntries [⟨4, .label "A"⟩,
      ⟨4, .instruction (.load (.written "x"))⟩, ⟨1, .label "B"⟩, ⟨1, .label "C"⟩],
      (OrderedMap.ofList [("x", (⟨.variable, 16, some 2⟩ : Symbol))]).contains entry.1 = false := by
    simp only [← Bool.not_eq_true, OrderedMap.contains_iff_mem_names, listed]
    decide
  obtain ⟨⟨labelled, written⟩, bound⟩ :=
    (resolveLabels_outcome (.ofList [("x", ⟨.variable, 16, some 2⟩)]) [⟨4, .label "A"⟩,
      ⟨4, .instruction (.load (.written "x"))⟩, ⟨1, .label "B"⟩, ⟨1, .label "C"⟩]).1.mpr
      ⟨by decide, new, by decide⟩
  obtain ⟨left, table, _⟩ := (resolveLabels_outcome _ _).2.1 labelled written bound
  refine ⟨labelled, written, bound, left, ?_⟩
  rw [table, listed]
  decide

end HackAssembler
