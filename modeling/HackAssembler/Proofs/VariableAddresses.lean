import HackAssembler.Dialect.Sections
import HackAssembler.Proofs.Passes

/-! # Addresses of variables

The variables that a program adds to a table of symbols get the addresses from `firstVariable` on,
in the order of their first uses and whatever the table holds (`resolveVariables_addresses`). No two
of them share an address. A symbol that is in the table before shares one of their addresses exactly
when its value lies in the range that they fill.
-/

namespace HackAssembler

variable {symbols resolved : SymbolTable} {program evaluated : List (Located Instruction)}

/-- Successive variables have successive addresses. -/
theorem map_value_variableEntries (known : List String) (program : List (Located Instruction)) :
    (variableEntries known program).map (fun entry => entry.2.value) =
      List.range' firstVariable (variableEntries known program).length := by
  let uses := freshUses known (symbolUses program)
  calc (variableEntries known program).map (fun entry => entry.2.value)
      = (uses.zipIdx.map Prod.snd).map (firstVariable + ·) := by
        simp only [variableEntries, List.map_map, Function.comp_def, uses]
    _ = (List.range' 0 uses.length).map (firstVariable + ·) := by rw [List.zipIdx_map_snd]
    _ = List.range' firstVariable uses.length := List.map_add_range' 0 uses.length 1
    _ = List.range' firstVariable (variableEntries known program).length := by
        simp only [variableEntries, List.length_map, List.length_zipIdx, uses]

/-- **Variables are numbered without regard to the table.** The symbols that are added are variables
at the addresses from `firstVariable` on, in the order of their first uses, so no two share one. An
old symbol shares an address with one of them exactly when its value is in the range they fill. -/
theorem resolveVariables_addresses
    (bound : resolveVariables symbols program = .ok (resolved, evaluated)) :
    ∃ added : List (String × Symbol), resolved.toList = symbols.toList ++ added ∧
      added.map Prod.fst =
        (freshUses (symbols.toList.map Prod.fst) (symbolUses program)).map Located.item ∧
      (∀ entry ∈ added, entry.2.kind = .variable) ∧
      added.map (fun entry => entry.2.value) = List.range' firstVariable added.length ∧
      (added.map fun entry => entry.2.value).Nodup ∧
      ∀ old ∈ symbols.toList, (∃ entry ∈ added, entry.2.value = old.2.value) ↔
        firstVariable ≤ old.2.value ∧ old.2.value < firstVariable + added.length := by
  have verdict := resolveVariables_verdict symbols program
  rw [bound] at verdict
  have appended := verdict.of_ok.2.1
  let known := symbols.toList.map Prod.fst
  have addresses := map_value_variableEntries known program
  refine ⟨variableEntries known program, appended, map_fst_variableEntries known program,
    fun _ => kind_of_mem_variableEntries, addresses, ?_, ?_⟩
  · rw [addresses]
    exact List.nodup_range'
  · intro old _
    rw [← List.mem_range'_1, ← addresses, List.mem_map]

/-- A table that has symbols at the addresses 17 and 18 gets two variables, at 16 and 17: one of
them shares the address of a predefined symbol, and none that of the variable at 18. -/
theorem resolveVariables_addresses_occupied :
    ∃ (resolved : SymbolTable) (evaluated : List (Located Instruction))
      (added : List (String × Symbol)),
      resolveVariables (.ofList [("IO", ⟨.predefined, 17, none⟩), ("old", ⟨.variable, 18, some 0⟩)])
          [⟨1, .load (.written "x")⟩, ⟨2, .load (.written "old")⟩, ⟨4, .load (.written "y")⟩] =
        .ok (resolved, evaluated) ∧
      resolved.toList =
        [("IO", ⟨.predefined, 17, none⟩), ("old", ⟨.variable, 18, some 0⟩)] ++ added ∧
      added.map Prod.fst = ["x", "y"] ∧ added.map (fun entry => entry.2.value) = [16, 17] ∧
      (∃ entry ∈ added, entry.2.value = 17) ∧ ¬ ∃ entry ∈ added, entry.2.value = 18 := by
  have listed : (OrderedMap.ofList [("IO", (⟨.predefined, 17, none⟩ : Symbol)),
      ("old", ⟨.variable, 18, some 0⟩)]).toList =
        [("IO", ⟨.predefined, 17, none⟩), ("old", ⟨.variable, 18, some 0⟩)] :=
    OrderedMap.toList_ofList (by decide)
  obtain ⟨⟨resolved, evaluated⟩, bound, _⟩ := (resolveVariables_verdict
    (.ofList [("IO", ⟨.predefined, 17, none⟩), ("old", ⟨.variable, 18, some 0⟩)])
    [⟨1, .load (.written "x")⟩, ⟨2, .load (.written "old")⟩, ⟨4, .load (.written "y")⟩]).of_flawless
      (by rw [listed]; decide +kernel)
  obtain ⟨added, appended, names, _, addresses, _, shared⟩ := resolveVariables_addresses bound
  rw [listed] at appended names shared
  have named : added.map Prod.fst = ["x", "y"] := names.trans (by decide +kernel)
  have two : added.length = 2 := by simpa using congrArg List.length named
  rw [two] at addresses shared
  refine ⟨resolved, evaluated, added, bound, appended, named, addresses, ?_, ?_⟩
  · exact (shared ("IO", ⟨.predefined, 17, none⟩) (by simp)).mpr (by decide)
  · exact fun met => absurd ((shared ("old", ⟨.variable, 18, some 0⟩) (by simp)).mp met) (by decide)

/-- A variable can get the address of a predefined symbol. -/
theorem resolveVariables_shared_address :
    ∃ (dialect : Dialect) (resolved : SymbolTable) (evaluated : List (Located Instruction)),
      Dialect.ofSections { symbols := some (.ofList [("IO", 16)]) } = .ok dialect ∧
      resolveVariables dialect.symbolTable [⟨0, .load (.written "x")⟩] =
        .ok (resolved, evaluated) ∧
      ("IO", ⟨.predefined, 16, none⟩) ∈ dialect.symbolTable.toList ∧
      ¬ dialect.symbolTable.contains "x" = true ∧
      resolved.toList = [("IO", ⟨.predefined, 16, none⟩), ("x", ⟨.variable, 16, some 0⟩)] := by
  let dialect : Dialect := { Dialect.hack with symbols := .ofList [("IO", 16)] }
  have listed : dialect.symbolTable.toList = [("IO", ⟨.predefined, 16, none⟩)] := by
    have written : dialect.symbols.toList = [("IO", 16)] := OrderedMap.toList_ofList (by decide)
    simp only [dialect.toList_symbolTable, Dialect.predefinedEntries, written, List.map_cons,
      List.map_nil]
  obtain ⟨⟨resolved, evaluated⟩, bound, appended, _⟩ :=
    (resolveVariables_verdict dialect.symbolTable [⟨0, .load (.written "x")⟩]).of_flawless
      (by rw [listed]; decide +kernel)
  refine ⟨dialect, resolved, evaluated, rfl, bound, ?_, ?_, ?_⟩
  · rw [listed]
    exact List.mem_singleton_self _
  · rw [OrderedMap.contains_iff_mem_names, listed]
    decide
  · rw [appended, listed]
    decide +kernel

end HackAssembler
