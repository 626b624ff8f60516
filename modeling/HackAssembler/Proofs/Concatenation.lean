import HackAssembler.Proofs.WellFormed

/-! # Statements in a row

What statements bind is known from what their parts bind. The labels of statements that stand behind
others have larger addresses, by the number of instructions before them (`labelEntries_append`), and
the variables of the first statements come first (`variableEntries_isPrefix`). Statements that are
part of well-formed ones, and whose symbols have no larger values than there, are well formed
themselves (`WellFormed.of_part`).
-/

namespace HackAssembler

variable {dialect : Dialect}

/-- The symbol at an address that is larger by a distance. -/
def Symbol.moveBy (distance : Nat) (symbol : Symbol) : Symbol :=
  { symbol with value := symbol.value + distance }

def moveEntries (distance : Nat) (entries : List (String × Symbol)) : List (String × Symbol) :=
  entries.map fun (name, symbol) => (name, symbol.moveBy distance)

@[simp] theorem map_fst_moveEntries (distance : Nat) (entries : List (String × Symbol)) :
    (moveEntries distance entries).map Prod.fst = entries.map Prod.fst := by
  unfold moveEntries
  rw [List.map_map]
  rfl

theorem moveEntries_moveEntries (first second : Nat) (entries : List (String × Symbol)) :
    moveEntries second (moveEntries first entries) = moveEntries (first + second) entries := by
  unfold moveEntries
  rw [List.map_map]
  refine List.map_congr_left fun entry _ => ?_
  obtain ⟨name, symbol⟩ := entry
  simp only [Function.comp_apply, Symbol.moveBy, Nat.add_assoc]

theorem moveEntries_append (distance : Nat) (first second : List (String × Symbol)) :
    moveEntries distance (first ++ second) =
      moveEntries distance first ++ moveEntries distance second :=
  List.map_append

/-! ### Labels -/

theorem labelBinding?_append (first earlier : List (Located Statement))
    (statement : Located Statement) :
    (labelBinding? (first ++ earlier) statement).toList =
      moveEntries (instructions first).length (labelBinding? earlier statement).toList := by
  obtain ⟨line, item⟩ := statement
  cases item with
  | instruction body => rfl
  | label name =>
      simp only [labelBinding?, Option.toList_some, instructions_append, List.length_append,
        Nat.add_comm (instructions first).length]
      rfl

/-- Labels move up by the number of instructions that stand before them. -/
theorem labelEntries_append (first second : List (Located Statement)) :
    labelEntries (first ++ second) =
      labelEntries first ++ moveEntries (instructions first).length (labelEntries second) := by
  induction second using List.reverseRecOn with
  | nil => simp [labelEntries, moveEntries]
  | append_singleton second statement ih =>
      rw [← List.append_assoc, labelEntries_append_singleton, ih, labelBinding?_append,
        labelEntries_append_singleton, moveEntries_append, List.append_assoc]

theorem boundNames_append (dialect : Dialect) (first second : List (Located Statement)) :
    boundNames dialect (first ++ second) =
      boundNames dialect first ++ (labelEntries second).map Prod.fst := by
  simp only [boundNames, labelEntries_append, List.map_append, map_fst_moveEntries,
    List.append_assoc]

/-! ### Variables -/

theorem symbolUses_append (first second : List (Located Instruction)) :
    symbolUses (first ++ second) = symbolUses first ++ symbolUses second :=
  List.filterMap_append

/-- Variables are numbered in the order of their first uses, so what comes later does not count. -/
theorem variableEntries_isPrefix (known : List String) (first second : List (Located Instruction)) :
    variableEntries known first <+: variableEntries known (first ++ second) := by
  obtain ⟨more, uses⟩ :=
    freshUses_isPrefix known (symbolUses first) (symbolUses second)
  unfold variableEntries
  rw [symbolUses_append, ← uses, List.zipIdx_append, List.map_append]
  exact List.prefix_append _ _

/-! ### Symbols -/

theorem exists_lookup_of_mem_names {entries : List (String × Symbol)} {name : String}
    (named : name ∈ entries.map Prod.fst) : ∃ symbol, entries.lookup name = some symbol := by
  obtain ⟨entry, member, rfl⟩ := List.mem_map.mp named
  rw [← Option.isSome_iff_exists, List.lookup_isSome_iff]
  exact ⟨entry, member, beq_self_eq_true _⟩

/-- Every name that is used has a symbol. -/
theorem exists_lookup_of_use (dialect : Dialect) {statements : List (Located Statement)}
    {use : Located String} (used : use ∈ symbolUses (instructions statements)) :
    ∃ symbol, (symbolEntries dialect statements).lookup use.item = some symbol := by
  apply exists_lookup_of_mem_names
  unfold symbolEntries
  rw [List.map_append, List.mem_append, map_fst_variableEntries, mem_names_freshUses]
  by_cases bound : use.item ∈ boundNames dialect statements
  · exact Or.inl bound
  · exact Or.inr ⟨bound, List.mem_map_of_mem used⟩

/-- Every name that is bound has a symbol. -/
theorem exists_lookup_of_bound {statements : List (Located Statement)} {name : String}
    (bound : name ∈ boundNames dialect statements) :
    ∃ symbol, (symbolEntries dialect statements).lookup name = some symbol := by
  apply exists_lookup_of_mem_names
  unfold symbolEntries
  rw [List.map_append]
  exact List.mem_append_left _ bound

theorem WellFormed.nodup_boundNames {statements : List (Located Statement)}
    (wellFormed : WellFormed dialect statements) : (boundNames dialect statements).Nodup :=
  nodup_boundNames_iff.mpr ⟨wellFormed.labels_distinct, wellFormed.labels_new⟩

theorem WellFormed.nodup_names {statements : List (Located Statement)}
    (wellFormed : WellFormed dialect statements) :
    ((symbolEntries dialect statements).map Prod.fst).Nodup :=
  nodup_symbolEntries wellFormed.nodup_boundNames

/-! ### Parts -/

/-- Statements are part of others: what they declare and do is declared and done there, and no
symbol has a larger value than there. -/
structure IsPart (dialect : Dialect) (part whole : List (Located Statement)) : Prop where
  names : ((labelEntries part).map Prod.fst).Sublist ((labelEntries whole).map Prod.fst)
  labels : ∀ entry ∈ labelEntries part, ∃ other ∈ labelEntries whole,
    entry.2.value ≤ other.2.value
  instructions : HackAssembler.instructions part ⊆ HackAssembler.instructions whole
  symbols : ∀ use ∈ symbolUses (HackAssembler.instructions part), ∀ symbol,
    (symbolEntries dialect part).lookup use.item = some symbol →
      ∃ other, (symbolEntries dialect whole).lookup use.item = some other ∧
        symbol.value ≤ other.value

theorem WellFormed.of_part {part whole : List (Located Statement)}
    (wellFormed : WellFormed dialect whole) (isPart : IsPart dialect part whole) :
    WellFormed dialect part where
  labels_distinct := wellFormed.labels_distinct.sublist isPart.names
  labels_new := by
    intro entry member
    obtain ⟨other, inWhole, same⟩ :=
      List.mem_map.mp (isPart.names.subset (List.mem_map_of_mem member))
    rw [← same]
    exact wellFormed.labels_new other inWhole
  labels_fit := by
    intro entry member
    obtain ⟨other, inWhole, smaller⟩ := isPart.labels entry member
    exact Nat.le_trans smaller (wellFormed.labels_fit other inWhole)
  operands_fit := by
    intro located member operand loads
    obtain ⟨value, valued, fits⟩ :=
      wellFormed.operands_fit located (isPart.instructions member) operand loads
    cases operand with
    | literal number => exact ⟨value, valued, fits⟩
    | written text =>
        -- A numeral has the same value everywhere, and a symbol no larger one than in the whole.
        by_cases numeral : Text.isNumeral text = true
        · refine ⟨value, ?_, fits⟩
          simp only [Operand.value?, numeral, ↓reduceIte] at valued ⊢
          exact valued
        · have used : (⟨located.line, text⟩ : Located String) ∈
              symbolUses (HackAssembler.instructions part) := by
            refine List.mem_filterMap.mpr ⟨located, member, ?_⟩
            rw [Located.symbol?_eq_some_iff, ← loads]
            exact ⟨rfl, numeral⟩
          obtain ⟨symbol, found⟩ := exists_lookup_of_use dialect used
          obtain ⟨other, foundInWhole, smaller⟩ := isPart.symbols _ used symbol found
          simp only [Operand.value?, numeral, Bool.false_eq_true, ↓reduceIte, foundInWhole,
            Option.map_some, Option.some.injEq] at valued
          refine ⟨symbol.value, ?_, ?_⟩
          · simp only [Operand.value?, numeral, Bool.false_eq_true, ↓reduceIte, found,
              Option.map_some]
          · exact Nat.le_trans smaller (valued ▸ fits)
  mnemonics_known := fun located member =>
    wellFormed.mnemonics_known located (isPart.instructions member)

end HackAssembler
