import HackAssembler.Proofs.WellFormed

/-! # Labels without uses

A label that nothing refers to changes neither the instructions nor the values of other symbols,
because its declaration takes no room. So there is no condition on it but that its name is new and
that there are not too many instructions before it (`wellFormed_insert_label_iff`).
-/

namespace HackAssembler

variable {dialect : Dialect} {before after : List (Located Statement)} {line : Nat} {name : String}

theorem instructions_insert_label (before after : List (Located Statement)) (line : Nat)
    (name : String) :
    instructions (before ++ ⟨line, .label name⟩ :: after) = instructions (before ++ after) := by
  rw [instructions_append, instructions_append]
  rfl

theorem labelBinding?_congr {first second : List (Located Statement)}
    (same : instructions first = instructions second) (statement : Located Statement) :
    labelBinding? first statement = labelBinding? second statement := by
  obtain ⟨position, item⟩ := statement
  cases item with
  | instruction body => rfl
  | label other => rw [labelBinding?, labelBinding?, same]

theorem labelEntries_insert_label (before after : List (Located Statement)) (line : Nat)
    (name : String) :
    ∃ later, labelEntries (before ++ after) = labelEntries before ++ later ∧
      labelEntries (before ++ ⟨line, .label name⟩ :: after) =
        labelEntries before ++
          (name, ⟨.label, (instructions before).length, some line⟩) :: later := by
  induction after using List.reverseRecOn with
  | nil =>
      refine ⟨[], by simp, ?_⟩
      rw [labelEntries_append_singleton]
      rfl
  | append_singleton after statement ih =>
      obtain ⟨later, without, inserted⟩ := ih
      have bound := labelBinding?_congr (instructions_insert_label before after line name) statement
      refine ⟨later ++ (labelBinding? (before ++ after) statement).toList, ?_, ?_⟩
      · rw [← List.append_assoc, labelEntries_append_singleton, without, List.append_assoc]
      · rw [← List.cons_append, ← List.append_assoc, labelEntries_append_singleton, inserted,
          bound, List.append_assoc, List.cons_append]

/-- Which uses are first ones depends only on which of their names are known. -/
theorem freshUses_congr {known others : List String} {uses : List (Located String)}
    (same : ∀ use ∈ uses, use.item ∈ known ↔ use.item ∈ others) :
    freshUses known uses = freshUses others uses := by
  unfold freshUses
  congr 1
  refine List.filter_congr fun pair paired => ?_
  have used : pair.2 ∈ uses := by
    rw [← map_snd_withEarlier uses]
    exact List.mem_map_of_mem paired
  have fresh : IsFresh known pair.1 pair.2.item ↔ IsFresh others pair.1 pair.2.item :=
    and_congr_left fun _ => not_congr (same pair.2 used)
  exact decide_eq_decide.mpr fresh

theorem symbolEntries_insert_label (dialect : Dialect) (line : Nat)
    (unused : name ∉ (symbolUses (instructions (before ++ after))).map Located.item) :
    ∃ front back symbol, symbolEntries dialect (before ++ after) = front ++ back ∧
      symbolEntries dialect (before ++ ⟨line, .label name⟩ :: after) =
        front ++ (name, symbol) :: back := by
  obtain ⟨later, without, inserted⟩ := labelEntries_insert_label before after line name
  have fresh : freshUses (boundNames dialect (before ++ ⟨line, .label name⟩ :: after))
        (symbolUses (instructions (before ++ after))) =
      freshUses (boundNames dialect (before ++ after))
        (symbolUses (instructions (before ++ after))) := by
    refine freshUses_congr fun use member => ?_
    have different : use.item ≠ name := by
      intro same
      exact unused (same ▸ List.mem_map_of_mem member)
    unfold boundNames
    rw [without, inserted]
    simp [different]
  refine ⟨dialect.predefinedEntries ++ labelEntries before,
    later ++
      variableEntries (boundNames dialect (before ++ after)) (instructions (before ++ after)),
    ⟨.label, (instructions before).length, some line⟩, ?_, ?_⟩
  · rw [symbolEntries, without]
    simp
  · rw [symbolEntries, inserted, instructions_insert_label, variableEntries, fresh, variableEntries]
    simp

/-- An operand has the same value with one more symbol of another name. -/
theorem Operand.value?_insert {front back : List (String × Symbol)} {symbol : Symbol}
    {operand : Operand}
    (different : ∀ text, operand = .written text → Text.isNumeral text = false → text ≠ name) :
    operand.value? (front ++ (name, symbol) :: back) = operand.value? (front ++ back) := by
  cases operand with
  | literal value => rfl
  | written text =>
      cases numeral : Text.isNumeral text with
      | true => simp only [Operand.value?, numeral, ↓reduceIte]
      | false =>
          have other : (text == name) = false := beq_false_of_ne (different text rfl numeral)
          simp only [Operand.value?, numeral, Bool.false_eq_true, ↓reduceIte, List.lookup_append,
            List.lookup_cons, other]

/-- **A label without uses.** Statements with a label to which none of them refers are well formed
exactly when the others are, its name is new and an address is left for it. -/
theorem wellFormed_insert_label_iff
    (unused : name ∉ (symbolUses (instructions (before ++ after))).map Located.item) :
    WellFormed dialect (before ++ ⟨line, .label name⟩ :: after) ↔
      WellFormed dialect (before ++ after) ∧ dialect.symbol? name = none ∧
        name ∉ (labelEntries (before ++ after)).map Prod.fst ∧
        (instructions before).length ≤ symbolMax := by
  obtain ⟨later, without, inserted⟩ := labelEntries_insert_label before after line name
  have labels : (labelEntries (before ++ ⟨line, .label name⟩ :: after)).Perm
      ((name, ⟨.label, (instructions before).length, some line⟩) ::
        labelEntries (before ++ after)) := by
    rw [without, inserted]
    exact List.perm_middle
  have program := instructions_insert_label before after line name
  obtain ⟨front, back, symbol, fewer, more⟩ := symbolEntries_insert_label dialect line unused
  -- Every operand keeps its value, so the conditions on operands are the same ones.
  have values : ∀ located ∈ instructions (before ++ after), ∀ operand,
      located.item = .load operand →
        operand.value? (symbolEntries dialect (before ++ ⟨line, .label name⟩ :: after)) =
          operand.value? (symbolEntries dialect (before ++ after)) := by
    intro located member operand loads
    rw [fewer, more]
    apply Operand.value?_insert
    intro text written symbolic same
    subst written same
    have used : located.symbol? = some ⟨located.line, text⟩ := by
      rw [Located.symbol?_eq_some_iff, ← loads]
      exact ⟨rfl, Bool.eq_false_iff.mp symbolic⟩
    have inUses := List.mem_filterMap.mpr ⟨located, member, used⟩
    exact unused (List.mem_map_of_mem inUses)
  constructor
  · intro wellFormed
    have distinct := wellFormed.labels_distinct
    rw [(labels.map Prod.fst).nodup_iff, List.map_cons, List.nodup_cons] at distinct
    have new : ∀ entry ∈ _ :: labelEntries (before ++ after), dialect.symbol? entry.1 = none :=
      fun entry member => wellFormed.labels_new entry (labels.mem_iff.mpr member)
    have fit : ∀ entry ∈ _ :: labelEntries (before ++ after), entry.2.value ≤ symbolMax :=
      fun entry member => wellFormed.labels_fit entry (labels.mem_iff.mpr member)
    obtain ⟨newName, newOthers⟩ := List.forall_mem_cons.mp new
    obtain ⟨fitsName, fitOthers⟩ := List.forall_mem_cons.mp fit
    refine ⟨⟨distinct.2, newOthers, fitOthers, ?_, ?_⟩, newName, distinct.1, fitsName⟩
    · intro located member operand loads
      rw [← values located member operand loads]
      rw [← program] at member
      exact wellFormed.operands_fit located member operand loads
    · rw [← program]
      exact wellFormed.mnemonics_known
  · intro conditions
    obtain ⟨wellFormed, newName, undeclared, fitsName⟩ := conditions
    refine ⟨?_, ?_, ?_, ?_, ?_⟩
    · rw [(labels.map Prod.fst).nodup_iff, List.map_cons, List.nodup_cons]
      exact ⟨undeclared, wellFormed.labels_distinct⟩
    · intro entry member
      rcases List.mem_cons.mp (labels.mem_iff.mp member) with rfl | other
      · exact newName
      · exact wellFormed.labels_new entry other
    · intro entry member
      rcases List.mem_cons.mp (labels.mem_iff.mp member) with rfl | other
      · exact fitsName
      · exact wellFormed.labels_fit entry other
    · intro located member operand loads
      rw [program] at member
      rw [values located member operand loads]
      exact wellFormed.operands_fit located member operand loads
    · rw [program]
      exact wellFormed.mnemonics_known

end HackAssembler
