import HackAssembler.Listing
import Mathlib.Data.List.Induction
import Mathlib.Data.List.Sort
import Mathlib.Order.Bounds.Defs

/-! # Rows of listings

A listing shows the first instructions of a program beside the lines that they come from. It goes on
as long as they have words, their lines ascend, and the text has so many lines: it stops at the
largest number of instructions that are placed in this way (`isGreatest_length_placedRows`). The
parts of the program need not belong together.
-/

namespace HackAssembler

/-- The first `count` instructions of a program have words, and their lines ascend within so many
lines. -/
structure Program.Places (program : Program) (lines count : Nat) : Prop where
  instructions : count ≤ program.instructions.length
  words : count ≤ program.words.length
  ascend : ((program.instructions.take count).map Located.line).Pairwise (· < ·)
  inside : ∀ line ∈ (program.instructions.take count).map Located.line, line < lines

namespace Listing

variable {program : Program} {lines line count : Nat} {row : Row} {front : List Row}

/-! ### The rows of a program -/

theorem length_rows (program : Program) :
    (rows program).length = min program.instructions.length program.words.length := by
  simp only [rows, List.length_map, List.length_zipIdx, List.length_zip]

theorem map_line_rows (program : Program) :
    (rows program).map Row.line =
      ((program.instructions.zip program.words).map Prod.fst).map Located.line := by
  calc (rows program).map Row.line
      = (((program.instructions.zip program.words).zipIdx.map Prod.fst).map Prod.fst).map
          Located.line := by simp only [rows, List.map_map, Function.comp_def]
    _ = ((program.instructions.zip program.words).map Prod.fst).map Located.line := by
        rw [List.zipIdx_map_fst]

theorem map_line_take_rows (worded : count ≤ program.words.length) :
    ((rows program).take count).map Row.line =
      (program.instructions.take count).map Located.line := by
  have enough : (program.instructions.take count).length ≤ (program.words.take count).length := by
    rw [List.length_take, List.length_take, Nat.min_eq_left worded]
    exact Nat.min_le_left _ _
  rw [List.map_take, map_line_rows, ← List.map_take, ← List.map_take, List.zip_eq_zipWith,
    List.take_zipWith, ← List.zip_eq_zipWith, List.map_fst_zip enough]

/-- A row has the address of its position, and the line and the word at that position. -/
theorem getElem?_rows {position : Nat} :
    (rows program)[position]? = some row ↔ row.address = position ∧
      program.instructions[position]?.map Located.line = some row.line ∧
      program.words[position]? = some row.word := by
  obtain ⟨address, line, word⟩ := row
  simp only [rows, List.getElem?_map, List.getElem?_zipIdx, Option.map_map, Option.map_eq_some_iff,
    List.getElem?_zip_eq_some, Prod.exists, Function.comp_apply, Row.mk.injEq]
  refine ⟨?_, ?_⟩
  · intro listed
    obtain ⟨located, _, ⟨present, worded⟩, rfl, rfl, rfl⟩ := listed
    exact ⟨Nat.zero_add _, ⟨located, present, rfl⟩, worded⟩
  · intro given
    obtain ⟨rfl, ⟨located, present, rfl⟩, worded⟩ := given
    exact ⟨located, word, ⟨present, worded⟩, Nat.zero_add _, rfl, rfl⟩

/-- Instructions are placed exactly if their rows are. -/
theorem places_iff :
    program.Places lines count ↔ count ≤ (rows program).length ∧
      ((rows program).take count).Pairwise (fun first second => first.line < second.line) ∧
      ∀ row ∈ (rows program).take count, row.line < lines := by
  rw [length_rows, Nat.le_min]
  refine ⟨?_, ?_⟩
  · intro places
    obtain ⟨enough, worded, ascend, inside⟩ := places
    rw [← map_line_take_rows worded] at ascend inside
    exact ⟨⟨enough, worded⟩, List.pairwise_map.mp ascend, List.forall_mem_map.mp inside⟩
  · intro given
    obtain ⟨⟨enough, worded⟩, ascend, inside⟩ := given
    have ascendLines := List.pairwise_map.mpr ascend
    have insideLines := (List.forall_mem_map (P := (· < lines))).mpr inside
    rw [map_line_take_rows worded] at ascendLines insideLines
    exact ⟨enough, worded, ascendLines, insideLines⟩

/-! ### Ascending rows -/

theorem ascendingFrom_isPrefix (least : Nat) (rows : List Row) :
    ascendingFrom least rows <+: rows := by
  induction rows generalizing least with
  | nil => exact List.prefix_rfl
  | cons row later ih =>
      unfold ascendingFrom
      split
      · exact (List.prefix_cons_inj row).mpr (ih _)
      · exact List.nil_prefix

theorem ascendingFrom_ascend (least : Nat) (rows : List Row) :
    (ascendingFrom least rows).Pairwise (fun first second => first.line < second.line) ∧
      ∀ row ∈ ascendingFrom least rows, least ≤ row.line := by
  induction rows generalizing least with
  | nil => exact ⟨.nil, fun _ absent => nomatch absent⟩
  | cons row later ih =>
      obtain ⟨ascend, above⟩ := ih (row.line + 1)
      unfold ascendingFrom
      split
      · next enough =>
          refine ⟨List.pairwise_cons.mpr ⟨above, ascend⟩, ?_⟩
          intro other member
          rcases List.mem_cons.mp member with rfl | member
          · exact enough
          · exact Nat.le_of_lt (Nat.lt_of_le_of_lt enough (above other member))
      · exact ⟨.nil, fun _ absent => nomatch absent⟩

/-- No rows are left out before the first whose line does not ascend. -/
theorem prefix_ascendingFrom {least : Nat} {rows : List Row} (start : front <+: rows)
    (ascend : front.Pairwise fun first second => first.line < second.line)
    (above : ∀ row ∈ front, least ≤ row.line) : front <+: ascendingFrom least rows := by
  -- The least line rises along the induction: behind a row it is the line after that row.
  induction front generalizing least rows with
  | nil => exact List.nil_prefix
  | cons row front ih =>
      obtain ⟨later, rfl, onward⟩ := List.cons_prefix_iff.mp start
      obtain ⟨first, ascend⟩ := List.pairwise_cons.mp ascend
      rw [ascendingFrom, if_pos (above row List.mem_cons_self)]
      exact (List.prefix_cons_inj row).mpr (ih onward ascend first)

theorem filter_line_isPrefix {rows : List Row}
    (ascend : rows.Pairwise fun first second => first.line < second.line) (lines : Nat) :
    rows.filter (fun row => row.line < lines) <+: rows := by
  induction rows with
  | nil => exact List.prefix_rfl
  | cons row later ih =>
      obtain ⟨first, ascend⟩ := List.pairwise_cons.mp ascend
      by_cases inside : row.line < lines
      · rw [List.filter_cons, if_pos (decide_eq_true inside)]
        exact (List.prefix_cons_inj row).mpr (ih ascend)
      · have outside : (row :: later).filter (fun row => row.line < lines) = [] := by
          refine List.filter_eq_nil_iff.mpr fun other member => ?_
          rcases List.mem_cons.mp member with rfl | member
          · simpa using inside
          · have behind := first other member
            simp only [decide_eq_true_eq]
            omega
        rw [outside]
        exact List.nil_prefix

/-! ### The rows that are shown -/

/-- The rows that are shown beside so many lines. -/
def placedRows (program : Program) (lines : Nat) : List Row :=
  (ascendingFrom 0 (rows program)).filter fun row => row.line < lines

theorem placedRows_ascend (program : Program) (lines : Nat) :
    (placedRows program lines).Pairwise fun first second => first.line < second.line :=
  (ascendingFrom_ascend 0 (rows program)).1.filter _

theorem placedRows_isPrefix (program : Program) (lines : Nat) :
    placedRows program lines <+: rows program :=
  (filter_line_isPrefix (ascendingFrom_ascend 0 _).1 lines).trans (ascendingFrom_isPrefix 0 _)

theorem placedRows_eq_take (program : Program) (lines : Nat) :
    placedRows program lines = (rows program).take (placedRows program lines).length :=
  List.prefix_iff_eq_take.mp (placedRows_isPrefix program lines)

/-- As many rows are shown as instructions can be placed. -/
theorem isGreatest_length_placedRows (program : Program) (lines : Nat) :
    IsGreatest {count | program.Places lines count} (placedRows program lines).length := by
  constructor
  · refine places_iff.mpr ⟨(placedRows_isPrefix program lines).length_le, ?_⟩
    rw [← placedRows_eq_take]
    exact ⟨placedRows_ascend program lines, fun row shown =>
      of_decide_eq_true (List.mem_filter.mp shown).2⟩
  · intro count places
    obtain ⟨enough, ascend, inside⟩ := places_iff.mp places
    have start : (rows program).take count <+: ascendingFrom 0 (rows program) :=
      prefix_ascendingFrom (List.take_prefix _ _) ascend fun _ _ => Nat.zero_le _
    have shown : (rows program).take count <+: placedRows program lines := by
      have filtered := start.filter fun row => decide (row.line < lines)
      rwa [List.filter_eq_self.mpr fun row member => decide_eq_true (inside row member)]
        at filtered
    simpa only [List.length_take, Nat.min_eq_left enough] using shown.length_le

theorem getElem?_placedRows {position : Nat} :
    (placedRows program lines)[position]? = some row ↔
      position < (placedRows program lines).length ∧ row.address = position ∧
      program.instructions[position]?.map Located.line = some row.line ∧
      program.words[position]? = some row.word := by
  rw [← getElem?_rows]
  refine ⟨?_, ?_⟩
  · intro present
    have counted := (List.getElem?_eq_some_iff.mp present).1
    rw [placedRows_eq_take, List.getElem?_take_of_lt counted] at present
    exact ⟨counted, present⟩
  · intro given
    obtain ⟨counted, present⟩ := given
    rw [placedRows_eq_take, List.getElem?_take_of_lt counted]
    exact present

/-- The rows that are shown have the first words, with their positions. -/
theorem map_word_placedRows (program : Program) (lines : Nat) :
    (placedRows program lines).map (fun row => (row.word, row.address)) =
      (program.words.take (placedRows program lines).length).zipIdx := by
  refine List.ext_getElem? fun position => ?_
  rw [List.getElem?_map, List.getElem?_zipIdx]
  by_cases counted : position < (placedRows program lines).length
  · have present := List.getElem?_eq_getElem counted
    obtain ⟨_, address, _, worded⟩ := getElem?_placedRows.mp present
    rw [present, List.getElem?_take_of_lt counted, worded, Option.map_some, Option.map_some,
      address, Nat.zero_add]
  · rw [List.getElem?_eq_none (Nat.le_of_not_lt counted),
      List.getElem?_take_eq_none (Nat.le_of_not_lt counted)]
    rfl

/-! ### Lookups by line -/

theorem getLast?_eq_some_of_unique {α : Type} {items : List α} {item : α} (member : item ∈ items)
    (unique : ∀ other ∈ items, other = item) : items.getLast? = some item := by
  have nonempty := List.ne_nil_of_mem member
  rw [List.getLast?_eq_some_getLast nonempty, unique _ (List.getLast_mem nonempty)]

/-- Of several items that are inserted with one key, the last one counts. -/
theorem getElem?_foldl_insert {α β : Type} (key : α → Option Nat) (value : α → β)
    (items : List α) (line : Nat) :
    (items.foldl (fun map item => (key item).elim map fun line => map.insert line (value item))
      (∅ : Std.HashMap Nat β))[line]? =
        (items.filter fun item => key item = some line).getLast?.map value := by
  induction items using List.reverseRecOn with
  | nil => simp
  | append_singleton items item ih =>
      rw [List.foldl_append, List.foldl_cons, List.foldl_nil, List.filter_append]
      cases keyed : key item with
      | none => simpa [keyed] using ih
      | some position =>
          by_cases same : position = line
          · simp [keyed, same]
          · simpa [keyed, same, Std.HashMap.getElem?_insert] using ih

theorem getElem?_labelsByLine (symbols : SymbolTable) (line : Nat) :
    (labelsByLine symbols)[line]? =
      ((symbols.ofKind .label).filter fun entry => entry.2.line = some line).getLast?.map
        fun entry => (entry.1, entry.2.value) :=
  getElem?_foldl_insert (fun entry : String × Symbol => entry.2.line)
    (fun entry => (entry.1, entry.2.value)) _ line

theorem eq_of_line_eq {rows : List Row} {other : Row}
    (ascend : rows.Pairwise fun first second => first.line < second.line)
    (member : row ∈ rows) (otherMember : other ∈ rows) (same : row.line = other.line) :
    row = other := by
  have distinct : (rows.map Row.line).Nodup :=
    (List.pairwise_map.mpr ascend).imp Nat.ne_of_lt
  exact List.inj_on_of_nodup_map distinct member otherMember same

theorem getElem?_rowsByLine :
    (rowsByLine program)[line]? = some row ↔
      row ∈ ascendingFrom 0 (rows program) ∧ row.line = line := by
  have shown : (rowsByLine program)[line]? =
      ((ascendingFrom 0 (rows program)).filter fun row => some row.line = some line).getLast? :=
    (getElem?_foldl_insert (fun row : Row => some row.line) id _ line).trans
      (congrFun Option.map_id _)
  rw [shown]
  refine ⟨?_, ?_⟩
  · intro last
    obtain ⟨member, here⟩ := List.mem_filter.mp (List.mem_of_getLast? last)
    exact ⟨member, by simpa using here⟩
  · intro given
    obtain ⟨member, rfl⟩ := given
    refine getLast?_eq_some_of_unique
      (List.mem_filter.mpr ⟨member, decide_eq_true rfl⟩) fun other listed => ?_
    obtain ⟨otherMember, same⟩ := List.mem_filter.mp listed
    exact eq_of_line_eq (ascendingFrom_ascend 0 _).1 otherMember member (by simpa using same)

/-- Within the lines of a text, the rows that are shown are found by their lines. -/
theorem mem_placedRows : row ∈ placedRows program lines ↔
    row.line < lines ∧ (rowsByLine program)[row.line]? = some row := by
  unfold placedRows
  rw [List.mem_filter, getElem?_rowsByLine, decide_eq_true_eq, and_comm]
  simp only [and_true]

/-- On a line of the text stands the row of an instruction that is placed and on that line. -/
theorem getElem?_rowsByLine_iff_placed (inside : line < lines) :
    (rowsByLine program)[line]? = some row ↔
      row.line = line ∧ row.address < (placedRows program lines).length ∧
      program.instructions[row.address]?.map Located.line = some line ∧
      program.words[row.address]? = some row.word := by
  refine ⟨?_, ?_⟩
  · intro shown
    obtain rfl := (getElem?_rowsByLine.mp shown).2
    obtain ⟨position, present⟩ := List.mem_iff_getElem?.mp (mem_placedRows.mpr ⟨inside, shown⟩)
    obtain ⟨counted, rfl, here, worded⟩ := getElem?_placedRows.mp present
    exact ⟨rfl, counted, here, worded⟩
  · intro given
    obtain ⟨rfl, counted, here, worded⟩ := given
    have present := getElem?_placedRows.mpr ⟨counted, rfl, here, worded⟩
    exact (mem_placedRows.mp (List.mem_of_getElem? present)).2

/-- Line by line, the rows that are shown come in their order. -/
theorem filterMap_rowsByLine (program : Program) (lines : Nat) :
    (List.range' 0 lines).filterMap (fun line => (rowsByLine program)[line]?) =
      placedRows program lines := by
  have irrefl : Std.Irrefl fun first second : Row => first.line < second.line :=
    ⟨fun _ => Nat.lt_irrefl _⟩
  have antisymm : Std.Antisymm fun first second : Row => first.line < second.line :=
    ⟨fun _ _ before after => absurd after (Nat.lt_asymm before)⟩
  refine List.Pairwise.eq_of_mem_iff ?_ (placedRows_ascend program lines) fun row => ?_
  · refine List.Pairwise.filterMap _ ?_ List.pairwise_lt_range'
    intro line other before row shown otherRow otherShown
    rw [(getElem?_rowsByLine.mp shown).2, (getElem?_rowsByLine.mp otherShown).2]
    exact before
  · rw [List.mem_filterMap, mem_placedRows]
    refine ⟨?_, ?_⟩
    · intro onSomeLine
      obtain ⟨line, listed, shown⟩ := onSomeLine
      obtain rfl := (getElem?_rowsByLine.mp shown).2
      exact ⟨by simpa using listed, shown⟩
    · intro given
      obtain ⟨inside, shown⟩ := given
      exact ⟨row.line, by simpa using inside, shown⟩

end Listing

end HackAssembler
