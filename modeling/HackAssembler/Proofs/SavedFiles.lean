import HackAssembler.Files.Tree
import HackAssembler.Proofs.Outcomes

/-! # Saved files

A tree without devices is read by what stands at its paths. Saving a text puts it at its path and
leaves what stands at all paths that lead elsewhere (`FileTree.saved_insert`), because a file can
only take the place of a file or of nothing, and neither of these can be entered. Where no file can
be created nothing is saved.
-/

namespace HackAssembler

theorem fromUTF8?_eq_some_iff {bytes : ByteArray} {text : String} :
    String.fromUTF8? bytes = some text ↔ bytes = text.toUTF8 := by
  unfold String.fromUTF8?
  constructor
  · intro read
    split at read
    · cases read
      rfl
    · cases read
  · rintro rfl
    exact dif_pos text.isValidUTF8

namespace FileTree

/-- What stands at a path. -/
def nodeAt? (tree : FileTree) (path : String) : Option FileNode :=
  (tree.locate path).toOption.bind tree.node?

/-- A tree of ordinary files and directories alone. -/
def IsPlain (tree : FileTree) : Prop :=
  ∀ location hasRoom, tree.node? location ≠ some (.device hasRoom)

/-- The file at a path holds a text. -/
def Holds (tree : FileTree) (path text : String) : Prop :=
  tree.nodeAt? path = some (.file text.toUTF8)

/-- A path leads to a place for a file, where there is a file or nothing. -/
def CanCreate (tree : FileTree) (path : String) : Prop :=
  ∃ location, tree.locateFile path = .ok location ∧ tree.node? location ≠ some .directory

/-- A tree differs from one before only in that bytes are kept at a path. -/
structure Saved (tree : FileTree) (path : String) (bytes : ByteArray) (after : FileTree) :
    Prop where
  kept : after.nodeAt? path = some (.file bytes)
  elsewhere : ∀ other, tree.locate other ≠ tree.locate path →
    after.nodeAt? other = tree.nodeAt? other

variable {tree : FileTree} {path : String} {bytes : ByteArray}

theorem nodeAt?_eq_some_iff {node : FileNode} :
    tree.nodeAt? path = some node ↔
      ∃ location, tree.locate path = .ok location ∧ tree.node? location = some node := by
  unfold nodeAt?
  cases tree.locate path <;> simp [Except.toOption]

theorem Holds.unique {text other : String} (holds : tree.Holds path text)
    (otherHolds : tree.Holds path other) : text = other := by
  unfold Holds at holds otherHolds
  rw [holds] at otherHolds
  exact String.toByteArray_inj.mp (FileNode.file.inj (Option.some.inj otherHolds))

/-- There are no devices in a tree that has none among its nodes. -/
theorem isPlain_of_nodes (plain : ∀ entry ∈ tree.nodes, ∀ hasRoom, entry.2 ≠ .device hasRoom) :
    tree.IsPlain := by
  intro location hasRoom found
  obtain ⟨before, after, nodes, _⟩ := List.lookup_eq_some_iff.mp found
  exact plain (location, .device hasRoom) (by rw [nodes]; simp) hasRoom rfl

/-! ### Reading -/

theorem read_eq_ok_iff (plain : tree.IsPlain) :
    tree.read path = .ok bytes ↔ tree.nodeAt? path = some (.file bytes) := by
  unfold read nodeAt?
  cases tree.locate path with
  | error reason => simp [Except.toOption, bind, Except.bind]
  | ok location =>
      simp only [Except.toOption, Option.bind_some, bind, Except.bind]
      have noDevice := plain location
      cases found : tree.node? location with
      | none => simp [throw, throwThe, MonadExceptOf.throw]
      | some node =>
          cases node with
          | file kept => simp [pure, Except.pure]
          | directory => simp [throw, throwThe, MonadExceptOf.throw]
          | device hasRoom => exact absurd found (noDevice hasRoom)

/-! ### Following paths -/

/-- Only directories can be entered, and the name says where that leads. -/
theorem eq_of_enter {location result : Location} {name : String}
    (entered : tree.enter location name = .ok result) :
    tree.node? location = some .directory ∧
      result = if Path.isIdle name then location
        else if name = ".." then location.tail else name :: location := by
  unfold enter at entered
  split at entered
  · cases entered
  · next found =>
      refine ⟨found, ?_⟩
      split at entered
      · next idle => rw [if_pos idle, Except.ok.inj entered]
      · next proper =>
          rw [if_neg proper]
          split at entered
          · next back => rw [if_pos back, Except.ok.inj entered]
          · next down =>
              rw [if_neg down]
              split at entered
              · cases entered
              · exact (Except.ok.inj entered).symm
  · cases entered

/-- A file can be kept where there is no directory without a change to what can be entered. -/
theorem enter_insert {place location result : Location} {name : String}
    (free : tree.node? place ≠ some .directory) :
    (tree.insert place (.file bytes)).enter location name = .ok result ↔
      tree.enter location name = .ok result := by
  by_cases same : location = place
  · -- At the place itself nothing could be entered before, and nothing can be entered now.
    subst same
    constructor <;> intro entered
    · have found := (eq_of_enter entered).1
      rw [node?_insert, if_pos rfl] at found
      cases found
    · exact absurd (eq_of_enter entered).1 free
  · unfold enter
    rw [node?_insert, if_neg same]

theorem locate_insert {place location : Location} (free : tree.node? place ≠ some .directory)
    (path : String) :
    (tree.insert place (.file bytes)).locate path = .ok location ↔
      tree.locate path = .ok location := by
  unfold locate
  split
  · exact Iff.rfl
  · exact foldlM_eq_ok_congr fun _ _ _ => enter_insert free

theorem nodeAt?_insert_self {place : Location} (free : tree.node? place ≠ some .directory)
    (located : tree.locate path = .ok place) :
    (tree.insert place (.file bytes)).nodeAt? path = some (.file bytes) := by
  refine nodeAt?_eq_some_iff.mpr ⟨place, (locate_insert free path).mpr located, ?_⟩
  rw [node?_insert, if_pos rfl]

theorem nodeAt?_insert_of_ne {place : Location} (free : tree.node? place ≠ some .directory)
    (elsewhere : tree.locate path ≠ .ok place) :
    (tree.insert place (.file bytes)).nodeAt? path = tree.nodeAt? path := by
  refine Option.ext fun node => ?_
  simp only [nodeAt?_eq_some_iff, locate_insert free]
  refine exists_congr fun location => and_congr_right fun located => ?_
  rw [node?_insert, if_neg]
  rintro rfl
  exact elsewhere located

theorem dropWhile_of_head?_ne {α : Type} [DecidableEq α] {items : List α} {item : α}
    (other : items.head? ≠ some item) : items.dropWhile (· = item) = items := by
  cases items with
  | nil => rfl
  | cons first rest => exact List.dropWhile_cons_of_neg (by simpa using other)

/-- Where a file can be kept, the last name of the path is that of the file. -/
theorem exists_of_locateFile {location : Location} (located : tree.locateFile path = .ok location) :
    ∃ above last directory, Path.names path = above ++ [last] ∧ Path.isIdle last = false ∧
      last ≠ ".." ∧ location = last :: directory ∧ tree.locate path = .ok location := by
  unfold locateFile at located
  cases split : (Path.names path).reverse.dropWhile (· = "") with
  | nil =>
      simp only [split] at located
      cases located
  | cons last above =>
      simp only [split] at located
      obtain ⟨directory, walked, located⟩ := bind_eq_ok_iff.mp located
      obtain ⟨place, entered, located⟩ := bind_eq_ok_iff.mp located
      split at located
      · cases located
      · next proper =>
          cases located
          rw [not_or, not_or] at proper
          obtain ⟨noSlash, noDot, noBack⟩ := proper
          have whole : (Path.names path).reverse = last :: above := by
            rwa [dropWhile_of_head?_ne noSlash] at split
          have nonempty : last ≠ "" := by
            rintro rfl
            exact noSlash (by rw [whole, List.head?_cons])
          have named : Path.names path = above.reverse ++ [last] := by
            rw [← List.reverse_cons, ← whole, List.reverse_reverse]
          have proper : Path.isIdle last = false := by simp [Path.isIdle, nonempty, noDot]
          have below := (eq_of_enter entered).2
          rw [proper, if_neg (by decide), if_neg noBack] at below
          refine ⟨above.reverse, last, directory, named, proper, noBack, below, ?_⟩
          have present : path ≠ "" := by
            rintro rfl
            rw [show Path.names "" = [""] by decide] at whole
            exact nonempty (List.cons.inj whole).1.symm
          rw [locate, if_neg present, named, List.foldlM_append, walked]
          exact (bind_pure _).trans entered

/-! ### Saving -/

theorem saved_insert {location : Location} (located : tree.locateFile path = .ok location)
    (free : tree.node? location ≠ some .directory) (bytes : ByteArray) :
    tree.Saved path bytes (tree.insert location (.file bytes)) := by
  obtain ⟨_, _, _, _, _, _, _, reached⟩ := exists_of_locateFile located
  refine ⟨nodeAt?_insert_self free reached, fun other elsewhere => ?_⟩
  rw [reached] at elsewhere
  exact nodeAt?_insert_of_ne free elsewhere

theorem save_of_locateFile {location : Location} (located : tree.locateFile path = .ok location)
    (bytes : ByteArray) :
    tree.save path bytes =
      match tree.node? location with
      | some .directory => .error (.create .isDirectory)
      | some (.device hasRoom) =>
        if hasRoom || bytes.isEmpty then .ok tree else .error (.write .noSpace)
      | some (.file _) | none => .ok (tree.insert location (.file bytes)) := by
  unfold save
  rw [located]
  rfl

/-- Bytes are saved exactly where a file can be created. -/
theorem save_cases (plain : tree.IsPlain) (path : String) (bytes : ByteArray) :
    (∃ location, tree.locateFile path = .ok location ∧ tree.node? location ≠ some .directory ∧
      tree.save path bytes = .ok (tree.insert location (.file bytes))) ∨
    (¬ tree.CanCreate path ∧ ∃ reason, tree.save path bytes = .error (.create reason)) := by
  unfold CanCreate
  cases located : tree.locateFile path with
  | error reason =>
      refine .inr ⟨by simp, reason, ?_⟩
      unfold save
      rw [located]
      rfl
  | ok location =>
      have noDevice := plain location
      rw [save_of_locateFile located]
      cases found : tree.node? location with
      | none => exact .inl ⟨location, rfl, by simp [found], rfl⟩
      | some node =>
          cases node with
          | file kept => exact .inl ⟨location, rfl, by simp [found], rfl⟩
          | directory => exact .inr ⟨by simp [found], .isDirectory, rfl⟩
          | device hasRoom => exact absurd found (noDevice hasRoom)

end FileTree

end HackAssembler
