import Std.Data.HashMap

/-! # Maps in order of insertion

An `OrderedMap` keeps one value for each of finitely many names, in the order in which the names
were first inserted. The entries stand in an array beside a hash table of their positions, so a
look-up costs the same for any number of entries. What the map holds is read off `toList`: a name
is found exactly when an entry of the list carries it, and no name occurs twice.
-/

namespace HackAssembler

/-- A map from names to values that remembers the order of insertion. -/
structure OrderedMap (β : Type) where
  entries : Array (String × β)
  positions : Std.HashMap String Nat
  positions_exact : ∀ (name : String) (position : Nat),
    positions[name]? = some position ↔ entries[position]?.map Prod.fst = some name

namespace OrderedMap

variable {β : Type}

def empty : OrderedMap β where
  entries := #[]
  positions := ∅
  positions_exact := by intro name position; simp

instance : EmptyCollection (OrderedMap β) := ⟨empty⟩

instance : Inhabited (OrderedMap β) := ⟨empty⟩

def toList (map : OrderedMap β) : List (String × β) :=
  map.entries.toList

def size (map : OrderedMap β) : Nat :=
  map.entries.size

def isEmpty (map : OrderedMap β) : Bool :=
  map.size == 0

def get? (map : OrderedMap β) (name : String) : Option β :=
  map.positions[name]?.bind fun position => map.entries[position]?.map Prod.snd

def contains (map : OrderedMap β) (name : String) : Bool :=
  map.positions.contains name

def append : (map : OrderedMap β) → (name : String) → (value : β) →
    (fresh : map.positions[name]? = none) → OrderedMap β
  | ⟨entries, positions, exact⟩, name, value, fresh =>
    -- The position is taken first, so that both tables can be extended in place.
    let last := entries.size
    { entries := entries.push (name, value)
      positions := positions.insert name last
      positions_exact := by
        intro other position
        rw [Std.HashMap.getElem?_insert, Array.getElem?_push]
        by_cases atEnd : position = entries.size
        · subst atEnd
          by_cases same : name = other
          · simp [last, same]
          · have outside := exact other entries.size
            simp only [Array.getElem?_eq_none (Nat.le_refl _), Option.map_none, reduceCtorEq,
              iff_false] at outside
            simp [same, outside]
        · by_cases same : name = other
          · subst same
            have absent := exact name position
            rw [fresh] at absent
            simp only [reduceCtorEq, false_iff] at absent
            simp [last, atEnd, absent, Ne.symm atEnd]
          · simp [same, atEnd, exact other position] }

/-- Replaces the value at a position and keeps the name there. -/
def replaceAt : (map : OrderedMap β) → (position : Nat) → (value : β) → OrderedMap β
  | ⟨entries, positions, exact⟩, position, value =>
    { entries := entries.modify position fun entry => (entry.1, value)
      positions
      positions_exact := by
        intro name other
        rw [exact, Array.getElem?_modify]
        by_cases same : position = other
        · subst same
          cases entries[position]? <;> simp
        · simp [same] }

/-- Appends an entry unless its name is known; gives the value known before, if any. -/
def getThenInsertIfNew? (map : OrderedMap β) (name : String) (value : β) :
    Option β × OrderedMap β :=
  match known : map.positions[name]? with
  | none => (none, map.append name value known)
  | some position => (map.entries[position]?.map Prod.snd, map)

def insertIfNew (map : OrderedMap β) (name : String) (value : β) : OrderedMap β :=
  (map.getThenInsertIfNew? name value).2

/-- Gives a name a value: a known name keeps its place, a new one comes last. -/
def insert (map : OrderedMap β) (name : String) (value : β) : OrderedMap β :=
  match known : map.positions[name]? with
  | none => map.append name value known
  | some position => map.replaceAt position value

/-- The map of a list of entries; of entries with one name the place of the first and the value of
the last count. -/
def ofList (entries : List (String × β)) : OrderedMap β :=
  entries.foldl (fun map entry => map.insert entry.1 entry.2) ∅

def mapValues {γ : Type} (f : β → γ) (map : OrderedMap β) : OrderedMap γ where
  entries := map.entries.map fun entry => (entry.1, f entry.2)
  positions := map.positions
  positions_exact := by
    intro name position
    rw [map.positions_exact, Array.getElem?_map]
    cases map.entries[position]? <;> simp

/-! ### What the entries say -/

theorem nodup_names (map : OrderedMap β) : (map.toList.map Prod.fst).Nodup := by
  rw [List.nodup_iff_pairwise_ne, List.pairwise_iff_getElem]
  intro first second firstBound secondBound earlier same
  simp only [List.length_map, toList, Array.length_toList] at firstBound secondBound
  have atFirst := (map.positions_exact (map.entries[first].1) first).mpr (by
    rw [Array.getElem?_eq_getElem firstBound, Option.map_some])
  have atSecond := (map.positions_exact (map.entries[first].1) second).mpr (by
    rw [Array.getElem?_eq_getElem secondBound, Option.map_some]
    simpa [toList] using same.symm)
  rw [atFirst] at atSecond
  exact absurd (Option.some.inj atSecond) (by omega)

/-- A name has a value exactly when the entry is in the list. -/
theorem get?_eq_some_iff {map : OrderedMap β} {name : String} {value : β} :
    map.get? name = some value ↔ (name, value) ∈ map.toList := by
  simp only [get?, Option.bind_eq_some_iff, Option.map_eq_some_iff, toList, Array.mem_toList_iff,
    Array.mem_iff_getElem?]
  constructor
  · intro found
    obtain ⟨position, located, ⟨carried, _⟩, present, rfl⟩ := found
    have exact := (map.positions_exact name position).mp located
    rw [present, Option.map_some, Option.some.injEq] at exact
    subst exact
    exact ⟨position, present⟩
  · intro member
    obtain ⟨position, present⟩ := member
    exact ⟨position, (map.positions_exact name position).mpr (by rw [present, Option.map_some]),
      (name, value), present, rfl⟩

theorem contains_iff {map : OrderedMap β} {name : String} :
    map.contains name = true ↔ ∃ value, (name, value) ∈ map.toList := by
  rw [contains, Std.HashMap.contains_eq_isSome_getElem?, Option.isSome_iff_exists]
  constructor
  · intro known
    obtain ⟨position, located⟩ := known
    have exact := (map.positions_exact name position).mp located
    obtain ⟨⟨carried, value⟩, present, rfl⟩ := Option.map_eq_some_iff.mp exact
    exact ⟨value, by
      simpa only [toList, Array.mem_toList_iff] using Array.mem_of_getElem? present⟩
  · intro entry
    obtain ⟨value, member⟩ := entry
    obtain ⟨position, located, _⟩ := Option.bind_eq_some_iff.mp (get?_eq_some_iff.mpr member)
    exact ⟨position, located⟩

@[simp] theorem length_toList (map : OrderedMap β) : map.toList.length = map.size :=
  Array.length_toList

@[simp] theorem toList_empty : (∅ : OrderedMap β).toList = [] := rfl

@[simp] theorem toList_append {map : OrderedMap β} {name : String} {value : β}
    (fresh : map.positions[name]? = none) :
    (map.append name value fresh).toList = map.toList ++ [(name, value)] := by
  simp [append, toList]

/-- If no name occurs twice in a list, looking a name up finds its entry. -/
theorem lookup_eq_some_of_mem {entries : List (String × β)} {name : String} {value : β}
    (distinct : (entries.map Prod.fst).Nodup) (member : (name, value) ∈ entries) :
    entries.lookup name = some value := by
  obtain ⟨before, after, rfl⟩ := List.append_of_mem member
  refine List.lookup_eq_some_iff.mpr ⟨before, after, rfl, ?_⟩
  intro entry earlier
  rw [List.map_append] at distinct
  exact bne_iff_ne.mpr
    ((List.nodup_append.mp distinct).2.2 _ (List.mem_map_of_mem earlier) name (by simp)).symm

theorem mem_of_lookup_eq_some {entries : List (String × β)} {name : String} {value : β}
    (found : entries.lookup name = some value) : (name, value) ∈ entries := by
  obtain ⟨before, after, rfl, _⟩ := List.lookup_eq_some_iff.mp found
  exact List.mem_append_right _ List.mem_cons_self

theorem lookup_toList (map : OrderedMap β) (name : String) :
    map.toList.lookup name = map.get? name := by
  cases known : map.get? name with
  | none =>
      rw [List.lookup_eq_none_iff]
      intro entry member
      rw [bne_iff_ne]
      rintro rfl
      rw [get?_eq_some_iff.mpr member] at known
      cases known
  | some value => exact lookup_eq_some_of_mem map.nodup_names (get?_eq_some_iff.mp known)

theorem get?_eq_none_iff {map : OrderedMap β} {name : String} :
    map.get? name = none ↔ name ∉ map.toList.map Prod.fst := by
  rw [Option.eq_none_iff_forall_ne_some]
  simp only [ne_eq, get?_eq_some_iff, List.mem_map, Prod.exists, exists_and_right, exists_eq_right,
    not_exists]

/-- A name is known exactly when an entry carries it, whatever its value. -/
theorem contains_iff_mem_names {map : OrderedMap β} {name : String} :
    map.contains name = true ↔ name ∈ map.toList.map Prod.fst := by
  simp only [contains_iff, List.mem_map, Prod.exists, exists_and_right, exists_eq_right]

theorem positions_eq_none_iff {map : OrderedMap β} {name : String} :
    map.positions[name]? = none ↔ map.get? name = none := by
  have known : map.contains name = true ↔ name ∈ map.toList.map Prod.fst := contains_iff_mem_names
  rw [contains, Std.HashMap.contains_eq_isSome_getElem?] at known
  rw [get?_eq_none_iff, ← known]
  cases map.positions[name]? <;> simp

/-- Inserting a new entry gives what was known of its name before. -/
theorem getThenInsertIfNew?_eq (map : OrderedMap β) (name : String) (value : β) :
    map.getThenInsertIfNew? name value = (map.get? name, map.insertIfNew name value) := by
  refine Prod.ext ?_ rfl
  unfold getThenInsertIfNew?
  split
  · next absent => exact (positions_eq_none_iff.mp absent).symm
  · next position located => simp only [get?, located, Option.bind_some]

theorem insertIfNew_of_mem {map : OrderedMap β} {name : String} {known : β}
    (present : (name, known) ∈ map.toList) (value : β) : map.insertIfNew name value = map := by
  unfold insertIfNew getThenInsertIfNew?
  split
  · next absent =>
      rw [positions_eq_none_iff, get?_eq_some_iff.mpr present] at absent
      cases absent
  · rfl

theorem toList_insertIfNew_of_new {map : OrderedMap β} {name : String} {value : β}
    (new : map.get? name = none) :
    (map.insertIfNew name value).toList = map.toList ++ [(name, value)] := by
  unfold insertIfNew getThenInsertIfNew?
  split
  · next absent => exact toList_append absent
  · next position located =>
      rw [positions_eq_none_iff.mpr new] at located
      cases located

theorem get?_insertIfNew_of_new {map : OrderedMap β} {name : String} {value : β}
    (new : map.get? name = none) (other : String) :
    (map.insertIfNew name value).get? other =
      if other = name then some value else map.get? other := by
  rw [← lookup_toList, toList_insertIfNew_of_new new, List.lookup_append, lookup_toList]
  by_cases same : other = name
  · simp [same, new]
  · simp [same, List.lookup_cons, beq_false_of_ne same]

theorem toList_insert_of_new {map : OrderedMap β} {name : String} {value : β}
    (new : map.get? name = none) :
    (map.insert name value).toList = map.toList ++ [(name, value)] := by
  unfold insert
  split
  · next absent => exact toList_append absent
  · next position located =>
      rw [positions_eq_none_iff.mpr new] at located
      cases located

theorem toList_foldl_insert (map : OrderedMap β) (entries : List (String × β))
    (distinct : (map.toList.map Prod.fst ++ entries.map Prod.fst).Nodup) :
    (entries.foldl (fun map entry => map.insert entry.1 entry.2) map).toList =
      map.toList ++ entries := by
  induction entries generalizing map with
  | nil => simp
  | cons entry entries ih =>
      have new : map.get? entry.1 = none := by
        rw [get?_eq_none_iff]
        intro known
        exact (List.nodup_append.mp distinct).2.2 _ known entry.1 (by simp) rfl
      have inserted : (map.insert entry.1 entry.2).toList = map.toList ++ [entry] :=
        toList_insert_of_new new
      rw [List.foldl_cons, ih, inserted, List.append_assoc, List.singleton_append]
      rw [inserted]
      simpa [List.append_assoc] using distinct

theorem toList_ofList {entries : List (String × β)} (distinct : (entries.map Prod.fst).Nodup) :
    (ofList entries).toList = entries := by
  simpa [ofList] using toList_foldl_insert ∅ entries (by simpa using distinct)

theorem get?_mapValues {γ : Type} (f : β → γ) (map : OrderedMap β) (name : String) :
    (map.mapValues f).get? name = (map.get? name).map f := by
  unfold get? mapValues
  cases map.positions[name]? with
  | none => rfl
  | some position =>
      simp only [Option.bind_some, Array.getElem?_map, Option.map_map]
      rfl

@[simp] theorem toList_mapValues {γ : Type} (f : β → γ) (map : OrderedMap β) :
    (map.mapValues f).toList = map.toList.map fun entry => (entry.1, f entry.2) := by
  simp [mapValues, toList]

end OrderedMap

end HackAssembler
