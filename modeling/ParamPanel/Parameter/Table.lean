import Std.Data.TreeMap
import ParamPanel.Parameter.Basic

/-!
# Parameter tables

Parameters in the order in which their names first came up, one to a name. The table keeps an index
from names to places; that the two agree is part of its type, so a look-up cannot miss.
-/

namespace ParamPanel

/-- An array of parameters and the place of every name in it. -/
structure Table where
  entries : Array Parameter
  places : Std.TreeMap String Nat
  /-- The place of a name holds a parameter of that name. -/
  name_of_place : ∀ name i, places[name]? = some i → ∃ h : i < entries.size, entries[i].name = name
  /-- The name of an entry has that entry's place. -/
  place_of_name : ∀ i (h : i < entries.size), places[entries[i].name]? = some i

namespace Table

def empty : Table where
  entries := #[]
  places := ∅
  name_of_place := by simp
  place_of_name := by simp

instance : Inhabited Table := ⟨empty⟩

/-- Puts a parameter in the place of the one with its name, or at the end when its name is new. -/
def insert (table : Table) (parameter : Parameter) : Table :=
  match found : table.places[parameter.name]? with
  | some i =>
    have inside : i < table.entries.size := (table.name_of_place _ _ found).1
    { entries := table.entries.set i parameter
      places := table.places
      name_of_place := by
        intro name j placed
        obtain ⟨h, named⟩ := table.name_of_place name j placed
        refine ⟨by simpa using h, ?_⟩
        by_cases same : i = j
        · subst same
          obtain ⟨_, here⟩ := table.name_of_place _ _ found
          simp [← named, here]
        · simp [Array.getElem_set, same, named]
      place_of_name := by
        intro j h
        by_cases same : i = j
        · subst same
          simpa using found
        · simpa [Array.getElem_set, same] using table.place_of_name j (by simpa using h) }
  | none =>
    { entries := table.entries.push parameter
      places := table.places.insert parameter.name table.entries.size
      name_of_place := by
        intro name j placed
        rw [Std.TreeMap.getElem?_insert] at placed
        split at placed
        · rename_i same
          cases placed
          exact ⟨by simp, by simpa using same⟩
        · obtain ⟨h, named⟩ := table.name_of_place name j placed
          exact ⟨by simp; omega, by simpa [Array.getElem_push, h] using named⟩
      place_of_name := by
        intro j h
        rw [Std.TreeMap.getElem?_insert, Array.getElem_push]
        by_cases old : j < table.entries.size
        · have placed := table.place_of_name j old
          have other : parameter.name ≠ table.entries[j].name := by
            intro same
            rw [same, placed] at found
            cases found
          simp [old, other, placed]
        · have last : j = table.entries.size := by simp at h; omega
          simp [last] }

def insertAll (table : Table) (parameters : List Parameter) : Table :=
  parameters.foldl insert table

def ofList (parameters : List Parameter) : Table := empty.insertAll parameters

def toList (table : Table) : List Parameter := table.entries.toList

def get? (table : Table) (name : String) : Option Parameter :=
  match found : table.places[name]? with
  | none => none
  | some i =>
    have inside : i < table.entries.size := (table.name_of_place _ _ found).1
    some table.entries[i]

/-- The number of parameters, which is the number of distinct names inserted. -/
def size (table : Table) : Nat := table.entries.size

def isEmpty (table : Table) : Bool := table.entries.isEmpty

theorem name_eq_of_get? {table : Table} {name : String} {parameter : Parameter}
    (h : table.get? name = some parameter) : parameter.name = name := by
  unfold get? at h
  split at h
  · cases h
  · rename_i i found
    cases h
    exact (table.name_of_place _ _ found).2

@[simp] theorem toList_empty : empty.toList = [] := rfl

/-- The parameters after an insertion: one of a known name is replaced where it stands, one of a
new name comes last. -/
theorem toList_insert (table : Table) (parameter : Parameter) :
    (table.insert parameter).toList =
      if parameter.name ∈ table.toList.map Parameter.name then
        table.toList.map fun entry => if entry.name = parameter.name then parameter else entry
      else table.toList ++ [parameter] := by
  unfold insert
  split
  · rename_i i found
    obtain ⟨inside, named⟩ := table.name_of_place _ _ found
    have known : parameter.name ∈ table.toList.map Parameter.name := by
      rw [← named]
      exact List.mem_map_of_mem (by simp [toList])
    rw [if_pos known]
    apply List.ext_getElem
    · simp [toList]
    · intro j h₁ h₂
      have h : j < table.entries.size := by simpa [toList] using h₂
      have place := table.place_of_name j h
      simp only [toList, Array.toList_set, List.getElem_set, List.getElem_map, Array.getElem_toList]
      by_cases same : i = j
      · subst same
        simp [named]
      · have other : table.entries[j].name ≠ parameter.name := by
          intro h'
          rw [h', found] at place
          cases place
          exact same rfl
        simp [same, other]
  · rename_i found
    have unknown : parameter.name ∉ table.toList.map Parameter.name := by
      intro mem
      obtain ⟨entry, mem, named⟩ := List.mem_map.mp mem
      obtain ⟨j, h, rfl⟩ := Array.getElem_of_mem (Array.mem_toList_iff.mp mem)
      have place := table.place_of_name j h
      rw [named, found] at place
      cases place
    rw [if_neg unknown]
    simp [toList]

/-- A look-up finds the parameter of the table that has the name, and only that. -/
theorem get?_eq_some_iff {table : Table} {name : String} {parameter : Parameter} :
    table.get? name = some parameter ↔ parameter ∈ table.toList ∧ parameter.name = name := by
  constructor
  · intro h
    refine ⟨?_, name_eq_of_get? h⟩
    unfold get? at h
    split at h
    · cases h
    · cases h
      simp [toList]
  · rintro ⟨mem, rfl⟩
    obtain ⟨i, h, rfl⟩ := List.mem_iff_getElem.mp mem
    have h : i < table.entries.size := by simpa [toList] using h
    have place := table.place_of_name i h
    simp only [toList, Array.getElem_toList]
    unfold get?
    split
    · rename_i found
      rw [found] at place
      cases place
    · rename_i j found
      rw [found] at place
      cases place
      rfl

theorem nodup_names (table : Table) : (table.toList.map Parameter.name).Nodup := by
  rw [List.Nodup, List.pairwise_iff_getElem]
  intro i j hi hj less same
  have hi : i < table.entries.size := by simpa [toList] using hi
  have hj : j < table.entries.size := by simpa [toList] using hj
  have place := table.place_of_name i hi
  have same : table.entries[i].name = table.entries[j].name := by simpa [toList] using same
  rw [same, table.place_of_name j hj] at place
  cases place
  omega

end Table

end ParamPanel
