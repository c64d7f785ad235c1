import ParamPanel.Proofs.Parameter.Values

/-!
# Tables after insertions

Whatever is put into a table, it holds one parameter for each name, the names in the order in which
they first came up and each with the last parameter that was put in under it. The index holds these
names and no others, each with its place.
-/

namespace ParamPanel.Table

/-- A name has a place in the index when the entry in that place has the name. -/
lemma places_eq_some_iff {table : Table} {name : String} {i : Nat} :
    table.places[name]? = some i ↔ ∃ h : i < table.entries.size, table.entries[i].name = name := by
  constructor
  · exact table.name_of_place name i
  · rintro ⟨inside, rfl⟩
    exact table.place_of_name i inside

lemma getElem?_map_name_toList {table : Table} {name : String} {i : Nat} :
    (table.toList.map Parameter.name)[i]? = some name ↔
      ∃ h : i < table.entries.size, table.entries[i].name = name := by
  rw [List.getElem?_eq_some_iff]
  simp [toList]

lemma foldl_insert_ofList (gathered added : List Parameter) :
    added.foldl insert (ofList gathered) = ofList (gathered ++ added) :=
  (insertAll_append empty gathered added).symm

/-- A look-up finds the last parameter that was put in under the name. -/
lemma get?_ofList (parameters : List Parameter) (name : String) :
    (ofList parameters).get? name = lastNamed? parameters name := by
  ext parameter
  rw [get?_eq_some_iff, toList_ofList, mem_lastOfEach_iff]
  constructor
  · rintro ⟨last, rfl⟩
    exact last
  · intro last
    have named := name_of_lastNamed? last
    exact ⟨by rw [named]; exact last, named⟩

lemma map_name_ofList (parameters : List Parameter) :
    (ofList parameters).toList.map Parameter.name =
      (parameters.map Parameter.name).eraseDups := by
  rw [toList_ofList, map_name_lastOfEach]

/-- What a table holds that was made from some parameters and into which others were put one by one:
the last of each name, in the order of the names, and an index that agrees with it. -/
theorem insertions_kept (gathered added : List Parameter) :
    let table := added.foldl insert (ofList gathered)
    let given := gathered ++ added
    let names := (given.map Parameter.name).eraseDups
    table.toList.map Parameter.name = names ∧
      (∀ entry, entry ∈ table.toList ↔ lastNamed? given entry.name = some entry) ∧
      (∀ name, table.get? name = lastNamed? given name) ∧
      (∀ name, table.get? name = none ↔ name ∉ given.map Parameter.name) ∧
      table.size = names.length ∧
      (∀ (name : String) (i : Nat), table.places[name]? = some i ↔ names[i]? = some name) ∧
      ∀ (name : String) (i : Nat), table.places[name]? = some i ↔
        ∃ h : i < table.entries.size, table.entries[i].name = name := by
  intro table given names
  have whole : table = ofList given := foldl_insert_ofList gathered added
  have in_order : table.toList.map Parameter.name = names := by
    rw [whole]
    exact map_name_ofList given
  have found (name : String) : table.get? name = lastNamed? given name := by
    rw [whole]
    exact get?_ofList given name
  have size_eq : table.size = names.length := by
    rw [← in_order, List.length_map]
    rfl
  refine ⟨in_order, ?_, found, ?_, size_eq, ?_, fun name i => places_eq_some_iff⟩
  · intro entry
    rw [whole, toList_ofList]
    exact mem_lastOfEach_iff
  · intro name
    rw [found, lastNamed?_eq_none_iff]
  · intro name i
    rw [← in_order, getElem?_map_name_toList]
    exact places_eq_some_iff

end ParamPanel.Table
