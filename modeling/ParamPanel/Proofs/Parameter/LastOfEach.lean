import Mathlib.Data.List.Induction
import Mathlib.Data.List.Nodup
import ParamPanel.Parameter.Table

/-!
# The last parameter of each name

What a table makes of the parameters put into it, said without the table: the names in the order in
which they first came up, each with the last parameter that has it. Tables filled from two lists one
after the other follow from this.
-/

namespace ParamPanel

/-- The last parameter of a list that has a name. -/
def lastNamed? (parameters : List Parameter) (name : String) : Option Parameter :=
  parameters.reverse.find? (·.name = name)

/-- The last parameter of each name, the names in the order in which they first came up. -/
def lastOfEach (parameters : List Parameter) : List Parameter :=
  (parameters.map Parameter.name).eraseDups.filterMap (lastNamed? parameters)

lemma name_of_lastNamed? {parameters : List Parameter} {name : String} {parameter : Parameter}
    (h : lastNamed? parameters name = some parameter) : parameter.name = name := by
  simpa using List.find?_some h

lemma mem_of_lastNamed? {parameters : List Parameter} {name : String} {parameter : Parameter}
    (h : lastNamed? parameters name = some parameter) : parameter ∈ parameters := by
  simpa using List.mem_of_find?_eq_some h

lemma exists_split_of_lastNamed? {parameters : List Parameter} {name : String}
    {parameter : Parameter} (h : lastNamed? parameters name = some parameter) :
    ∃ earlier later, parameters = earlier ++ parameter :: later ∧
      ∀ other ∈ later, other.name ≠ name := by
  rw [lastNamed?, List.find?_eq_some_iff_append] at h
  obtain ⟨-, later, earlier, reversed, others⟩ := h
  refine ⟨earlier.reverse, later.reverse, ?_, ?_⟩
  · rw [← List.reverse_reverse parameters, reversed]
    simp
  · intro other mem
    simpa using others other (List.mem_reverse.mp mem)

lemma lastNamed?_eq_none_iff {parameters : List Parameter} {name : String} :
    lastNamed? parameters name = none ↔ name ∉ parameters.map Parameter.name := by
  rw [lastNamed?, List.find?_eq_none]
  simp

lemma exists_lastNamed? {parameters : List Parameter} {name : String}
    (h : name ∈ parameters.map Parameter.name) :
    ∃ parameter, lastNamed? parameters name = some parameter := by
  rw [← Option.isSome_iff_exists, lastNamed?, List.find?_isSome]
  simpa using h

lemma lastNamed?_append (earlier later : List Parameter) (name : String) :
    lastNamed? (earlier ++ later) name = (lastNamed? later name).or (lastNamed? earlier name) := by
  rw [lastNamed?, List.reverse_append, List.find?_append]
  rfl

lemma lastNamed?_singleton (parameter : Parameter) (name : String) :
    lastNamed? [parameter] name = if parameter.name = name then some parameter else none := by
  by_cases h : parameter.name = name <;> simp [lastNamed?, h]

/-- A parameter with none of its name behind it is the last one of its name. -/
lemma lastNamed?_of_split (earlier : List Parameter) {later : List Parameter} {last : Parameter}
    (others : ∀ other ∈ later, other.name ≠ last.name) :
    lastNamed? (earlier ++ last :: later) last.name = some last := by
  have none_later : lastNamed? later last.name = none := by
    rw [lastNamed?_eq_none_iff]
    intro mem
    obtain ⟨other, inside, named⟩ := List.mem_map.mp mem
    exact others other inside named
  rw [lastNamed?_append, ← List.singleton_append, lastNamed?_append, none_later,
    lastNamed?_singleton, if_pos rfl]
  rfl

lemma map_name_filterMap_lastNamed? (parameters : List Parameter) (names : List String)
    (h : ∀ name ∈ names, name ∈ parameters.map Parameter.name) :
    (names.filterMap (lastNamed? parameters)).map Parameter.name = names := by
  induction names with
  | nil => rfl
  | cons name names ih =>
    obtain ⟨parameter, found⟩ := exists_lastNamed? (h name (by simp))
    rw [List.filterMap_cons_some found, List.map_cons, name_of_lastNamed? found,
      ih (fun other mem => h other (by simp [mem]))]

/-- The names come in the order in which they first came up. -/
lemma map_name_lastOfEach (parameters : List Parameter) :
    (lastOfEach parameters).map Parameter.name = (parameters.map Parameter.name).eraseDups := by
  apply map_name_filterMap_lastNamed?
  intro name mem
  exact List.mem_eraseDups.mp mem

lemma mem_lastOfEach_iff {parameters : List Parameter} {parameter : Parameter} :
    parameter ∈ lastOfEach parameters ↔
      lastNamed? parameters parameter.name = some parameter := by
  rw [lastOfEach, List.mem_filterMap]
  constructor
  · rintro ⟨name, -, found⟩
    rwa [name_of_lastNamed? found]
  · intro found
    refine ⟨parameter.name, ?_, found⟩
    rw [List.mem_eraseDups]
    exact List.mem_map_of_mem (mem_of_lastNamed? found)

/-- One more parameter replaces the one of its name, or comes last when its name is new. -/
lemma lastOfEach_concat (parameters : List Parameter) (parameter : Parameter) :
    lastOfEach (parameters ++ [parameter]) =
      if parameter.name ∈ parameters.map Parameter.name then
        (lastOfEach parameters).map fun entry =>
          if entry.name = parameter.name then parameter else entry
      else lastOfEach parameters ++ [parameter] := by
  have step : ∀ name, lastNamed? (parameters ++ [parameter]) name =
      if parameter.name = name then some parameter else lastNamed? parameters name := by
    intro name
    rw [lastNamed?_append, lastNamed?_singleton]
    by_cases h : parameter.name = name <;> simp [h]
  have names : ((parameters ++ [parameter]).map Parameter.name).eraseDups =
      (parameters.map Parameter.name).eraseDups ++
        if parameter.name ∈ parameters.map Parameter.name then [] else [parameter.name] := by
    rw [List.map_append, List.eraseDups_append]
    by_cases h : parameter.name ∈ parameters.map Parameter.name
    · rw [if_pos h, List.map_singleton, List.removeAll, List.filter_cons_of_neg (by simpa using h)]
      rfl
    · rw [if_neg h, List.map_singleton, List.removeAll, List.filter_cons_of_pos (by simpa using h)]
      rfl
  rw [lastOfEach, names]
  split
  · rw [List.append_nil, lastOfEach, List.map_filterMap]
    apply List.filterMap_congr
    intro name mem
    obtain ⟨old, found⟩ := exists_lastNamed? (List.mem_eraseDups.mp mem)
    rw [step, found]
    by_cases h : parameter.name = name
    · simp [h, name_of_lastNamed? found]
    · have other : ¬ name = parameter.name := fun same => h same.symm
      simp [h, other, name_of_lastNamed? found]
  · rename_i unknown
    rw [List.filterMap_append, lastOfEach]
    congr 1
    · apply List.filterMap_congr
      intro name mem
      have other : parameter.name ≠ name := by
        rintro rfl
        exact unknown (List.mem_eraseDups.mp mem)
      rw [step, if_neg other]
    · simp [step]

namespace Table

lemma insertAll_append (table : Table) (earlier later : List Parameter) :
    table.insertAll (earlier ++ later) = (table.insertAll earlier).insertAll later :=
  List.foldl_append

/-- A table filled from a list holds the last parameter of each name. -/
theorem toList_ofList (parameters : List Parameter) :
    (ofList parameters).toList = lastOfEach parameters := by
  induction parameters using List.reverseRecOn with
  | nil => rfl
  | append_singleton parameters parameter ih =>
    have known : parameter.name ∈ (lastOfEach parameters).map Parameter.name ↔
        parameter.name ∈ parameters.map Parameter.name := by
      rw [map_name_lastOfEach, List.mem_eraseDups]
    rw [ofList, insertAll_append, lastOfEach_concat]
    change ((ofList parameters).insert parameter).toList = _
    rw [toList_insert, ih]
    simp only [known]

end Table

lemma nodup_names_lastOfEach (parameters : List Parameter) :
    ((lastOfEach parameters).map Parameter.name).Nodup := by
  rw [← Table.toList_ofList]
  exact Table.nodup_names _

lemma lastNamed?_eq_some_of_mem {parameters : List Parameter}
    (distinct : (parameters.map Parameter.name).Nodup) {parameter : Parameter}
    (mem : parameter ∈ parameters) : lastNamed? parameters parameter.name = some parameter := by
  obtain ⟨found, h⟩ := exists_lastNamed? (List.mem_map_of_mem (f := Parameter.name) mem)
  have same : found = parameter :=
    List.inj_on_of_nodup_map distinct (mem_of_lastNamed? h) mem (name_of_lastNamed? h)
  rw [h, same]

@[simp] lemma lastNamed?_lastOfEach (parameters : List Parameter) (name : String) :
    lastNamed? (lastOfEach parameters) name = lastNamed? parameters name := by
  by_cases mem : name ∈ parameters.map Parameter.name
  · obtain ⟨parameter, found⟩ := exists_lastNamed? mem
    have named := name_of_lastNamed? found
    have inside : parameter ∈ lastOfEach parameters := by
      rw [mem_lastOfEach_iff, named, found]
    have last := lastNamed?_eq_some_of_mem (nodup_names_lastOfEach parameters) inside
    rw [named] at last
    rw [last, found]
  · have gone : name ∉ (lastOfEach parameters).map Parameter.name := by
      rw [map_name_lastOfEach, List.mem_eraseDups]
      exact mem
    rw [lastNamed?_eq_none_iff.mpr mem, lastNamed?_eq_none_iff.mpr gone]

lemma eraseDups_eq_self {names : List String} (distinct : names.Nodup) :
    names.eraseDups = names := by
  induction names with
  | nil => rfl
  | cons name names ih =>
    have new : name ∉ names := (List.nodup_cons.mp distinct).1
    have others : names.filter (fun other => !other == name) = names := by
      rw [List.filter_eq_self]
      intro other mem
      have : other ≠ name := by rintro rfl; exact new mem
      simpa using this
    rw [List.eraseDups_cons, others, ih (List.nodup_cons.mp distinct).2]

lemma eraseDups_filter (p : String → Bool) (names : List String) :
    (names.filter p).eraseDups = names.eraseDups.filter p := by
  induction h : names.length using Nat.strongRecOn generalizing names with
  | ind n ih =>
    cases names with
    | nil => rfl
    | cons name names =>
      have shorter := List.length_filter_le (fun other => !other == name) names
      have rest := ih _ (by simp at h; omega) (names.filter fun other => !other == name) rfl
      rw [List.eraseDups_cons]
      by_cases kept : p name
      · rw [List.filter_cons_of_pos kept, List.filter_cons_of_pos kept, List.eraseDups_cons,
          List.filter_comm, rest]
      · have same : names.filter p = (names.filter fun other => !other == name).filter p := by
          rw [List.filter_filter]
          apply List.filter_congr
          intro other _
          by_cases equal : other = name <;> simp [equal, kept]
        rw [List.filter_cons_of_neg kept, List.filter_cons_of_neg kept, same, rest]

/-- Of two lists taken together, only what either keeps by itself matters. -/
theorem lastOfEach_append_lastOfEach (earlier later : List Parameter) :
    lastOfEach (lastOfEach earlier ++ lastOfEach later) = lastOfEach (earlier ++ later) := by
  have distinct (parameters : List Parameter) :
      (parameters.map Parameter.name).eraseDups.Nodup := by
    rw [← map_name_lastOfEach]
    exact nodup_names_lastOfEach parameters
  have names : ((lastOfEach earlier ++ lastOfEach later).map Parameter.name).eraseDups =
      ((earlier ++ later).map Parameter.name).eraseDups := by
    rw [List.map_append, List.map_append, map_name_lastOfEach, map_name_lastOfEach,
      List.eraseDups_append, List.eraseDups_append, eraseDups_eq_self (distinct earlier)]
    simp only [List.removeAll, eraseDups_filter, eraseDups_eq_self (distinct later)]
    congr 1
    apply List.filter_congr
    intro name _
    simp
  have found (name : String) : lastNamed? (lastOfEach earlier ++ lastOfEach later) name =
      lastNamed? (earlier ++ later) name := by
    rw [lastNamed?_append, lastNamed?_append, lastNamed?_lastOfEach, lastNamed?_lastOfEach]
  rw [lastOfEach, names]
  exact List.filterMap_congr fun name _ => found name

end ParamPanel
