import ParamPanel.Session
import ParamPanel.Proofs.Parameter.Values
import ParamPanel.Proofs.Script.Extraction

/-!
# What a session holds

A session only ever holds the parameters of its latest script, each with some value of its kind. One
lemma for each operation says which values it leaves.
-/

namespace ParamPanel

namespace Session

/-- A session holds these parameters with other values of the same kinds. -/
structure Follows (session : Session) (fresh : List Parameter) (chosen : Parameter → Value) :
    Prop where
  coherent : IsCoherent fresh
  parameters_eq : session.parameters = fresh.map fun parameter =>
    { parameter with value := chosen parameter }
  defaults_eq : session.defaults = .ofParameters fresh
  kind_eq : ∀ parameter ∈ fresh, (chosen parameter).kind = parameter.kind

namespace Follows

variable {session next : Session} {fresh : List Parameter} {chosen : Parameter → Value}

lemma congr (h : session.Follows fresh chosen) {chosen' : Parameter → Value}
    (same : ∀ parameter ∈ fresh, chosen parameter = chosen' parameter) :
    session.Follows fresh chosen' := by
  refine ⟨h.coherent, ?_, h.defaults_eq, ?_⟩
  · rw [h.parameters_eq]
    apply List.map_congr_left
    intro parameter mem
    rw [same parameter mem]
  · intro parameter mem
    rw [← same parameter mem]
    exact h.kind_eq parameter mem

lemma isCoherent_parameters (h : session.Follows fresh chosen) : IsCoherent session.parameters := by
  rw [h.parameters_eq]
  exact h.coherent.map_value h.kind_eq

lemma mem_parameters (h : session.Follows fresh chosen) {parameter : Parameter}
    (mem : parameter ∈ fresh) :
    { parameter with value := chosen parameter } ∈ session.parameters := by
  rw [h.parameters_eq]
  exact List.mem_map_of_mem mem

lemma exists_of_mem_parameters (h : session.Follows fresh chosen) {held : Parameter}
    (mem : held ∈ session.parameters) :
    ∃ parameter ∈ fresh, { parameter with value := chosen parameter } = held := by
  rw [h.parameters_eq] at mem
  exact List.mem_map.mp mem

lemma map_name_parameters (h : session.Follows fresh chosen) :
    session.parameters.map Parameter.name = fresh.map Parameter.name := by
  rw [h.parameters_eq, List.map_map]
  rfl

lemma default_eq (h : session.Follows fresh chosen) {parameter : Parameter}
    (mem : parameter ∈ fresh) : session.defaults[parameter.name]? = some parameter.value := by
  rw [h.defaults_eq]
  exact h.coherent.getElem?_ofParameters mem

lemma default_eq_none_iff (h : session.Follows fresh chosen) {name : String} :
    session.defaults[name]? = none ↔ name ∉ fresh.map Parameter.name := by
  rw [h.defaults_eq, getElem?_ofParameters, Option.map_eq_none_iff, lastNamed?_eq_none_iff]

/-- A name is looked up among the parameters that the session holds. -/
lemma get?_eq_some_iff (h : session.Follows fresh chosen) {name : String} {parameter : Parameter} :
    session.get? name = some parameter ↔
      parameter ∈ session.parameters ∧ parameter.name = name := by
  constructor
  · intro found
    exact ⟨List.mem_of_find?_eq_some found, by simpa using List.find?_some found⟩
  · rintro ⟨mem, rfl⟩
    obtain ⟨other, found⟩ : ∃ other, session.get? parameter.name = some other := by
      rw [← Option.isSome_iff_exists, get?, List.find?_isSome]
      exact ⟨parameter, mem, by simp⟩
    have named : other.name = parameter.name := by simpa using List.find?_some found
    rw [found, h.isCoherent_parameters.eq_of_name_eq (List.mem_of_find?_eq_some found) mem named]

lemma get?_of_mem (h : session.Follows fresh chosen) {parameter : Parameter}
    (mem : parameter ∈ fresh) :
    session.get? parameter.name = some { parameter with value := chosen parameter } :=
  h.get?_eq_some_iff.mpr ⟨h.mem_parameters mem, rfl⟩

lemma get?_eq_none_iff (h : session.Follows fresh chosen) {name : String} :
    session.get? name = none ↔ name ∉ fresh.map Parameter.name := by
  rw [← h.map_name_parameters, get?, List.find?_eq_none]
  simp

/-- A value of the right kind is put in the place of the one that a parameter has. -/
lemma put (h : session.Follows fresh chosen) {parameter : Parameter} (mem : parameter ∈ fresh)
    {value : Value} (kind : value.kind = parameter.kind) :
    (session.put parameter.name value).Follows fresh fun other =>
      if other.name = parameter.name then value else chosen other := by
  refine ⟨h.coherent, ?_, h.defaults_eq, ?_⟩
  · unfold Session.put
    rw [h.parameters_eq, List.map_map]
    apply List.map_congr_left
    intro other _
    by_cases named : other.name = parameter.name <;> simp [named]
  · intro other inside
    by_cases named : other.name = parameter.name
    · rw [if_pos named, kind, h.coherent.eq_of_name_eq inside mem named]
    · rw [if_neg named]
      exact h.kind_eq other inside

/-- A parameter takes the value that is given for it. -/
lemma put_given (h : session.Follows fresh chosen) {given : Parameter → Value}
    (kind : ∀ parameter ∈ fresh, (given parameter).kind = parameter.kind) {parameter : Parameter}
    (mem : parameter ∈ fresh) :
    (session.put parameter.name (given parameter)).Follows fresh fun other =>
      if other.name = parameter.name then given other else chosen other := by
  apply (h.put mem (kind parameter mem)).congr
  intro other inside
  by_cases named : other.name = parameter.name
  · rw [if_pos named, if_pos named, h.coherent.eq_of_name_eq inside mem named]
  · rw [if_neg named, if_neg named]

/-- Steps that put the given values of known names are all taken, and the names that they went
through have these values. -/
lemma foldlM_put {ε : Type} {step : Session → String → Except ε Session} {given : Parameter → Value}
    (kind : ∀ parameter ∈ fresh, (given parameter).kind = parameter.kind)
    (taken : ∀ (session : Session) (chosen : Parameter → Value), session.Follows fresh chosen →
      ∀ parameter ∈ fresh,
        step session parameter.name = .ok (session.put parameter.name (given parameter)))
    (h : session.Follows fresh chosen) {order : List String}
    (known : ∀ name ∈ order, name ∈ fresh.map Parameter.name) :
    ∃ next, order.foldlM step session = .ok next ∧ next.keywords = session.keywords ∧
      next.Follows fresh fun parameter =>
        if parameter.name ∈ order then given parameter else chosen parameter := by
  -- A name may come again, so the values say only whether a name is among those gone through.
  induction order generalizing session chosen with
  | nil =>
    refine ⟨session, rfl, rfl, h.congr ?_⟩
    intro parameter _
    rw [if_neg List.not_mem_nil]
  | cons name order ih =>
    obtain ⟨parameter, mem, rfl⟩ := List.mem_map.mp (known name (by simp))
    obtain ⟨next, later, keywords, follows⟩ := ih (h.put_given kind mem) fun other inside =>
      known other (by simp [inside])
    refine ⟨next, ?_, keywords, follows.congr ?_⟩
    · rw [List.foldlM_cons, taken session chosen h parameter mem]
      exact later
    · intro other _
      by_cases first : other.name = parameter.name
      · simp [first]
      · simp [first]

/-- A value is taken when a parameter has the name, the value is of its kind, and it is finite. -/
lemma set_eq_ok_iff (h : session.Follows fresh chosen) {name : String} {value : Value} :
    session.set name value = .ok next ↔
      (∃ parameter ∈ fresh, parameter.name = name ∧ value.kind = parameter.kind) ∧
        value.isFinite = true ∧ next = session.put name value := by
  cases found : session.get? name with
  | none =>
    have unknown := h.get?_eq_none_iff.mp found
    unfold Session.set
    rw [found]
    constructor
    · intro taken
      cases taken
    · rintro ⟨⟨parameter, mem, rfl, -⟩, -⟩
      exact absurd (List.mem_map_of_mem mem) unknown
  | some held =>
    obtain ⟨mem, rfl⟩ := h.get?_eq_some_iff.mp found
    obtain ⟨parameter, inside, rfl⟩ := h.exists_of_mem_parameters mem
    have only : (∃ other ∈ fresh, other.name = parameter.name ∧ value.kind = other.kind) ↔
        value.kind = parameter.kind := by
      constructor
      · rintro ⟨other, mem, named, kind⟩
        rw [kind, h.coherent.eq_of_name_eq mem inside named]
      · intro kind
        exact ⟨parameter, inside, rfl, kind⟩
    unfold Session.set
    rw [found, only]
    by_cases kind : value.kind = parameter.kind
    · by_cases finite : value.isFinite = true
      · simp [kind, finite, eq_comm]
      · simp [kind, finite]
    · simp [kind]

/-- A value of another kind is refused, whatever else there is to say against it. -/
lemma set_of_kind_ne (h : session.Follows fresh chosen) {parameter : Parameter}
    (mem : parameter ∈ fresh) {value : Value} (other : value.kind ≠ parameter.kind) :
    session.set parameter.name value =
      .error (.kindMismatch parameter.name parameter.kind value.kind) := by
  unfold Session.set
  rw [h.get?_of_mem mem]
  exact if_pos other

lemma reset_eq_ok_iff (h : session.Follows fresh chosen) {name : String} :
    session.reset name = .ok next ↔
      ∃ parameter ∈ fresh, parameter.name = name ∧ next = session.put name parameter.value := by
  unfold Session.reset
  rw [h.defaults_eq, getElem?_ofParameters]
  cases found : lastNamed? fresh name with
  | none =>
    have unknown := lastNamed?_eq_none_iff.mp found
    constructor
    · intro taken
      cases taken
    · rintro ⟨parameter, mem, rfl, -⟩
      exact absurd (List.mem_map_of_mem mem) unknown
  | some parameter =>
    obtain ⟨mem, rfl⟩ := h.coherent.lastNamed?_eq_some_iff.mp found
    constructor
    · intro taken
      cases taken
      exact ⟨parameter, mem, rfl, rfl⟩
    · rintro ⟨other, inside, named, rfl⟩
      rw [h.coherent.eq_of_name_eq inside mem named]
      rfl

/-- A parameter is taken back unless there is none of the name. -/
lemma reset_eq_error_iff (h : session.Follows fresh chosen) {name : String}
    {error : EditError} :
    session.reset name = .error error ↔
      name ∉ session.parameters.map Parameter.name ∧ error = .unknownParameter name := by
  rw [h.map_name_parameters, ← h.default_eq_none_iff]
  unfold Session.reset
  cases session.defaults[name]? with
  | none => simp [eq_comm]
  | some value => simp

lemma resetAll (h : session.Follows fresh chosen) :
    session.resetAll.Follows fresh Parameter.value := by
  refine ⟨h.coherent, ?_, h.defaults_eq, h.coherent.kind_eq⟩
  unfold Session.resetAll
  rw [h.parameters_eq, List.map_map]
  apply List.map_congr_left
  intro parameter mem
  rw [Function.comp_apply, h.default_eq mem]
  rfl

end Follows

/-- The parameters come from the new script, and their values from the session where they fit. -/
lemma follows_update (session : Session) (script : String) :
    (session.update script).Follows (Script.parameters session.keywords script) fun parameter =>
      (parameter.adopt (.ofParameters session.parameters)).value := by
  have coherent := Script.isCoherent_parameters session.keywords script
  unfold Session.update
  generalize Script.parameters session.keywords script = fresh at coherent
  refine ⟨coherent, ?_, rfl, ?_⟩
  · apply List.map_congr_left
    intro parameter _
    exact adopt_eq parameter _
  · intro parameter mem
    exact kind_value_adopt (coherent.kind_eq parameter mem) _

end Session

end ParamPanel
