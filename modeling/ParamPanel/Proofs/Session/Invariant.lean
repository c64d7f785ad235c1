import ParamPanel.Proofs.Session.Run

/-!
# What holds in every session

The parameters of a session and its defaults are kept apart, and still they stay together: they have
the same names and kinds, and taking every value back, in whatever order, gives the parameters of
the latest script again.
-/

namespace ParamPanel.Session

open Script (Keywords)

variable {session next : Session} {fresh : List Parameter} {chosen : Parameter → Value}

lemma Follows.eq_of_follows (h : session.Follows fresh chosen) (h' : next.Follows fresh chosen)
    (keywords : next.keywords = session.keywords) : next = session := by
  have parameters : next.parameters = session.parameters :=
    h'.parameters_eq.trans h.parameters_eq.symm
  have defaults : next.defaults = session.defaults := h'.defaults_eq.trans h.defaults_eq.symm
  cases session
  cases next
  simp_all

/-- Resets of known names are taken, and the names that were reset have what the script gives. -/
lemma Follows.resets (h : session.Follows fresh chosen) {order : List String}
    (known : ∀ name ∈ order, name ∈ fresh.map Parameter.name) :
    ∃ next, order.foldlM reset session = .ok next ∧ next.keywords = session.keywords ∧
      next.Follows fresh fun parameter =>
        if parameter.name ∈ order then parameter.value else chosen parameter := by
  refine h.foldlM_put h.coherent.kind_eq ?_ known
  intro held _ follows parameter mem
  exact follows.reset_eq_ok_iff.mpr ⟨parameter, mem, rfl, rfl⟩

lemma Follows.resets_eq_resetAll (h : session.Follows fresh chosen) {order : List String}
    (all : ∀ name, name ∈ order ↔ name ∈ fresh.map Parameter.name) :
    order.foldlM reset session = .ok session.resetAll := by
  obtain ⟨next, taken, keywords, follows⟩ := h.resets fun name mem => (all name).mp mem
  have every : next.Follows fresh Parameter.value := by
    apply follows.congr
    intro parameter mem
    rw [if_pos ((all _).mpr (List.mem_map_of_mem mem))]
  rw [taken, h.resetAll.eq_of_follows every keywords]

lemma Follows.resetAll_parameters (h : session.Follows fresh chosen) :
    session.resetAll.parameters = fresh := by
  rw [h.resetAll.parameters_eq]
  exact List.map_id fresh

lemma Follows.exists_reset_eq_error_iff (h : session.Follows fresh chosen) (name : String) :
    (∃ error, session.reset name = .error error) ↔ session.get? name = none := by
  rw [h.get?_eq_none_iff, ← h.map_name_parameters]
  simp only [h.reset_eq_error_iff]
  simp

/-- In every session that edits lead to, parameters and defaults fit together, and resets give the
parameters of the latest script. -/
theorem invariant_after (keywords : Keywords) (edits : List Edit) :
    let session := after keywords edits
    IsCoherent session.parameters ∧
      (∀ name, name ∈ session.defaults ↔ name ∈ session.parameters.map Parameter.name) ∧
      (∀ parameter ∈ session.parameters, ∃ value,
        session.defaults[parameter.name]? = some value ∧ value.kind = parameter.kind) ∧
      session.resetAll.parameters = extraction keywords edits ∧
      (∀ order : List String,
        (∀ name, name ∈ order ↔ name ∈ session.parameters.map Parameter.name) →
          order.foldlM reset session = .ok session.resetAll) ∧
      ∀ name, (∃ error, session.reset name = .error error) ↔ session.get? name = none := by
  intro session
  obtain ⟨chosen, h⟩ := follows_after keywords edits
  refine ⟨h.isCoherent_parameters, ?_, ?_, h.resetAll_parameters, ?_, h.exists_reset_eq_error_iff⟩
  · intro name
    rw [h.defaults_eq, mem_ofParameters_iff, h.map_name_parameters]
  · intro parameter mem
    rw [h.parameters_eq] at mem
    obtain ⟨given, inside, rfl⟩ := List.mem_map.mp mem
    exact ⟨given.value, h.default_eq inside, h.coherent.kind_eq given inside⟩
  · intro order all
    rw [h.map_name_parameters] at all
    exact h.resets_eq_resetAll all

/-- Two values that were chosen, taken back from the last name to the first. -/
theorem resets_after_two_edits :
    let session := after .standard [.update "a = true;\nb = \"x\";\n", .set "b" (.string "y"),
      .set "a" (.boolean false)]
    ["b", "a"].foldlM reset session = .ok session.resetAll := by
  intro session
  have all : ∀ name, name ∈ ["b", "a"] ↔ name ∈ session.parameters.map Parameter.name := by
    have names : session.parameters.map Parameter.name = ["a", "b"] := by decide +kernel
    intro name
    rw [names]
    simp [or_comm]
  exact (invariant_after .standard _).2.2.2.2.1 _ all

end ParamPanel.Session
