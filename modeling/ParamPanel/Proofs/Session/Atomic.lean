import ParamPanel.Proofs.Session.Calls

/-!
# Edits of one value

An edit of one value is refused as a whole, or it changes that value and nothing else. This is said
of edits that are carried out step by step on a session held in one place, where something might be
written before the refusal; on every session that is reached they end as the edits do that give the
next session.
-/

namespace ParamPanel.Session

open Script (Keywords)

/-- A session that edits or a JSON caller's calls lead to. -/
inductive IsReached : Session → Prop
  | edits (keywords : Keywords) (edits : List Edit) : IsReached (after keywords edits)
  | calls (calls : List Call) : IsReached (afterCalls .standard calls)

lemma IsReached.follows {session : Session} (reached : session.IsReached) :
    ∃ fresh chosen, session.Follows fresh chosen := by
  cases reached with
  | edits keywords edits => exact ⟨_, follows_after keywords edits⟩
  | calls calls =>
    rw [afterCalls_eq]
    exact ⟨_, follows_after .standard _⟩

/-! ### Changes of a session that is held in one place -/

section InPlace

variable {ε : Type}

/-- A change of the session that is held. What it writes before it fails stays written. -/
abbrev Change (ε α : Type) := ExceptT ε (StateM Session) α

/-- How a change of this session ends, and the session that is held then. -/
def Change.on (change : Change ε Unit) (session : Session) : Except ε Unit × Session :=
  (change.run.run session).run

@[simp] lemma Change.on_get_bind (rest : Session → Change ε Unit) (session : Session) :
    Change.on (get >>= rest) session = (rest session).on session := rfl

@[simp] lemma Change.on_throw (error : ε) (session : Session) :
    Change.on (throw error) session = (.error error, session) := rfl

@[simp] lemma Change.on_modify (f : Session → Session) (session : Session) :
    Change.on (modify f : Change ε PUnit) session = (.ok (), f session) := rfl

/-- Another name for the failures makes no difference to the session. -/
lemma Change.on_adapt {ε' : Type} (f : ε → ε') (change : Change ε Unit) (session : Session) :
    Change.on (change.adapt f) session =
      ((change.on session).1.mapError f, (change.on session).2) := rfl

/-- Writes over the value of the first parameter with a name. -/
def overwrite (session : Session) (name : String) (value : Value) : Session :=
  { session with
    parameters := session.parameters.modify (session.parameters.findIdx (·.name = name))
      fun held => { held with value } }

def writeValue (name : String) (value : Value) : Change EditError Unit := do
  let some held := (← get).get? name | throw (.unknownParameter name)
  if value.kind ≠ held.kind then throw (.kindMismatch name held.kind value.kind)
  if value.isFinite = false then throw (.notFinite name)
  modify (·.overwrite name value)

def writeDefault (name : String) : Change EditError Unit := do
  let some value := (← get).defaults[name]? | throw (.unknownParameter name)
  modify (·.overwrite name value)

def writeText (name text : String) : Change ExchangeError Unit :=
  match Value.ofJsonText text.toList with
  | .error failure => throw (.json failure)
  | .ok value => (writeValue name value).adapt .edit

/-- How an operation ends that gives the next session, and the session that is there then: a failed
one leaves the session it was used on. -/
def outcome (session : Session) : Except ε Session → Except ε Unit × Session
  | .ok next => (.ok (), next)
  | .error error => (.error error, session)

end InPlace

/-! ### What a change may change -/

/-- Another session that differs in one value, that of the only parameter with a name. -/
structure DiffersAt (session : Session) (name : String) (value : Value) (next : Session) :
    Prop where
  keywords_eq : next.keywords = session.keywords
  defaults_eq : next.defaults = session.defaults
  parameters_eq : ∃ before held behind, session.parameters = before ++ held :: behind ∧
    held.name = name ∧ (∀ other ∈ before ++ behind, other.name ≠ name) ∧
    next.parameters = before ++ { held with value } :: behind

/-- Why a value is not taken: the first of these reasons that there is. -/
inductive Refuses (session : Session) (name : String) (value : Value) : EditError → Prop
  | unknown : name ∉ session.parameters.map Parameter.name →
      Refuses session name value (.unknownParameter name)
  | kind (held : Parameter) : held ∈ session.parameters → held.name = name →
      value.kind ≠ held.kind → Refuses session name value (.kindMismatch name held.kind value.kind)
  | notFinite (held : Parameter) : held ∈ session.parameters → held.name = name →
      value.kind = held.kind → value.isFinite = false → Refuses session name value (.notFinite name)

lemma exists_split_of_nodup {parameters : List Parameter}
    (distinct : (parameters.map Parameter.name).Nodup) {held : Parameter}
    (mem : held ∈ parameters) : ∃ before behind, parameters = before ++ held :: behind ∧
      ∀ other ∈ before ++ behind, other.name ≠ held.name := by
  obtain ⟨before, behind, rfl⟩ := List.append_of_mem mem
  refine ⟨before, behind, rfl, ?_⟩
  rw [List.map_append, List.map_cons, List.nodup_middle, List.nodup_cons, ← List.map_append]
    at distinct
  rintro other inside same
  exact distinct.1 (List.mem_map.mpr ⟨other, inside, same⟩)

section Split

variable {session : Session} {before behind : List Parameter} {held : Parameter}

lemma put_parameters_of_split (whole : session.parameters = before ++ held :: behind)
    (others : ∀ other ∈ before ++ behind, other.name ≠ held.name) (value : Value) :
    (session.put held.name value).parameters = before ++ { held with value } :: behind := by
  -- Names are compared everywhere, and only the one in the middle is the name in question.
  have unchanged : ∀ part : List Parameter, (∀ other ∈ part, other.name ≠ held.name) →
      part.map (fun other => if other.name = held.name then { other with value } else other) =
        part := by
    intro part apart
    conv_rhs => rw [← List.map_id part]
    exact List.map_congr_left fun other mem => if_neg (apart other mem)
  have front := unchanged before fun other mem => others other (List.mem_append_left _ mem)
  have back := unchanged behind fun other mem => others other (List.mem_append_right _ mem)
  rw [put, whole, List.map_append, List.map_cons, front, back, if_pos rfl]

lemma overwrite_parameters_of_split (whole : session.parameters = before ++ held :: behind)
    (others : ∀ other ∈ before ++ behind, other.name ≠ held.name) (value : Value) :
    (session.overwrite held.name value).parameters = before ++ { held with value } :: behind := by
  have skipped : ∀ other ∈ before, decide (other.name = held.name) = false :=
    fun other mem => decide_eq_false (others other (List.mem_append_left _ mem))
  have place : session.parameters.findIdx (·.name = held.name) = before.length := by
    rw [whole, List.findIdx_append, List.findIdx_eq_length.mpr skipped, List.findIdx_cons]
    simp
  rw [overwrite, place, whole, List.modify_eq_take_cons_drop (by simp)]
  simp

end Split

lemma put_comm (session : Session) {name other : String} (apart : name ≠ other)
    (value later : Value) :
    (session.put name value).put other later = (session.put other later).put name value := by
  unfold put
  simp only [List.map_map]
  congr 1
  apply List.map_congr_left
  intro parameter _
  by_cases first : parameter.name = name
  · simp [first, apart]
  · by_cases second : parameter.name = other
    · simp [second, apart.symm]
    · simp [first, second]

namespace Follows

variable {session next : Session} {fresh : List Parameter} {chosen : Parameter → Value}

/-- Names are distinct, so it makes no difference whether a value is written over the first
parameter with a name or over all of them, and in either case over one only. -/
lemma overwrite_eq_put (h : session.Follows fresh chosen) {held : Parameter}
    (mem : held ∈ session.parameters) (value : Value) :
    session.overwrite held.name value = session.put held.name value := by
  obtain ⟨before, behind, whole, others⟩ :=
    exists_split_of_nodup h.isCoherent_parameters.nodup_names mem
  have same : (session.overwrite held.name value).parameters =
      (session.put held.name value).parameters := by
    rw [overwrite_parameters_of_split whole others, put_parameters_of_split whole others]
  exact congrArg (fun parameters => { session with parameters }) same

lemma differsAt_put (h : session.Follows fresh chosen) {held : Parameter}
    (mem : held ∈ session.parameters) (value : Value) :
    session.DiffersAt held.name value (session.put held.name value) := by
  obtain ⟨before, behind, whole, others⟩ :=
    exists_split_of_nodup h.isCoherent_parameters.nodup_names mem
  exact ⟨rfl, rfl, before, held, behind, whole, rfl, others,
    put_parameters_of_split whole others value⟩

lemma on_writeValue (h : session.Follows fresh chosen) (name : String) (value : Value) :
    (writeValue name value).on session = session.outcome (session.set name value) := by
  rw [writeValue, Change.on_get_bind, Session.set]
  cases found : session.get? name with
  | none => rfl
  | some held =>
    obtain ⟨mem, rfl⟩ := h.get?_eq_some_iff.mp found
    by_cases kind : value.kind = held.kind
    · by_cases finite : value.isFinite = true
      · simp [kind, finite, outcome, h.overwrite_eq_put mem]
      · simp [kind, finite, outcome]
    · simp [kind, outcome]

lemma on_writeDefault (h : session.Follows fresh chosen) (name : String) :
    (writeDefault name).on session = session.outcome (session.reset name) := by
  rw [writeDefault, Change.on_get_bind, Session.reset]
  cases found : session.defaults[name]? with
  | none => rfl
  | some value =>
    have known : name ∈ session.parameters.map Parameter.name := by
      rw [h.map_name_parameters]
      by_contra missing
      rw [h.default_eq_none_iff.mpr missing] at found
      cases found
    obtain ⟨held, mem, rfl⟩ := List.mem_map.mp known
    simp [outcome, h.overwrite_eq_put mem]

lemma on_writeText (h : session.Follows fresh chosen) (name text : String) :
    (writeText name text).on session = session.outcome (session.setJson name text) := by
  unfold writeText setJson
  cases Value.ofJsonText text.toList with
  | error failure => rfl
  | ok value =>
    dsimp only
    rw [Change.on_adapt, h.on_writeValue]
    cases session.set name value <;> rfl

/-- A value is refused for one of the reasons that there are, and only then. -/
lemma set_eq_error_iff (h : session.Follows fresh chosen) {name : String} {value : Value}
    {error : EditError} :
    session.set name value = .error error ↔ session.Refuses name value error := by
  constructor
  · intro refused
    unfold Session.set at refused
    split at refused
    · rename_i missing
      cases refused
      refine .unknown ?_
      rw [h.map_name_parameters]
      exact h.get?_eq_none_iff.mp missing
    · rename_i held found
      obtain ⟨mem, named⟩ := h.get?_eq_some_iff.mp found
      split at refused
      · rename_i kind
        cases refused
        exact .kind held mem named kind
      · rename_i kind
        split at refused
        · cases refused
        · rename_i finite
          cases refused
          exact .notFinite held mem named (not_not.mp kind) (by simpa using finite)
  · intro reason
    unfold Session.set
    cases reason with
    | unknown missing =>
      rw [h.map_name_parameters] at missing
      rw [h.get?_eq_none_iff.mpr missing]
    | kind held mem named other =>
      rw [h.get?_eq_some_iff.mpr ⟨mem, named⟩]
      exact if_pos other
    | notFinite held mem named kind infinite =>
      rw [h.get?_eq_some_iff.mpr ⟨mem, named⟩]
      simp [kind, infinite]

lemma differsAt_of_set (h : session.Follows fresh chosen) {name : String} {value : Value}
    (taken : session.set name value = .ok next) : session.DiffersAt name value next := by
  obtain ⟨⟨parameter, mem, rfl, -⟩, -, rfl⟩ := h.set_eq_ok_iff.mp taken
  exact h.differsAt_put (h.mem_parameters mem) value

lemma differsAt_of_reset (h : session.Follows fresh chosen) {name : String}
    (taken : session.reset name = .ok next) :
    ∃ value, session.defaults[name]? = some value ∧ session.DiffersAt name value next := by
  obtain ⟨parameter, mem, rfl, rfl⟩ := h.reset_eq_ok_iff.mp taken
  exact ⟨parameter.value, h.default_eq mem, h.differsAt_put (h.mem_parameters mem) _⟩

/-- Once a value is taken, values for other names are taken or not as before. -/
lemma set_eq_ok_iff_of_set (h : session.Follows fresh chosen) {name other : String}
    {value later : Value} {last : Session} (taken : session.set name value = .ok next) :
    next.set other later = .ok last ↔
      session.set other later = .ok (session.put other later) ∧ last = next.put other later := by
  obtain ⟨⟨parameter, mem, rfl, kind⟩, -, rfl⟩ := h.set_eq_ok_iff.mp taken
  rw [(h.put mem kind).set_eq_ok_iff, h.set_eq_ok_iff]
  tauto

/-- Two values that are taken for two names can be set in either order. -/
lemma exists_set_set (h : session.Follows fresh chosen) {name other : String}
    (apart : name ≠ other) {value later : Value} {first second : Session}
    (taken : session.set name value = .ok first)
    (also_taken : session.set other later = .ok second) :
    ∃ last, first.set other later = .ok last ∧ second.set name value = .ok last := by
  have first_eq : first = session.put name value := (h.set_eq_ok_iff.mp taken).2.2
  have second_eq : second = session.put other later := (h.set_eq_ok_iff.mp also_taken).2.2
  refine ⟨first.put other later, ?_, ?_⟩
  · rw [h.set_eq_ok_iff_of_set taken, ← second_eq]
    exact ⟨also_taken, rfl⟩
  · rw [h.set_eq_ok_iff_of_set also_taken, ← first_eq]
    refine ⟨taken, ?_⟩
    rw [first_eq, second_eq, put_comm session apart]

end Follows

/-! ### Values given as text -/

lemma setJson_eq_ok_iff {session next : Session} {name text : String} :
    session.setJson name text = .ok next ↔
      ∃ value, Value.ofJsonText text.toList = .ok value ∧ session.set name value = .ok next := by
  unfold setJson
  cases Value.ofJsonText text.toList with
  | error failure => simp
  | ok value => cases taken : session.set name value <;> simp [Except.mapError, taken]

/-- A text that does not decode is refused as such, whatever its name. -/
lemma setJson_eq_error_json_iff {session : Session} {name text : String} {failure : Json.Failure} :
    session.setJson name text = .error (.json failure) ↔
      Value.ofJsonText text.toList = .error failure := by
  unfold setJson
  cases Value.ofJsonText text.toList with
  | error failure => simp
  | ok value => cases ended : session.set name value <;> simp [Except.mapError, ended]

lemma setJson_eq_error_edit_iff {session : Session} {name text : String} {error : EditError} :
    session.setJson name text = .error (.edit error) ↔
      ∃ value, Value.ofJsonText text.toList = .ok value ∧
        session.set name value = .error error := by
  unfold setJson
  cases Value.ofJsonText text.toList with
  | error failure => simp
  | ok value => cases refused : session.set name value <;> simp [Except.mapError, refused]

/-- In every session that is reached, an edit of one value leaves the session as it was or differs
from it in this value only; it is refused for the first reason that there is, of which a text that
does not decode comes before all others; and edits of two names can change places. -/
theorem edits_atomic {session : Session} (reached : session.IsReached) (name : String) :
    (∀ value, (writeValue name value).on session = session.outcome (session.set name value) ∧
      (∀ error, session.set name value = .error error ↔ session.Refuses name value error) ∧
      ∀ next, session.set name value = .ok next → session.DiffersAt name value next) ∧
    (∀ text, (writeText name text).on session = session.outcome (session.setJson name text) ∧
      (∀ failure, session.setJson name text = .error (.json failure) ↔
        Value.ofJsonText text.toList = .error failure) ∧
      (∀ error, session.setJson name text = .error (.edit error) ↔
        ∃ value, Value.ofJsonText text.toList = .ok value ∧ session.Refuses name value error) ∧
      ∀ next, session.setJson name text = .ok next →
        ∃ value, Value.ofJsonText text.toList = .ok value ∧ session.DiffersAt name value next) ∧
    ((writeDefault name).on session = session.outcome (session.reset name) ∧
      (∀ error, session.reset name = .error error ↔
        name ∉ session.parameters.map Parameter.name ∧ error = .unknownParameter name) ∧
      ∀ next, session.reset name = .ok next →
        ∃ value, session.defaults[name]? = some value ∧ session.DiffersAt name value next) ∧
    ∀ other value later first, name ≠ other → session.set name value = .ok first →
      ((∃ last, first.set other later = .ok last) ↔
        ∃ second, session.set other later = .ok second) ∧
      ∀ second, session.set other later = .ok second →
        ∃ last, first.set other later = .ok last ∧ second.set name value = .ok last := by
  obtain ⟨fresh, chosen, h⟩ := reached.follows
  refine ⟨fun value => ?_, fun text => ?_, ?_, ?_⟩
  · exact ⟨h.on_writeValue name value, fun error => h.set_eq_error_iff,
      fun next => h.differsAt_of_set⟩
  · refine ⟨h.on_writeText name text, fun failure => setJson_eq_error_json_iff, ?_, ?_⟩
    · intro error
      simp only [setJson_eq_error_edit_iff, h.set_eq_error_iff]
    · intro next taken
      obtain ⟨value, decoded, written⟩ := setJson_eq_ok_iff.mp taken
      exact ⟨value, decoded, h.differsAt_of_set written⟩
  · exact ⟨h.on_writeDefault name, fun error => h.reset_eq_error_iff,
      fun next => h.differsAt_of_reset⟩
  · intro other value later first apart taken
    refine ⟨⟨?_, ?_⟩, fun second also_taken => h.exists_set_set apart taken also_taken⟩
    · rintro ⟨last, done⟩
      exact ⟨_, ((h.set_eq_ok_iff_of_set taken).mp done).1⟩
    · rintro ⟨second, also_taken⟩
      obtain ⟨last, done, -⟩ := h.exists_set_set apart taken also_taken
      exact ⟨last, done⟩

/-- Two values that are taken in either order, in a session in which a text was refused before. -/
theorem edits_atomic_after_refusal :
    let session := afterCalls .standard [.update "a = true;\nb = \"x\";\n", .set "b" "7"]
    ∃ last, (session.put "a" (.boolean false)).set "b" (.string "y") = .ok last ∧
      (session.put "b" (.string "y")).set "a" (.boolean false) = .ok last := by
  intro session
  have reached : session.IsReached := .calls _
  have held_a : session.get? "a" = some (.ofValue "a" (.boolean true)) := by decide +kernel
  have held_b : session.get? "b" = some (.ofValue "b" (.string "x")) := by decide +kernel
  have set_a : session.set "a" (.boolean false) = .ok (session.put "a" (.boolean false)) := by
    unfold set
    rw [held_a]
    rfl
  have set_b : session.set "b" (.string "y") = .ok (session.put "b" (.string "y")) := by
    unfold set
    rw [held_b]
    rfl
  exact ((edits_atomic reached "a").2.2.2 "b" (.boolean false) (.string "y") _ (by decide)
    set_a).2 _ set_b

end ParamPanel.Session
