import ParamPanel.Proofs.Session.Follows

/-!
# Runs of edits

Whatever is done to a session, its parameters are those of its latest script with other values of
the same kinds, and its defaults are the values that this script gives.
-/

namespace ParamPanel

open Script (Keywords)

/-- What a user can do to a session. -/
inductive Edit where
  | update (script : String)
  | set (name : String) (value : Value)
  | reset (name : String)
  | resetAll

/-- The script that an edit brings. -/
def Edit.script? : Edit → Option String
  | update script => some script
  | _ => none

lemma Edit.exists_eq_update {edit : Edit} (brought : edit.script? ≠ none) :
    ∃ script, edit = update script := by
  cases edit with
  | update script => exact ⟨script, rfl⟩
  | set name value => exact absurd rfl brought
  | reset name => exact absurd rfl brought
  | resetAll => exact absurd rfl brought

def latestScript? (edits : List Edit) : Option String := (edits.filterMap Edit.script?).getLast?

/-- What extraction gives for the latest script; nothing as long as there is none. -/
def extraction (keywords : Keywords) (edits : List Edit) : List Parameter :=
  ((latestScript? edits).map (Script.parameters keywords)).getD []

namespace Session

def edited (session : Session) : Edit → Except EditError Session
  | .update script => .ok (session.update script)
  | .set name value => session.set name value
  | .reset name => session.reset name
  | .resetAll => .ok session.resetAll

/-- The session after an edit; a refused edit leaves it as it is. -/
def apply (session : Session) (edit : Edit) : Session :=
  match session.edited edit with
  | .ok next => next
  | .error _ => session

/-- The session after a run of edits, the first of which finds it without a script. -/
def after (keywords : Keywords) (edits : List Edit) : Session := edits.foldl apply (new keywords)

/-- The value that the latest script gives a name. -/
def default? (keywords : Keywords) (edits : List Edit) (name : String) : Option Value :=
  (lastNamed? (extraction keywords edits) name).map Parameter.value

/-- The value that an edit writes for a name when it comes after others: one that is set for it, or
the one that the script gives when it is reset. -/
def written? (keywords : Keywords) (earlier : List Edit) (name : String) : Edit → Option Value
  | .update _ => none
  | .set other value =>
    if other = name ∧ ((after keywords earlier).set other value).isOk then some value else none
  | .reset other => if other = name then default? keywords earlier name else none
  | .resetAll => default? keywords earlier name

lemma after_concat (keywords : Keywords) (edits : List Edit) (edit : Edit) :
    after keywords (edits ++ [edit]) = (after keywords edits).apply edit := by
  rw [after, List.foldl_append]
  rfl

lemma apply_of_ok {session next : Session} (edit : Edit) (taken : session.edited edit = .ok next) :
    session.apply edit = next := by
  unfold apply
  rw [taken]

lemma apply_of_error {session : Session} (edit : Edit) {error : EditError}
    (refused : session.edited edit = .error error) : session.apply edit = session := by
  unfold apply
  rw [refused]

lemma keywords_of_set {session next : Session} {name : String} {value : Value}
    (taken : session.set name value = .ok next) : next.keywords = session.keywords := by
  unfold Session.set at taken
  split at taken
  · cases taken
  · split at taken
    · cases taken
    · split at taken
      · cases taken
        rfl
      · cases taken

lemma keywords_of_reset {session next : Session} {name : String}
    (taken : session.reset name = .ok next) : next.keywords = session.keywords := by
  unfold Session.reset at taken
  split at taken
  · cases taken
  · cases taken
    rfl

lemma keywords_apply (session : Session) (edit : Edit) :
    (session.apply edit).keywords = session.keywords := by
  cases result : session.edited edit with
  | error error => rw [apply_of_error edit result]
  | ok next =>
    rw [apply_of_ok edit result]
    cases edit with
    | update script =>
      cases result
      unfold update
      rfl
    | set name value => exact keywords_of_set result
    | reset name => exact keywords_of_reset result
    | resetAll =>
      cases result
      unfold resetAll
      rfl

lemma keywords_after (keywords : Keywords) (edits : List Edit) :
    (after keywords edits).keywords = keywords := by
  induction edits using List.reverseRecOn with
  | nil => rfl
  | append_singleton edits edit ih => rw [after_concat, keywords_apply, ih]

lemma latestScript?_concat (edits : List Edit) (edit : Edit) :
    latestScript? (edits ++ [edit]) = edit.script?.or (latestScript? edits) := by
  rw [latestScript?, List.filterMap_append, List.getLast?_append]
  cases edit <;> rfl

lemma extraction_concat_update (keywords : Keywords) (edits : List Edit) (script : String) :
    extraction keywords (edits ++ [.update script]) = Script.parameters keywords script := by
  rw [extraction, latestScript?_concat, Edit.script?, Option.some_or, Option.map_some,
    Option.getD_some]

lemma extraction_concat (keywords : Keywords) (edits : List Edit) {edit : Edit}
    (same : edit.script? = none) :
    extraction keywords (edits ++ [edit]) = extraction keywords edits := by
  rw [extraction, latestScript?_concat, same, Option.none_or, ← extraction]

lemma exists_script_of_mem_extraction {keywords : Keywords} {edits : List Edit}
    {parameter : Parameter}
    (mem : parameter ∈ extraction keywords edits) :
    ∃ script ∈ edits.filterMap Edit.script?, parameter ∈ Script.parameters keywords script := by
  unfold extraction at mem
  cases latest : latestScript? edits with
  | none =>
    rw [latest] at mem
    cases mem
  | some script =>
    rw [latest] at mem
    exact ⟨script, List.mem_of_getLast? latest, mem⟩

section Step

variable {keywords : Keywords} {edits : List Edit} {chosen : Parameter → Value}

lemma follows_set (h : (after keywords edits).Follows (extraction keywords edits) chosen)
    (name : String) (value : Value) :
    ((after keywords edits).apply (.set name value)).Follows (extraction keywords edits)
      fun parameter => (written? keywords edits parameter.name (.set name value)).getD
        (chosen parameter) := by
  simp only [written?]
  cases result : (after keywords edits).set name value with
  | error error =>
    rw [apply_of_error (.set name value) result]
    apply h.congr
    intro parameter _
    rw [if_neg fun both => absurd both.2 Bool.false_ne_true]
    rfl
  | ok next =>
    rw [apply_of_ok (.set name value) result]
    obtain ⟨⟨parameter, mem, rfl, kind⟩, -, rfl⟩ := h.set_eq_ok_iff.mp result
    apply (h.put mem kind).congr
    intro other _
    by_cases same : other.name = parameter.name
    · rw [if_pos same, if_pos ⟨same.symm, rfl⟩]
      rfl
    · rw [if_neg same, if_neg fun both => same both.1.symm]
      rfl

lemma default?_of_mem (h : IsCoherent (extraction keywords edits)) {parameter : Parameter}
    (mem : parameter ∈ extraction keywords edits) :
    default? keywords edits parameter.name = some parameter.value := by
  rw [default?, lastNamed?_eq_some_of_mem h.nodup_names mem]
  rfl

lemma follows_reset (h : (after keywords edits).Follows (extraction keywords edits) chosen)
    (name : String) :
    ((after keywords edits).apply (.reset name)).Follows (extraction keywords edits)
      fun parameter => (written? keywords edits parameter.name (.reset name)).getD
        (chosen parameter) := by
  simp only [written?]
  cases result : (after keywords edits).reset name with
  | error error =>
    rw [apply_of_error (.reset name) result]
    apply h.congr
    intro parameter mem
    have different : ¬ name = parameter.name := by
      intro named
      have taken := h.reset_eq_ok_iff.mpr ⟨parameter, mem, named.symm, rfl⟩
      rw [result] at taken
      cases taken
    rw [if_neg different]
    rfl
  | ok next =>
    rw [apply_of_ok (.reset name) result]
    obtain ⟨parameter, mem, rfl, rfl⟩ := h.reset_eq_ok_iff.mp result
    apply (h.put_given h.coherent.kind_eq mem).congr
    intro other inside
    by_cases same : other.name = parameter.name
    · rw [if_pos same, if_pos same.symm, default?_of_mem h.coherent inside]
      rfl
    · rw [if_neg same, if_neg fun h => same h.symm]
      rfl

/-- An edit that brings no script leaves a parameter with what it writes for it, if it does. -/
theorem follows_concat (h : (after keywords edits).Follows (extraction keywords edits) chosen)
    {edit : Edit} (same : edit.script? = none) :
    (after keywords (edits ++ [edit])).Follows (extraction keywords (edits ++ [edit]))
      fun parameter => (written? keywords edits parameter.name edit).getD (chosen parameter) := by
  rw [after_concat, extraction_concat keywords edits same]
  cases edit with
  | update script => cases same
  | set name value => exact follows_set h name value
  | reset name => exact follows_reset h name
  | resetAll =>
    apply h.resetAll.congr
    intro parameter mem
    rw [written?, default?_of_mem h.coherent mem]
    rfl

end Step

lemma follows_concat_update (keywords : Keywords) (edits : List Edit) (script : String) :
    (after keywords (edits ++ [.update script])).Follows
      (extraction keywords (edits ++ [.update script])) fun parameter =>
        (parameter.adopt (.ofParameters (after keywords edits).parameters)).value := by
  have h := follows_update (after keywords edits) script
  rw [keywords_after] at h
  rw [after_concat, extraction_concat_update]
  exact h

/-- After any run of edits a session holds the parameters of its latest script. -/
theorem follows_after (keywords : Keywords) (edits : List Edit) :
    ∃ chosen, (after keywords edits).Follows (extraction keywords edits) chosen := by
  induction edits using List.reverseRecOn with
  | nil =>
    refine ⟨Parameter.value, isCoherent_nil, rfl, rfl, ?_⟩
    intro parameter mem
    cases mem
  | append_singleton edits edit ih =>
    obtain ⟨chosen, h⟩ := ih
    by_cases brought : edit.script? = none
    · exact ⟨_, follows_concat h brought⟩
    · obtain ⟨script, rfl⟩ := Edit.exists_eq_update brought
      exact ⟨_, follows_concat_update keywords edits script⟩

end Session

end ParamPanel
