import ParamPanel.Proofs.Session.Run

/-!
# Where a value comes from

The value of a parameter is told by the history of its session. It goes back to the first of the
latest updates that all declare the name with the same kind: that update gives the value its script
has, and from there on only a value that is set and taken, or a reset, writes another.
-/

namespace ParamPanel.Session

open Script (Keywords)

/-- The value held under a name. -/
def value? (session : Session) (name : String) : Option Value :=
  (session.get? name).map Parameter.value

def Declares (keywords : Keywords) (script name : String) (kind : Kind) : Prop :=
  ∃ parameter ∈ Script.parameters keywords script, parameter.name = name ∧ parameter.kind = kind

/-- The updates from `script` on are all the latest ones whose scripts declare the name so: every
one of them does, and the one before them does not. -/
def IsDeclaredSince (keywords : Keywords) (name : String) (kind : Kind) (before : List Edit)
    (script : String) (later : List Edit) : Prop :=
  (∀ other ∈ script :: later.filterMap Edit.script?, Declares keywords other name kind) ∧
    ∀ other ∈ latestScript? before, ¬ Declares keywords other name kind

/-- No edit of a run that comes after others writes a value for the name. -/
def NoneWritten (keywords : Keywords) (name : String) (earlier run : List Edit) : Prop :=
  ∀ front edit rest, run = front ++ edit :: rest →
    written? keywords (earlier ++ front) name edit = none

/-- The value is the one that the last writing edit of a run writes, or the first value when there
is no such edit. -/
def LatestWritten (keywords : Keywords) (name : String) (earlier run : List Edit)
    (first value : Value) : Prop :=
  value = first ∧ NoneWritten keywords name earlier run ∨
    ∃ front edit rest, run = front ++ edit :: rest ∧
      written? keywords (earlier ++ front) name edit = some value ∧
      NoneWritten keywords name (earlier ++ (front ++ [edit])) rest

variable {keywords : Keywords} {name : String} {kind : Kind} {edits earlier run : List Edit}

lemma noneWritten_nil : NoneWritten keywords name earlier [] := by
  intro front edit rest h
  simp at h

lemma NoneWritten.concat (h : NoneWritten keywords name earlier run) {edit : Edit}
    (last : written? keywords (earlier ++ run) name edit = none) :
    NoneWritten keywords name earlier (run ++ [edit]) := by
  intro front other rest split
  rcases List.eq_nil_or_concat rest with rfl | ⟨rest, final, rfl⟩
  · obtain ⟨rfl, same⟩ := List.append_inj' split rfl
    cases same
    exact last
  · rw [List.concat_eq_append, ← List.cons_append, ← List.append_assoc] at split
    obtain ⟨rfl, -⟩ := List.append_inj' split rfl
    exact h front other rest rfl

/-- One more edit leaves the value that it writes, or the one that was left before. -/
lemma LatestWritten.concat {first value : Value}
    (h : LatestWritten keywords name earlier run first value) (edit : Edit) :
    LatestWritten keywords name earlier (run ++ [edit]) first
      ((written? keywords (earlier ++ run) name edit).getD value) := by
  cases last : written? keywords (earlier ++ run) name edit with
  | some other => exact .inr ⟨run, edit, [], rfl, last, noneWritten_nil⟩
  | none =>
    rcases h with ⟨rfl, none_written⟩ | ⟨front, writing, rest, rfl, wrote, none_written⟩
    · exact .inl ⟨rfl, none_written.concat last⟩
    · refine .inr ⟨front, writing, rest ++ [edit], ?_, wrote, none_written.concat ?_⟩
      · simp
      · simpa using last

lemma IsDeclaredSince.concat {before later : List Edit} {script : String}
    (h : IsDeclaredSince keywords name kind before script later) {edit : Edit}
    (declared : ∀ other ∈ edit.script?, Declares keywords other name kind) :
    IsDeclaredSince keywords name kind before script (later ++ [edit]) := by
  refine ⟨?_, h.2⟩
  intro other mem
  rw [List.filterMap_append, ← List.cons_append, List.mem_append] at mem
  rcases mem with mem | mem
  · exact h.1 other mem
  · obtain ⟨brought, inside, found⟩ := List.mem_filterMap.mp mem
    rw [List.mem_singleton.mp inside] at found
    exact declared other found

lemma latestScript?_append_update (before later : List Edit) (script : String) :
    latestScript? (before ++ [.update script] ++ later) =
      (script :: later.filterMap Edit.script?).getLast? := by
  rw [List.append_assoc, latestScript?, List.filterMap_append, List.getLast?_append]
  change (script :: later.filterMap Edit.script?).getLast?.or _ = _
  rw [List.getLast?_cons, Option.some_or]

/-- All along the run the latest script declares the name so. -/
lemma IsDeclaredSince.declares {before front rest : List Edit} {script : String}
    (h : IsDeclaredSince keywords name kind before script (front ++ rest)) :
    ∃ other ∈ latestScript? (before ++ [.update script] ++ front),
      Declares keywords other name kind := by
  obtain ⟨other, last⟩ : ∃ other, (script :: front.filterMap Edit.script?).getLast? = some other :=
    ⟨_, List.getLast?_cons⟩
  refine ⟨other, ?_, ?_⟩
  · rw [latestScript?_append_update]
    exact last
  · apply h.1
    rw [List.filterMap_append, ← List.cons_append]
    exact List.mem_append_left _ (List.mem_of_getLast? last)

/-- A session holds the names and kinds that its latest script declares. -/
lemma exists_mem_parameters_iff :
    (∃ parameter ∈ (after keywords edits).parameters,
        parameter.name = name ∧ parameter.kind = kind) ↔
      ∃ script ∈ latestScript? edits, Declares keywords script name kind := by
  obtain ⟨chosen, h⟩ := follows_after keywords edits
  have given :
      (∃ parameter ∈ extraction keywords edits, parameter.name = name ∧ parameter.kind = kind) ↔
        ∃ script ∈ latestScript? edits, Declares keywords script name kind := by
    unfold extraction
    cases latestScript? edits with
    | none => simp
    | some script => simp [Declares]
  rw [← given]
  constructor
  · rintro ⟨held, mem, named, same⟩
    obtain ⟨parameter, inside, rfl⟩ := h.exists_of_mem_parameters mem
    exact ⟨parameter, inside, named, same⟩
  · rintro ⟨parameter, inside, named, same⟩
    exact ⟨_, h.mem_parameters inside, named, same⟩

/-- What an update finds in a session under the name and with the kind of a fresh parameter is what
that parameter takes. -/
lemma value_adopt {held : List Parameter} (coherent : IsCoherent held) (given : Parameter) :
    (∃ other ∈ held, other.name = given.name ∧ other.kind = given.kind ∧
        (given.adopt (.ofParameters held)).value = other.value) ∨
      (given.adopt (.ofParameters held)).value = given.value ∧
        ∀ other ∈ held, other.name = given.name → other.kind ≠ given.kind := by
  cases found : lastNamed? held given.name with
  | none =>
    rw [adopt_of_lastNamed?_eq_none found]
    refine .inr ⟨rfl, ?_⟩
    intro other mem named
    have unknown := lastNamed?_eq_none_iff.mp found
    rw [← named] at unknown
    exact absurd (List.mem_map_of_mem mem) unknown
  | some other =>
    obtain ⟨mem, named⟩ := coherent.lastNamed?_eq_some_iff.mp found
    rw [adopt_of_lastNamed? found]
    by_cases fits : other.value.kind = given.kind
    · rw [if_pos fits]
      exact .inl ⟨other, mem, named, (coherent.kind_eq other mem).symm.trans fits, rfl⟩
    · rw [if_neg fits]
      refine .inr ⟨rfl, ?_⟩
      intro another inside same
      rw [coherent.eq_of_name_eq inside mem (same.trans named.symm)]
      rwa [← coherent.kind_eq other mem]

/-- A parameter had its name and kind before an edit, and has the value it had then unless the edit
wrote another; or the edit brought it, and it has the value of the script. -/
theorem value_concat {edit : Edit} {parameter : Parameter}
    (mem : parameter ∈ (after keywords (edits ++ [edit])).parameters) :
    (∃ old ∈ (after keywords edits).parameters, old.name = parameter.name ∧
        old.kind = parameter.kind ∧
        parameter.value = (written? keywords edits parameter.name edit).getD old.value) ∨
      ∃ script, edit = .update script ∧
        (∃ first ∈ Script.parameters keywords script, first.name = parameter.name ∧
          first.value = parameter.value) ∧
        ∀ old ∈ (after keywords edits).parameters, old.name = parameter.name →
          old.kind ≠ parameter.kind := by
  obtain ⟨chosen, h⟩ := follows_after keywords edits
  by_cases brought : edit.script? = none
  · left
    obtain ⟨given, inside, rfl⟩ := (follows_concat h brought).exists_of_mem_parameters mem
    rw [extraction_concat keywords edits brought] at inside
    exact ⟨{ given with value := chosen given }, h.mem_parameters inside, rfl, rfl, rfl⟩
  · obtain ⟨script, rfl⟩ := Edit.exists_eq_update brought
    obtain ⟨given, inside, rfl⟩ :=
      (follows_concat_update keywords edits script).exists_of_mem_parameters mem
    rw [extraction_concat_update] at inside
    rcases value_adopt h.isCoherent_parameters given with
      ⟨old, held, named, same, value⟩ | ⟨value, other⟩
    · exact .inl ⟨old, held, named, same, value⟩
    · exact .inr ⟨script, rfl, ⟨given, inside, rfl, value.symm⟩, other⟩

/-- The value of a parameter is the latest one written since its name was first declared so. -/
lemma exists_latestWritten (keywords : Keywords) (edits : List Edit) :
    ∀ parameter ∈ (after keywords edits).parameters, ∃ before script later first,
      edits = before ++ [.update script] ++ later ∧
      IsDeclaredSince keywords parameter.name parameter.kind before script later ∧
      first ∈ Script.parameters keywords script ∧ first.name = parameter.name ∧
      LatestWritten keywords parameter.name (before ++ [.update script]) later first.value
        parameter.value := by
  induction edits using List.reverseRecOn with
  | nil =>
    intro parameter mem
    cases mem
  | append_singleton edits edit ih =>
    intro parameter mem
    obtain ⟨latest, brought, declares⟩ := exists_mem_parameters_iff.mp ⟨parameter, mem, rfl, rfl⟩
    rw [latestScript?_concat] at brought
    have declared : ∀ other ∈ edit.script?,
        Declares keywords other parameter.name parameter.kind := by
      intro other found
      rw [Option.mem_def.mp found] at brought
      cases brought
      exact declares
    rcases value_concat mem with ⟨old, held, named, same, value⟩ |
      ⟨script, rfl, ⟨first, inside, named, value⟩, new⟩
    -- The parameter was there before, so its run of updates goes on.
    · obtain ⟨before, script, later, first, rfl, since, inside, first_named, written⟩ := ih old held
      rw [named] at since written first_named
      rw [same] at since
      refine ⟨before, script, later ++ [edit], first, List.append_assoc _ _ _,
        since.concat declared, inside, first_named, ?_⟩
      rw [value]
      exact written.concat edit
    -- The update brought the parameter, so its run starts here.
    · refine ⟨edits, script, [], first, (List.append_nil _).symm, ⟨?_, ?_⟩, inside, named,
        .inl ⟨value.symm, noneWritten_nil⟩⟩
      · intro other mem
        rw [List.filterMap_nil, List.mem_singleton] at mem
        rw [mem]
        exact declared script rfl
      · intro other found declares
        obtain ⟨old, held, named, same⟩ := exists_mem_parameters_iff.mpr ⟨other, found, declares⟩
        exact new old held named same

lemma value?_eq_some {parameter : Parameter} (mem : parameter ∈ (after keywords edits).parameters) :
    (after keywords edits).value? parameter.name = some parameter.value := by
  obtain ⟨chosen, h⟩ := follows_after keywords edits
  rw [value?, h.get?_eq_some_iff.mpr ⟨mem, rfl⟩]
  rfl

/-- An edit that writes nothing for a name leaves its value, as long as name and kind stay. -/
lemma value?_concat {edit : Edit}
    (before : ∃ script ∈ latestScript? edits, Declares keywords script name kind)
    (behind : ∃ script ∈ latestScript? (edits ++ [edit]), Declares keywords script name kind)
    (unwritten : written? keywords edits name edit = none) :
    (after keywords (edits ++ [edit])).value? name = (after keywords edits).value? name := by
  obtain ⟨old, held, rfl, rfl⟩ := exists_mem_parameters_iff.mpr before
  obtain ⟨parameter, mem, named, same⟩ := exists_mem_parameters_iff.mpr behind
  obtain ⟨chosen, h⟩ := follows_after keywords edits
  rw [← named, value?_eq_some mem, named, value?_eq_some held]
  rcases value_concat mem with ⟨other, inside, other_named, -, value⟩ | ⟨_, -, -, new⟩
  · rw [value, named, unwritten,
      h.isCoherent_parameters.eq_of_name_eq inside held (other_named.trans named)]
    rfl
  · exact absurd same.symm (new old held named.symm)

/-- The value of a parameter is the latest one written since the first of the latest updates that
all declare it with its name and kind; no other edit changed it. All else about the parameters, and
their order, is that of the latest script. -/
theorem value_history (keywords : Keywords) (edits : List Edit) {parameter : Parameter}
    (mem : parameter ∈ (after keywords edits).parameters) :
    (∃ before script later first,
      edits = before ++ [.update script] ++ later ∧
      IsDeclaredSince keywords parameter.name parameter.kind before script later ∧
      first ∈ Script.parameters keywords script ∧ first.name = parameter.name ∧
      LatestWritten keywords parameter.name (before ++ [.update script]) later first.value
        parameter.value ∧
      ∀ front edit rest, later = front ++ edit :: rest →
        written? keywords (before ++ [.update script] ++ front) parameter.name edit = none →
          (after keywords (before ++ [.update script] ++ front ++ [edit])).value? parameter.name =
            (after keywords (before ++ [.update script] ++ front)).value? parameter.name) ∧
      List.Forall₂ (fun held given => held = { given with value := held.value })
        (after keywords edits).parameters (extraction keywords edits) := by
  constructor
  · obtain ⟨before, script, later, first, split, since, inside, named, written⟩ :=
      exists_latestWritten keywords edits parameter mem
    refine ⟨before, script, later, first, split, since, inside, named, written, ?_⟩
    rintro front edit rest rfl unwritten
    have earlier := since.declares
    rw [← List.singleton_append, ← List.append_assoc] at since
    have behind := since.declares
    rw [← List.append_assoc] at behind
    exact value?_concat earlier behind unwritten
  · obtain ⟨chosen, h⟩ := follows_after keywords edits
    rw [h.parameters_eq, List.forall₂_map_left_iff, List.forall₂_same]
    intro given _
    rfl

/-- A value that was set before an update, for a name that goes by another kind in between. -/
theorem latestWritten_after_retyping :
    ∃ before script later first,
      [.update "a = true;\n", .update "a = \"x\";\n", .set "a" (.string "y"),
          .update "b = true;\na = \"z\"; // [x, y]\n"] = before ++ [.update script] ++ later ∧
        LatestWritten .standard "a" (before ++ [.update script]) later first (.string "y") := by
  have mem : ⟨"a", .string, .string "y", none, none, none,
        some [⟨.string "x", "x"⟩, ⟨.string "y", "y"⟩], none⟩ ∈
      (after .standard [.update "a = true;\n", .update "a = \"x\";\n", .set "a" (.string "y"),
        .update "b = true;\na = \"z\"; // [x, y]\n"]).parameters := by
    decide +kernel
  obtain ⟨⟨before, script, later, first, split, -, -, -, written, -⟩, -⟩ :=
    value_history .standard _ mem
  exact ⟨before, script, later, first.value, split, written⟩

end ParamPanel.Session
