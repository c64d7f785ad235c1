import ParamPanel.Proofs.Session.History

/-!
# Values that nobody picked

What was set for a name is gone once the name is reset, so a value that nobody has picked since then
comes from a script. It need not be the latest one: an update carries every value over, picked or
not, and with it what an earlier script gave.
-/

namespace ParamPanel

/-- The edit takes the name back to what the script says, if the name is known. -/
def Edit.Resets (name : String) : Edit → Prop
  | reset other => other = name
  | resetAll => True
  | _ => False

namespace Session

open Script (Keywords)

/-- Nothing that was set for the name has been taken since the start or since the name was reset. -/
def IsUnpicked (keywords : Keywords) (name : String) (edits : List Edit) : Prop :=
  ∃ earlier recent, edits = earlier ++ recent ∧
    (∀ edit ∈ earlier.getLast?, edit.Resets name) ∧
    ∀ front value rest, recent = front ++ .set name value :: rest →
      ¬ ((after keywords (earlier ++ front)).set name value).isOk

def Gives (keywords : Keywords) (script name : String) (value : Value) : Prop :=
  ∃ parameter ∈ Script.parameters keywords script, parameter.name = name ∧ parameter.value = value

/-- The script that an unpicked value goes back to: the one at hand when the name was last reset, if
all scripts since declare the name so, or else the first of those that do. -/
structure IsSource (keywords : Keywords) (name : String) (kind : Kind) (before : List Edit)
    (script : String) (later : List Edit) : Prop where
  declares : ∀ other ∈ script :: later.filterMap Edit.script?, Declares keywords other name kind
  latest : ((∀ other ∈ latestScript? before, ¬ Declares keywords other name kind) ∧
      ∀ edit ∈ later, ¬ edit.Resets name) ∨
    ∃ front edit rest, later = front ++ edit :: rest ∧ latestScript? front = none ∧
      edit.Resets name ∧ ∀ other ∈ rest, ¬ other.Resets name

variable {keywords : Keywords} {name : String} {kind : Kind} {value : Value}
  {edits earlier run : List Edit}

lemma IsUnpicked.exists_reset (h : IsUnpicked keywords name edits) {front rest : List Edit}
    (split : edits = front ++ .set name value :: rest)
    (taken : ((after keywords front).set name value).isOk) : ∃ edit ∈ rest, edit.Resets name := by
  obtain ⟨earlier, recent, rfl, start, untaken⟩ := h
  rcases List.append_eq_append_iff.mp split with ⟨early, rfl, inside⟩ | ⟨late, rfl, inside⟩
  · exact absurd taken (untaken early value rest inside)
  -- What was set comes before the reset that the recent edits follow.
  · cases late with
    | nil =>
      rw [List.append_nil] at untaken
      exact absurd taken (by simpa using untaken [] value rest inside.symm)
    | cons edit late =>
      rw [List.cons_append, List.cons.injEq] at inside
      obtain ⟨rfl, rfl⟩ := inside
      rw [List.getLast?_append, List.getLast?_cons, Option.some_or] at start
      cases last : late.getLast? with
      | none =>
        rw [last] at start
        cases start _ rfl
      | some edit =>
        rw [last] at start
        exact ⟨edit, List.mem_append_left _ (List.mem_of_getLast? last), start edit rfl⟩

lemma default?_eq_some_iff :
    default? keywords edits name = some value ↔
      ∃ script ∈ latestScript? edits, Gives keywords script name value := by
  unfold default? extraction
  cases latestScript? edits with
  | none => simp [lastNamed?]
  | some script =>
    have coherent := Script.isCoherent_parameters keywords script
    simp only [Option.map_some, Option.getD_some, Option.map_eq_some_iff,
      coherent.lastNamed?_eq_some_iff, Option.mem_some_iff, exists_eq_left', Gives, and_assoc]

/-- A reset writes the value that the latest script gives, whatever the name is reset by. -/
lemma written?_of_resets {edit : Edit} (resets : edit.Resets name) :
    written? keywords earlier name edit = default? keywords earlier name := by
  cases edit with
  | update script => cases resets
  | set other value => cases resets
  | reset other => exact if_pos resets
  | resetAll => rfl

/-- As long as the name is declared, a run that writes no value for it does not reset it. -/
lemma NoneWritten.not_resets (h : NoneWritten keywords name earlier run)
    (declared : ∀ front rest, run = front ++ rest →
      ∃ script ∈ latestScript? (earlier ++ front), Declares keywords script name kind) :
    ∀ edit ∈ run, ¬ edit.Resets name := by
  intro edit mem resets
  obtain ⟨front, rest, rfl⟩ := List.append_of_mem mem
  obtain ⟨script, brought, parameter, inside, named, -⟩ := declared front (edit :: rest) rfl
  have unwritten := h front edit rest rfl
  rw [written?_of_resets resets, default?_eq_some_iff.mpr
    ⟨script, brought, parameter, inside, named, rfl⟩] at unwritten
  cases unwritten

/-- What is written for an unpicked name, and not reset any more, is written by a reset. -/
lemma IsUnpicked.resets (h : IsUnpicked keywords name edits) {front rest : List Edit} {edit : Edit}
    (split : edits = front ++ edit :: rest)
    (wrote : written? keywords front name edit = some value)
    (last : ∀ other ∈ rest, ¬ other.Resets name) : edit.Resets name := by
  cases edit with
  | update script => cases wrote
  | set other chosen =>
    simp only [written?] at wrote
    split at wrote
    · rename_i taken
      obtain ⟨rfl, taken⟩ := taken
      obtain ⟨edit, mem, resets⟩ := h.exists_reset split taken
      exact absurd resets (last edit mem)
    · cases wrote
  | reset other =>
    simp only [written?] at wrote
    split at wrote
    · assumption
    · cases wrote
  | resetAll => trivial

lemma exists_split_of_latestScript? {script : String} (h : latestScript? edits = some script) :
    ∃ before later, edits = before ++ [.update script] ++ later ∧ latestScript? later = none := by
  induction edits using List.reverseRecOn with
  | nil => cases h
  | append_singleton edits edit ih =>
    rw [latestScript?_concat] at h
    by_cases brought : edit.script? = none
    · rw [brought, Option.none_or] at h
      obtain ⟨before, later, rfl, none_later⟩ := ih h
      refine ⟨before, later ++ [edit], List.append_assoc _ _ _, ?_⟩
      rw [latestScript?_concat, brought, none_later]
      rfl
    · obtain ⟨other, rfl⟩ := Edit.exists_eq_update brought
      cases h
      exact ⟨edits, [], (List.append_nil _).symm, rfl⟩

lemma filterMap_script?_eq_nil (h : latestScript? edits = none) :
    edits.filterMap Edit.script? = [] :=
  List.getLast?_eq_none_iff.mp h

/-- An unpicked value is given by its source. -/
lemma IsUnpicked.exists_source {parameter : Parameter}
    (unpicked : IsUnpicked keywords parameter.name edits)
    (mem : parameter ∈ (after keywords edits).parameters) :
    ∃ before script later, edits = before ++ [.update script] ++ later ∧
      IsSource keywords parameter.name parameter.kind before script later ∧
      Gives keywords script parameter.name parameter.value := by
  obtain ⟨before, script, later, first, rfl, since, inside, named, written⟩ :=
    exists_latestWritten keywords edits parameter mem
  rcases written with ⟨value, none_written⟩ | ⟨front, edit, rest, rfl, wrote, none_written⟩
  -- The name was not reset since it was first declared so.
  · have unreset : ∀ edit ∈ later, ¬ edit.Resets parameter.name := by
      apply none_written.not_resets
      rintro front rest rfl
      exact since.declares
    exact ⟨before, script, later, rfl, ⟨since.1, .inl ⟨since.2, unreset⟩⟩, first, inside, named,
      value.symm⟩
  -- It was, and the script at hand gave it the value.
  · have last : ∀ other ∈ rest, ¬ other.Resets parameter.name := by
      apply none_written.not_resets
      rintro passed rest rfl
      rw [List.append_cons, ← List.append_assoc] at since
      rw [List.append_assoc _ (front ++ [edit])]
      exact since.declares
    have resets : edit.Resets parameter.name :=
      unpicked.resets (List.append_assoc _ _ _).symm wrote last
    rw [written?_of_resets resets] at wrote
    obtain ⟨latest, brought, gives⟩ := default?_eq_some_iff.mp wrote
    obtain ⟨earlier, passed, split, none_passed⟩ := exists_split_of_latestScript? brought
    refine ⟨earlier, latest, passed ++ edit :: rest, ?_, ⟨?_, ?_⟩, gives⟩
    · rw [← List.append_assoc, split, List.append_assoc]
    · intro other mem
      rw [List.filterMap_append, filterMap_script?_eq_nil none_passed, List.nil_append] at mem
      rcases List.mem_cons.mp mem with rfl | later
      · obtain ⟨same, found, declares⟩ := since.declares
        rw [Option.mem_def.mp brought, Option.mem_some_iff] at found
        rwa [found]
      · apply since.1 other
        rw [List.filterMap_append]
        exact List.mem_cons_of_mem _ (List.mem_append_right _ later)
    · exact .inr ⟨passed, edit, rest, rfl, none_passed, resets, last⟩

/-- A value that nobody has picked is the one that its source gives. It is the default of the latest
script as long as the scripts since have not changed it. -/
theorem unpicked_value (keywords : Keywords) (edits : List Edit) {parameter : Parameter}
    (mem : parameter ∈ (after keywords edits).parameters)
    (unpicked : IsUnpicked keywords parameter.name edits) :
    ∃ before script later, edits = before ++ [.update script] ++ later ∧
      IsSource keywords parameter.name parameter.kind before script later ∧
      Gives keywords script parameter.name parameter.value ∧
      ((∀ other ∈ later.filterMap Edit.script?,
          Gives keywords other parameter.name parameter.value) →
        default? keywords edits parameter.name = some parameter.value) := by
  obtain ⟨before, script, later, rfl, source, gives⟩ := unpicked.exists_source mem
  refine ⟨before, script, later, rfl, source, gives, ?_⟩
  intro unchanged
  obtain ⟨latest, last⟩ :
      ∃ latest, (script :: later.filterMap Edit.script?).getLast? = some latest :=
    ⟨_, List.getLast?_cons⟩
  refine default?_eq_some_iff.mpr ⟨latest, ?_, ?_⟩
  · rw [latestScript?_append_update]
    exact last
  · rcases List.mem_cons.mp (List.mem_of_getLast? last) with rfl | since
    · exact gives
    · exact unchanged latest since

/-- A value that was picked and reset, and that the next script declares with another default. -/
theorem unpicked_value_after_reset :
    let edits : List Edit := [.update "a = true;\n", .set "a" (.boolean false), .resetAll,
      .update "b = \"x\";\na = false;\n"]
    ∃ before script later, edits = before ++ [.update script] ++ later ∧
      IsSource .standard "a" .boolean before script later ∧
      Gives .standard script "a" (.boolean true) := by
  intro edits
  have mem : .ofValue "a" (.boolean true) ∈ (after .standard edits).parameters := by
    decide +kernel
  have unpicked : IsUnpicked .standard "a" edits := by
    refine ⟨[.update "a = true;\n", .set "a" (.boolean false), .resetAll],
      [.update "b = \"x\";\na = false;\n"], rfl, ?_, ?_⟩
    · intro edit last
      cases last
      trivial
    · intro front value rest split
      simp [List.cons_eq_append_iff] at split
  obtain ⟨before, script, later, split, source, gives, -⟩ :=
    unpicked_value .standard edits mem unpicked
  exact ⟨before, script, later, split, source, gives⟩

/-- A default that nobody has touched stays when the script changes it. -/
theorem stale_default :
    let edits : List Edit := [.update "a = true;\n", .update "a = false;\n"]
    IsUnpicked .standard "a" edits ∧
      (after .standard edits).value? "a" = some (.boolean true) ∧
      default? .standard edits "a" = some (.boolean false) := by
  refine ⟨⟨[], _, rfl, ?_, ?_⟩, by decide +kernel, by decide +kernel⟩
  · intro edit last
    cases last
  · intro front value rest split
    simp [List.cons_eq_append_iff] at split

end Session

end ParamPanel
