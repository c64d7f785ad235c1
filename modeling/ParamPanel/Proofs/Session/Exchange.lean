import ParamPanel.Proofs.Json.RoundTrip
import ParamPanel.Proofs.Session.Calls
import ParamPanel.Proofs.Session.Invariant
import ParamPanel.Proofs.Text.Trim

/-!
# Going on from JSON text

A caller may keep a session, or keep only the text that it handed out. The text of its parameters is
enough to go on with another script, and the text of its overrides is enough to bring a new session
to where the old one was.
-/

namespace ParamPanel

open Json
open Script (Keywords)

namespace Exchange

/-- The text of parameters is never taken for a text of white space, not even that of none. -/
lemma previousParameters_parametersText {parameters : List Parameter}
    (readable : ∀ parameter ∈ parameters, ∀ x ∈ parameter.numbers, IsReadable x) :
    previousParameters (parametersText parameters) = .ok parameters := by
  have text : (parametersJson parameters).text =
      '[' :: itemsText (parameters.map Parameter.toJson) ++ [']'] := by
    rw [parametersJson, Json.text]
  have trimmed : Text.trim (parametersJson parameters).text = (parametersJson parameters).text := by
    rw [text, Text.trim_eq_self_iff, List.getLast?_concat, List.cons_append, List.head?_cons]
    simp only [Option.mem_some_iff, forall_eq']
    exact ⟨rfl, rfl⟩
  have filled : (parametersJson parameters).text.isEmpty = false := by
    rw [text]
    rfl
  rw [previousParameters, parametersText, String.toList_ofList, trimmed, filled,
    if_neg Bool.false_ne_true, decode_parametersJson readable]

end Exchange

/-- The value of a member, if an object has it. -/
def Json.member? (key : String) : Json → Option Json
  | object members => (members.find? (·.1 = key)).map Prod.snd
  | _ => none

lemma exists_membersText_eq {key : String} {value : Json} {members : List (String × Json)}
    (mem : (key, value) ∈ members) :
    ∃ front behind,
      membersText members = front ++ (stringText key ++ ':' :: value.text) ++ behind := by
  induction members with
  | nil => cases mem
  | cons member members ih =>
    obtain ⟨other, own⟩ := member
    rcases List.mem_cons.mp mem with same | later
    · cases same
      cases members with
      | nil => exact ⟨[], [], by simp [membersText]⟩
      | cons next members => exact ⟨[], ',' :: membersText (next :: members), by simp [membersText]⟩
    · obtain ⟨front, behind, text⟩ := ih later
      obtain ⟨next, members, rfl⟩ := List.exists_cons_of_ne_nil (List.ne_nil_of_mem later)
      refine ⟨stringText other ++ ':' :: own.text ++ ',' :: front, behind, ?_⟩
      rw [membersText, text]
      · simp
      · simp

/-- A member's value stands in the text of the object behind the name of the member. -/
lemma exists_text_eq_of_member? {key : String} {json value : Json}
    (found : json.member? key = some value) :
    ∃ front behind, json.text = front ++ (stringText key ++ ':' :: value.text) ++ behind := by
  cases json with
  | object members =>
    obtain ⟨⟨other, own⟩, first, same⟩ := Option.map_eq_some_iff.mp found
    have named : other = key := by simpa using List.find?_some first
    cases named
    cases same
    obtain ⟨front, behind, text⟩ := exists_membersText_eq (List.mem_of_find?_eq_some first)
    exact ⟨'{' :: front, behind ++ ['}'], by simp [Json.text, text]⟩
  | _ => cases found

lemma Values.member?_toJson {values : Values} {name : String} {value : Value}
    (held : values[name]? = some value) : values.toJson.member? name = some value.toJson := by
  have known : values.getKey? name = some name :=
    Std.TreeMap.getKey?_eq_some (Std.TreeMap.mem_iff_isSome_getElem?.mpr (by rw [held]; rfl))
  have found :
      values.toList.find? (fun entry => compare entry.1 name == .eq) = some (name, value) :=
    Std.TreeMap.find?_toList_eq_some_iff_getKey?_eq_some_and_getElem?_eq_some.mpr ⟨known, held⟩
  simp only [beq_eq_decide, Std.LawfulEqOrd.compare_eq_iff_eq] at found
  rw [Values.toJson, member?, List.find?_map]
  change Option.map _ (Option.map _ (values.toList.find? fun entry => decide (entry.1 = name))) = _
  rw [found]
  rfl

namespace Session

/-- The text of the value that a name has among the overrides. -/
def overrideText? (session : Session) (name : String) : Option String :=
  (session.overrides.toJson.member? name).map fun value => String.ofList value.text

lemma exists_overridesText_eq {session : Session} {name text : String}
    (found : session.overrideText? name = some text) :
    ∃ front behind, session.overridesText.toList =
      front ++ (stringText name ++ ':' :: text.toList) ++ behind := by
  obtain ⟨value, member, rfl⟩ := Option.map_eq_some_iff.mp found
  rw [overridesText, String.toList_ofList, String.toList_ofList]
  exact exists_text_eq_of_member? member

/-- Sets a name to the text that it has among the overrides of another session. -/
def setFrom (source session : Session) (name : String) : Except ExchangeError Session :=
  match source.overrideText? name with
  | some text => session.setJson name text
  | none => .error (.edit (.unknownParameter name))

lemma parameters_update (session : Session) (script : String) :
    (session.update script).parameters =
      carryOver session.parameters (Script.parameters session.keywords script) := by
  unfold update
  generalize Script.parameters session.keywords script = fresh
  rfl

lemma keywords_update (session : Session) (script : String) :
    (session.update script).keywords = session.keywords :=
  keywords_apply session (.update script)

section Restore

variable {source session : Session} {fresh : List Parameter} {chosen first : Parameter → Value}

lemma Follows.overrideText?_eq (h : source.Follows fresh chosen) {parameter : Parameter}
    (mem : parameter ∈ fresh) :
    source.overrideText? parameter.name = some (String.ofList (chosen parameter).toJson.text) := by
  have held : source.overrides[parameter.name]? = some (chosen parameter) :=
    h.isCoherent_parameters.getElem?_ofParameters (h.mem_parameters mem)
  rw [overrideText?, Values.member?_toJson held]
  rfl

/-- The JSON text of a readable value of the right kind is taken. -/
lemma Follows.setJson_text (h : session.Follows fresh chosen) {parameter : Parameter}
    (mem : parameter ∈ fresh) {value : Value} (kind : value.kind = parameter.kind)
    (readable : ∀ x ∈ value.numbers, IsReadable x) :
    session.setJson parameter.name (String.ofList value.toJson.text) =
      .ok (session.put parameter.name value) := by
  have finite : value.isFinite = true :=
    Value.isFinite_iff.mpr fun x inside => (readable x inside).finite
  have taken : session.set parameter.name value = .ok (session.put parameter.name value) :=
    h.set_eq_ok_iff.mpr ⟨⟨parameter, mem, rfl, kind⟩, finite, rfl⟩
  rw [setJson, String.toList_ofList, Value.ofJsonText_text readable]
  dsimp only
  rw [taken]
  rfl

/-- Two sessions of one script differ in their values only, so the overrides of one make it of the
other. -/
lemma Follows.foldlM_setFrom (h : source.Follows fresh chosen)
    (readable : ∀ parameter ∈ fresh, ∀ x ∈ (chosen parameter).numbers, IsReadable x)
    (start : session.Follows fresh first) (keywords : session.keywords = source.keywords)
    {order : List String} (all : ∀ name, name ∈ order ↔ name ∈ fresh.map Parameter.name) :
    order.foldlM (setFrom source) session = .ok source := by
  have taken (held : Session) (other : Parameter → Value) (follows : held.Follows fresh other) :
      ∀ parameter ∈ fresh,
        setFrom source held parameter.name =
          .ok (held.put parameter.name (chosen parameter)) := by
    intro parameter mem
    rw [setFrom, h.overrideText?_eq mem]
    exact follows.setJson_text mem (h.kind_eq parameter mem) (readable parameter mem)
  obtain ⟨next, run, kept, follows⟩ :=
    start.foldlM_put h.kind_eq taken fun name mem => (all name).mp mem
  have every : next.Follows fresh chosen := by
    apply follows.congr
    intro parameter mem
    rw [if_pos ((all _).mpr (List.mem_map_of_mem mem))]
  rw [run, h.eq_of_follows every (kept.trans keywords)]

end Restore

/-- Carrying values over from the text of the parameters gives what the session itself gives for the
next script. -/
theorem merge_parametersText (calls : List Call) (script : String)
    (readable : ∀ parameter ∈ (afterCalls .standard calls).parameters,
      ∀ x ∈ parameter.numbers, IsReadable x) :
    Exchange.merge (afterCalls .standard calls).parametersText script =
      .ok ((afterCalls .standard calls).update script).parametersText := by
  have keywords : (afterCalls .standard calls).keywords = .standard := by
    rw [afterCalls_eq, keywords_after]
  rw [parametersText, parametersText, Exchange.merge,
    Exchange.previousParameters_parametersText readable, parameters_update, keywords]

/-- Two and a half, written as 2.5. -/
lemma isReadable_twoAndHalf : IsReadable (Float.ofScientific 25 true 1) :=
  ⟨by decide +kernel, by decide +kernel⟩

/-- Two chosen values and a range, then a script that declares the chosen names the other way round
and one of them as a string. -/
theorem merge_parametersText_retyped :
    let session := afterCalls .standard [.update "a = true;\nx = 1.5; // [1:5]\n",
      .set "a" "false", .set "x" "2.5"]
    let script := "x = 4; // 0.5\na = \"no\";\n"
    Exchange.merge session.parametersText script = .ok (session.update script).parametersText := by
  intro session script
  have numbers : session.parameters.flatMap Parameter.numbers =
      [Float.ofScientific 25 true 1, Float.ofNat 1, Float.ofNat 5] := by decide +kernel
  have lower : IsReadable (Float.ofNat 1) := ⟨by decide +kernel, by decide +kernel⟩
  have upper : IsReadable (Float.ofNat 5) := ⟨by decide +kernel, by decide +kernel⟩
  apply merge_parametersText
  rw [← List.forall_mem_flatMap, numbers]
  simp [isReadable_twoAndHalf, lower, upper]

/-- A new session that gets the latest script and then the overrides, in whatever order and each by
its own text out of theirs, takes all of them and becomes the session that they come from. -/
theorem restored_from_overrides (keywords : Keywords) (calls : List Call) {script : String}
    (latest : latestScript? (calls.filterMap Call.edit?) = some script)
    (readable : ∀ parameter ∈ (afterCalls keywords calls).parameters,
      ∀ x ∈ parameter.value.numbers, IsReadable x)
    {order : List String}
    (all : ∀ name, name ∈ order ↔
      name ∈ (afterCalls keywords calls).parameters.map Parameter.name) :
    let source := afterCalls keywords calls
    (∀ name ∈ order, ∃ text, source.overrideText? name = some text ∧
        ∃ front behind, source.overridesText.toList =
          front ++ (stringText name ++ ':' :: text.toList) ++ behind) ∧
      order.foldlM (setFrom source) ((new keywords).update script) = .ok source := by
  intro source
  obtain ⟨chosen, h⟩ := follows_after keywords (calls.filterMap Call.edit?)
  rw [← afterCalls_eq] at h
  have given : extraction keywords (calls.filterMap Call.edit?) =
      Script.parameters keywords script := by
    rw [extraction, latest]
    rfl
  rw [given] at h
  rw [h.map_name_parameters] at all
  constructor
  · intro name mem
    obtain ⟨parameter, inside, rfl⟩ := List.mem_map.mp ((all name).mp mem)
    have found := h.overrideText?_eq inside
    exact ⟨_, found, exists_overridesText_eq found⟩
  · have same : ((new keywords).update script).keywords =
        (afterCalls keywords calls).keywords := by
      rw [keywords_update, afterCalls_eq, keywords_after]
      rfl
    refine h.foldlM_setFrom ?_ (follows_update (new keywords) script) same all
    intro parameter mem
    exact readable { parameter with value := chosen parameter } (h.mem_parameters mem)

/-- A number and a string that were chosen, one of them under an earlier script, set in an order
that names one of them twice. -/
theorem restored_after_two_scripts :
    let calls : List Call := [.update "x = 1;\n", .set "x" "2.5",
      .update "label = \"a\";\nx = 3;\non = true;\n", .set "label" "\"b \\\" c\"", .reset "gone"]
    let source := afterCalls .standard calls
    ["on", "x", "label", "x"].foldlM (setFrom source)
      ((new .standard).update "label = \"a\";\nx = 3;\non = true;\n") = .ok source := by
  intro calls source
  have names : source.parameters.map Parameter.name = ["label", "x", "on"] := by decide +kernel
  have numbers : (source.parameters.flatMap fun parameter => parameter.value.numbers) =
      [Float.ofScientific 25 true 1] := by decide +kernel
  refine (restored_from_overrides .standard calls (by decide +kernel) ?_ ?_).2
  · rw [← List.forall_mem_flatMap, numbers]
    simp [isReadable_twoAndHalf]
  · intro name
    rw [names]
    simp
    tauto

end Session

end ParamPanel
