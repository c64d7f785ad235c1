import ParamPanel.Exchange
import ParamPanel.Proofs.Session.Run

/-!
# Runs of calls

A caller who knows JSON only edits a session as any user does, but for values, which come as text. A
text that does not decode is no edit, so calls lead to sessions that edits lead to.
-/

namespace ParamPanel

open Script (Keywords)

/-- What a caller who knows JSON only can do to a session. -/
inductive Call where
  | update (script : String)
  | set (name text : String)
  | reset (name : String)
  | resetAll

/-- The edit that a call makes, if the JSON text it comes with decodes. -/
def Call.edit? : Call → Option Edit
  | update script => some (.update script)
  | set name text => (Value.ofJsonText text.toList).toOption.map (.set name)
  | reset name => some (.reset name)
  | resetAll => some .resetAll

namespace Session

def called (session : Session) : Call → Except ExchangeError Session
  | .update script => .ok (session.update script)
  | .set name text => session.setJson name text
  | .reset name => (session.reset name).mapError .edit
  | .resetAll => .ok session.resetAll

/-- The session after a call; a refused call leaves it as it is. -/
def answer (session : Session) (call : Call) : Session :=
  match session.called call with
  | .ok next => next
  | .error _ => session

def afterCalls (keywords : Keywords) (calls : List Call) : Session :=
  calls.foldl answer (new keywords)

lemma answer_eq (session : Session) (call : Call) :
    session.answer call = (call.edit?.map session.apply).getD session := by
  cases call with
  | update script => rfl
  | set name text =>
    simp only [answer, called, setJson, Call.edit?]
    cases Value.ofJsonText text.toList with
    | error failure => rfl
    | ok value =>
      change _ = session.apply (.set name value)
      simp only [apply, edited]
      cases session.set name value <;> rfl
  | reset name =>
    change _ = session.apply (.reset name)
    simp only [answer, called, apply, edited]
    cases session.reset name <;> rfl
  | resetAll => rfl

/-- Calls lead to the session that their edits lead to. -/
theorem afterCalls_eq (keywords : Keywords) (calls : List Call) :
    afterCalls keywords calls = after keywords (calls.filterMap Call.edit?) := by
  induction calls using List.reverseRecOn with
  | nil => rfl
  | append_singleton calls call ih =>
    rw [afterCalls, List.foldl_append, List.filterMap_append, ← afterCalls, ih]
    change (after keywords (calls.filterMap Call.edit?)).answer call = _
    rw [answer_eq]
    cases made : call.edit? with
    | none => simp [made]
    | some edit =>
      rw [List.filterMap_cons_some made, List.filterMap_nil, after_concat]
      rfl

end Session

end ParamPanel
