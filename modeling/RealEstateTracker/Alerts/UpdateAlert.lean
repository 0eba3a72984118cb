import RealEstateTracker.Application.ConditionParser
import RealEstateTracker.Cycle.RunAlertCycle

/-!
# Editing an alert

An edit applies the fields that were given to the alert that it reads and saves
the whole aggregate.  It never looks at the last run, so it commutes with the
record of one.
-/

namespace RealEstateTracker.Alerts

open Foundation Domain Application Persistence RealEstateTracker.Cycle

structure UpdateRequest where
  alertId : AlertId
  name : Option String
  frequencySeconds : Option Int
  isActive : Option Bool
  conditionStrings : Option (List String)

/-- `if value is not None: …`. -/
def whenGiven {α : Type} (value : Option α)
    (mutate : α → SearchAlert → Except PyError SearchAlert) (alert : SearchAlert) :
    Except PyError SearchAlert :=
  match value with
  | none => .ok alert
  | some value => mutate value alert

variable [PythonRuntime]

/-- The use case; `alertIdText` is the text of an identifier in a message. -/
structure UpdateAlert where
  fieldRegistry : FieldRegistry
  alertIdText : AlertId → String

namespace UpdateAlert

def alertNotFound (update : UpdateAlert) (id : AlertId) : PyError :=
  .alertNotFound ("no such alert: " ++ update.alertIdText id)

/-- The mutators of the fields that were given, in the order of the use case. -/
def edit (update : UpdateAlert) (request : UpdateRequest) (now : DateTime)
    (alert : SearchAlert) : Except PyError SearchAlert := do
  let alert ← whenGiven request.name (fun name alert => alert.rename name now) alert
  let alert ← whenGiven request.frequencySeconds
    (fun frequencySeconds alert => alert.setFrequency frequencySeconds now) alert
  let alert ← whenGiven request.conditionStrings (fun conditionStrings alert => do
    let conditions ← parseConditions update.fieldRegistry conditionStrings
    return alert.replaceConditions conditions now) alert
  whenGiven request.isActive (fun isActive alert => .ok <|
    if isActive then alert.activate now else alert.deactivate now) alert

def run (update : UpdateAlert) (request : UpdateRequest) : CycleTxn SearchAlert := do
  let now ← clock
  let found ← Txn.query (AlertRepository.get request.alertId)
  let alert ← Txn.ofExcept found
  match alert with
  | none => Txn.raise (update.alertNotFound request.alertId)
  | some alert => do
      let alert ← Txn.ofExcept (update.edit request now alert)
      AlertRepository.add alert
      Txn.commitOr .integrityError
      return alert

end UpdateAlert

/-! ## What an edit changes -/

/-- The alert has the fields that were given and its own where none was. -/
structure Requested (update : UpdateAlert) (request : UpdateRequest)
    (alert edited : SearchAlert) : Prop where
  name : edited.name = request.name.getD alert.name
  frequencySeconds :
    edited.frequencySeconds = request.frequencySeconds.getD alert.frequencySeconds
  isActive : edited.isActive = request.isActive.getD alert.isActive
  conditions :
    match request.conditionStrings with
    | none => edited.conditions = alert.conditions
    | some conditionStrings =>
        parseConditions update.fieldRegistry conditionStrings = .ok edited.conditions

def withLastRun (alert : SearchAlert) (last : Option DateTime) : SearchAlert :=
  { alert with lastRunAt := last }

section Fields

variable (alert : SearchAlert) (last last' : Option DateTime)

omit [PythonRuntime]

@[simp] theorem id_withLastRun : (withLastRun alert last).id = alert.id := rfl

@[simp] theorem name_withLastRun : (withLastRun alert last).name = alert.name := rfl

@[simp] theorem frequencySeconds_withLastRun :
    (withLastRun alert last).frequencySeconds = alert.frequencySeconds := rfl

@[simp] theorem isActive_withLastRun :
    (withLastRun alert last).isActive = alert.isActive := rfl

@[simp] theorem conditions_withLastRun :
    (withLastRun alert last).conditions = alert.conditions := rfl

@[simp] theorem portalSlugs_withLastRun :
    (withLastRun alert last).portalSlugs = alert.portalSlugs := rfl

@[simp] theorem lastRunAt_withLastRun : (withLastRun alert last).lastRunAt = last := rfl

@[simp] theorem withLastRun_withLastRun :
    withLastRun (withLastRun alert last) last' = withLastRun alert last' := rfl

theorem withLastRun_self : withLastRun alert alert.lastRunAt = alert := rfl

theorem markRun_eq (now : DateTime) : alert.markRun now = withLastRun alert (some now) :=
  rfl

end Fields

def IgnoresLastRun (change : SearchAlert → Except PyError SearchAlert) : Prop :=
  ∀ alert last, change (withLastRun alert last) =
    (change alert).map fun changed => withLastRun changed last

section Changes

variable {first second : SearchAlert → Except PyError SearchAlert}

omit [PythonRuntime]

theorem ignoresLastRun_bind (hfirst : IgnoresLastRun first)
    (hsecond : IgnoresLastRun second) :
    IgnoresLastRun fun alert => (first alert).bind second := by
  intro alert last
  dsimp only
  rw [hfirst]
  cases first alert with
  | error error => rfl
  | ok changed => exact hsecond changed last

theorem ignoresLastRun_whenGiven {α : Type} {value : Option α}
    {mutate : α → SearchAlert → Except PyError SearchAlert}
    (h : ∀ value, IgnoresLastRun (mutate value)) :
    IgnoresLastRun (whenGiven value mutate) := by
  intro alert last
  cases value with
  | none => rfl
  | some value => exact h value alert last

theorem ignoresLastRun_rename (name : String) (now : DateTime) :
    IgnoresLastRun fun alert => alert.rename name now := by
  intro alert last
  simp only [SearchAlert.rename]
  split <;> rfl

theorem ignoresLastRun_setFrequency (frequencySeconds : Int) (now : DateTime) :
    IgnoresLastRun fun alert => alert.setFrequency frequencySeconds now := by
  intro alert last
  simp only [SearchAlert.setFrequency]
  split <;> rfl

theorem rename_eq_ok {alert edited : SearchAlert} {name : Option String}
    {now : DateTime}
    (h : whenGiven name (fun name alert => alert.rename name now) alert = .ok edited) :
    ∃ named updatedAt, edited =
      { alert with name := name.getD alert.name, named, updatedAt } := by
  cases name with
  | none =>
      obtain rfl := Except.ok.inj h
      exact ⟨alert.named, alert.updatedAt, rfl⟩
  | some name =>
      simp only [whenGiven, SearchAlert.rename] at h
      split at h
      · exact ⟨_, _, (Except.ok.inj h).symm⟩
      · cases h

theorem setFrequency_eq_ok {alert edited : SearchAlert} {frequencySeconds : Option Int}
    {now : DateTime}
    (h : whenGiven frequencySeconds (fun frequencySeconds alert =>
      alert.setFrequency frequencySeconds now) alert = .ok edited) :
    ∃ seldom updatedAt, edited =
      { alert with
        frequencySeconds := frequencySeconds.getD alert.frequencySeconds
        seldom, updatedAt } := by
  cases frequencySeconds with
  | none =>
      obtain rfl := Except.ok.inj h
      exact ⟨alert.seldom, alert.updatedAt, rfl⟩
  | some frequencySeconds =>
      simp only [whenGiven, SearchAlert.setFrequency] at h
      split at h
      · exact ⟨_, _, (Except.ok.inj h).symm⟩
      · cases h

theorem switch_eq_ok {alert edited : SearchAlert} {isActive : Option Bool}
    {now : DateTime}
    (h : whenGiven isActive (fun isActive alert => .ok <|
      if isActive then alert.activate now else alert.deactivate now) alert =
        .ok edited) :
    ∃ updatedAt, edited =
      { alert with isActive := isActive.getD alert.isActive, updatedAt } := by
  cases isActive with
  | none =>
      obtain rfl := Except.ok.inj h
      exact ⟨alert.updatedAt, rfl⟩
  | some isActive =>
      obtain rfl := Except.ok.inj h
      cases isActive <;> exact ⟨now, rfl⟩

end Changes

section Edits

variable {update : UpdateAlert} {request : UpdateRequest} {now : DateTime}
  {alert edited : SearchAlert}

/-- The order of an edit and the record of a run does not matter. -/
theorem ignoresLastRun_edit : IgnoresLastRun (update.edit request now) := by
  refine ignoresLastRun_bind (ignoresLastRun_whenGiven fun name =>
    ignoresLastRun_rename name now) (ignoresLastRun_bind (ignoresLastRun_whenGiven
      fun frequencySeconds => ignoresLastRun_setFrequency frequencySeconds now)
      (ignoresLastRun_bind (ignoresLastRun_whenGiven fun conditionStrings => ?_)
        (ignoresLastRun_whenGiven fun isActive => ?_)))
  · intro alert last
    cases parseConditions update.fieldRegistry conditionStrings <;> rfl
  · intro alert last
    cases isActive <;> rfl

theorem lastRunAt_edit (h : update.edit request now alert = .ok edited) :
    edited.lastRunAt = alert.lastRunAt := by
  have hsame : update.edit request now _ = _ :=
    ignoresLastRun_edit alert alert.lastRunAt
  rw [withLastRun_self, h] at hsame
  have heq : edited = withLastRun edited alert.lastRunAt := Except.ok.inj hsame
  rw [heq, lastRunAt_withLastRun]

theorem edit_withLastRun (h : update.edit request now alert = .ok edited)
    (last : Option DateTime) :
    update.edit request now (withLastRun alert last) =
      .ok (withLastRun edited last) := by
  rw [ignoresLastRun_edit, h]
  rfl

theorem edit_eq_ok (h : update.edit request now alert = .ok edited) :
    Requested update request alert edited ∧
      (edited.id = alert.id ∧ edited.userId = alert.userId) ∧
        edited.portalSlugs = alert.portalSlugs := by
  obtain ⟨renamed, hrenamed, h⟩ := bind_eq_ok.mp h
  obtain ⟨rescheduled, hrescheduled, h⟩ := bind_eq_ok.mp h
  obtain ⟨reconditioned, hreconditioned, hswitched⟩ := bind_eq_ok.mp h
  obtain ⟨_, _, rfl⟩ := rename_eq_ok hrenamed
  obtain ⟨_, _, rfl⟩ := setFrequency_eq_ok hrescheduled
  obtain ⟨_, rfl⟩ := switch_eq_ok hswitched
  cases hstrings : request.conditionStrings with
  | none =>
      rw [hstrings] at hreconditioned
      obtain rfl := Except.ok.inj hreconditioned
      exact ⟨⟨rfl, rfl, rfl, by rw [hstrings]⟩, ⟨rfl, rfl⟩, rfl⟩
  | some conditionStrings =>
      rw [hstrings] at hreconditioned
      obtain ⟨conditions, hconditions, hreplaced⟩ := bind_eq_ok.mp hreconditioned
      obtain rfl := pure_eq_ok.mp hreplaced
      exact ⟨⟨rfl, rfl, rfl, by rw [hstrings]; exact hconditions⟩, ⟨rfl, rfl⟩, rfl⟩

end Edits

end RealEstateTracker.Alerts
