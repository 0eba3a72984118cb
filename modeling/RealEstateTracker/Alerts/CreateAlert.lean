import RealEstateTracker.Alerts.UpdateAlert

/-!
# Creating an alert

The conditions are parsed first, then the aggregate is built and saved.
-/

namespace RealEstateTracker.Alerts

open Foundation Domain Application Persistence RealEstateTracker.Cycle

structure CreateRequest where
  userId : UserId
  name : String
  portalSlugs : FrozenSet
  frequencySeconds : Int
  conditionStrings : List String

structure CreateAlert where
  fieldRegistry : FieldRegistry

variable [PythonRuntime]

/-- The use case; `id` is the identifier that it draws. -/
def CreateAlert.run (create : CreateAlert) (id : AlertId)
    (request : CreateRequest) : CycleTxn SearchAlert := do
  let conditions ← Txn.ofExcept
    (parseConditions create.fieldRegistry request.conditionStrings)
  let now ← clock
  let alert ← Txn.ofExcept (SearchAlert.create id request.userId request.name
    request.portalSlugs request.frequencySeconds conditions now)
  AlertRepository.add alert
  Txn.commitOr .integrityError
  return alert

omit [PythonRuntime] in
theorem owner_of_new {id : AlertId} {userId : UserId} {name : String}
    {portalSlugs : FrozenSet} {frequencySeconds : Int} {conditions : RuleGroup}
    {createdAt updatedAt : DateTime} {isActive : Bool}
    {lastRunAt : Option DateTime} {alert : SearchAlert}
    (h : SearchAlert.new id userId name portalSlugs frequencySeconds conditions
      createdAt updatedAt isActive lastRunAt = .ok alert) :
    alert.id = id ∧ alert.userId = userId := by
  unfold SearchAlert.new at h
  split at h
  · split at h
    · split at h
      · obtain rfl := Except.ok.inj h
        exact ⟨rfl, rfl⟩
      · cases h
    · cases h
  · cases h

theorem owner_of_toDomain {db : Store} {row : AlertRow} {alert : SearchAlert}
    (h : AlertRepository.toDomain db row = .ok alert) :
    alert.id = row.id ∧ alert.userId = row.userId := by
  obtain ⟨conditions, -, h⟩ := bind_eq_ok.mp h
  exact owner_of_new h

theorem owner_of_get {id : AlertId} {db : Store} {alert : SearchAlert}
    (h : AlertRepository.get id db = .ok (some alert)) :
    ∃ row ∈ db.alerts, alert.id = row.id ∧ alert.userId = row.userId := by
  unfold AlertRepository.get at h
  cases hfind : AlertRepository.find id db with
  | none => simp [hfind] at h
  | some row =>
      refine ⟨row, List.mem_of_find?_eq_some hfind, ?_⟩
      cases hdomain : AlertRepository.toDomain db row with
      | error error => simp [hfind, hdomain, Except.map] at h
      | ok loaded =>
          obtain rfl : loaded = alert := by simpa [hfind, hdomain, Except.map] using h
          exact owner_of_toDomain hdomain

theorem owner_of_listDue {now : DateTime} {db : Store} {due : List SearchAlert}
    (h : AlertRepository.listDue now db = .ok due) {alert : SearchAlert}
    (halert : alert ∈ due) :
    ∃ row ∈ db.alerts, alert.id = row.id ∧ alert.userId = row.userId := by
  have hmap : due.map (fun alert => (alert.id, alert.userId)) =
      ((db.alerts.filter (·.isActive)).filter (AlertRepository.isDue now)).map
        fun row => (row.id, row.userId) :=
    map_of_mapM_eq_ok (fun row alert halert => by
      obtain ⟨hid, huser⟩ := owner_of_toDomain halert
      rw [hid, huser]) h
  have hmem := List.mem_map_of_mem (f := fun alert : SearchAlert =>
    (alert.id, alert.userId)) halert
  rw [hmap] at hmem
  obtain ⟨row, hrow, heq⟩ := List.mem_map.mp hmem
  obtain ⟨hid, huser⟩ := Prod.mk.inj heq
  exact ⟨row, (List.mem_filter.mp (List.mem_filter.mp hrow).1).1, hid.symm, huser.symm⟩

end RealEstateTracker.Alerts
