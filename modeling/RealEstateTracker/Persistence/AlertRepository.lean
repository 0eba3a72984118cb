import RealEstateTracker.Persistence.ConditionRows

/-!
# The alert repository

`add` merges the whole aggregate: it compares the alert row with the one it
loads, stores the condition tree anew under fresh identifiers and deletes the
rows it read, all of which takes effect when the transaction commits.
-/

namespace RealEstateTracker.Persistence

open Foundation Domain

/-- The result of `uuid4()` as call number `call` within a statement. -/
def Uuid.drawn (stamp : Stamp) (call : Nat) : Uuid :=
  .uuid4 stamp.txn stamp.op call

theorem Uuid.drawn_injective (stamp : Stamp) :
    Function.Injective (Uuid.drawn stamp) := fun _ _ h => by
  simpa [Uuid.drawn] using h

namespace AlertRepository

def toModel (alert : SearchAlert) : AlertRow where
  id := alert.id
  userId := alert.userId
  name := alert.name
  frequencySeconds := alert.frequencySeconds
  isActive := alert.isActive
  lastRunAt := alert.lastRunAt
  createdAt := alert.createdAt
  updatedAt := alert.updatedAt

def rowsOf (id : AlertId) (db : Store) : List ConditionRow :=
  db.conditions.filter (·.alertId = id)

def conditionRows (alert : SearchAlert) (stamp : Stamp) : List ConditionRow :=
  buildRows (Uuid.drawn stamp) alert.id alert.conditions.node none 0 []

def find (id : AlertId) (db : Store) : Option AlertRow :=
  db.alerts.find? (·.id = id)

def rowWrite (alert : SearchAlert) (db : Store) : Write :=
  match find alert.id db with
  | none => .insertAlert (toModel alert)
  | some loaded => .updateAlert loaded (toModel alert)

/-- `session.merge(model)` and the flush that follows it. -/
def mergeWrites (alert : SearchAlert) (stamp : Stamp) (db : Store) :
    List Write :=
  [rowWrite alert db] ++ (conditionRows alert stamp).map Write.insertCondition ++
    [.deleteConditions ((rowsOf alert.id db).map (·.id))]

def subscriptionWrites (alert : SearchAlert) (db : Store) : List Write :=
  alert.portalSlugs.sorted.flatMap fun slug =>
    (if db.portals.contains slug then [] else [.insertPortal slug]) ++
      if db.subscriptions.contains ⟨alert.id, slug⟩ then []
      else [.insertSubscription ⟨alert.id, slug⟩]

def addWrites (alert : SearchAlert) (stamp : Stamp) (db : Store) : List Write :=
  mergeWrites alert stamp db ++ subscriptionWrites alert db

def portalSlugs (id : AlertId) (db : Store) : FrozenSet :=
  .ofList ((db.subscriptions.filter (·.alertId = id)).map (·.portalSlug))

section Reads

variable [PythonRuntime]

def toDomain (db : Store) (row : AlertRow) : Except PyError SearchAlert := do
  let conditions ← rebuildTree (orderByPosition (rowsOf row.id db))
  SearchAlert.new row.id row.userId row.name (portalSlugs row.id db)
    row.frequencySeconds conditions row.createdAt row.updatedAt row.isActive
    row.lastRunAt

def get (id : AlertId) (db : Store) : Except PyError (Option SearchAlert) :=
  match find id db with
  | none => .ok none
  | some row => (toDomain db row).map some

def isDue (now : DateTime) (row : AlertRow) : Bool :=
  match row.lastRunAt with
  | none => true
  | some lastRunAt => row.frequencySeconds * 1000000 ≤ now - lastRunAt

def listDue (now : DateTime) (db : Store) : Except PyError (List SearchAlert) :=
  ((db.alerts.filter (·.isActive)).filter (isDue now)).mapM (toDomain db)

end Reads

section Transactions

variable {C : Type} {R : C → Type}

def add (alert : SearchAlert) : Txn Store Write C R PyError Unit :=
  .exec (addWrites alert)

end Transactions

/-! ## What a batch of writes does to the condition rows -/

def deletedIds (writes : List Write) : List Uuid :=
  writes.flatMap fun
    | .deleteConditions ids => ids
    | _ => []

def insertedRows (writes : List Write) : List ConditionRow :=
  (applyAll writes Store.empty).conditions

theorem conditions_apply (write : Write) (db : Store) :
    (write.apply db).conditions =
      (db.conditions.filter fun row => !(deletedIds [write]).contains row.id) ++
        insertedRows [write] := by
  cases write <;>
    simp [Write.apply, deletedIds, insertedRows, Store.empty, apply_eq]

theorem conditions_applyAll (writes : List Write) (db : Store) :
    (applyAll writes db).conditions =
      (db.conditions.filter fun row => !(deletedIds writes).contains row.id) ++
        insertedRows writes := by
  induction writes using List.reverseRecOn with
  | nil => simp [deletedIds, insertedRows, Store.empty]
  | append_singleton writes write ih =>
      have hdeleted : deletedIds (writes ++ [write]) =
          deletedIds writes ++ deletedIds [write] := by
        simp [deletedIds]
      have hinserted : insertedRows (writes ++ [write]) =
          ((insertedRows writes).filter
            fun row => !(deletedIds [write]).contains row.id) ++
              insertedRows [write] := by
        rw [insertedRows, applyAll_append]
        exact conditions_apply write _
      rw [applyAll_append, applyAll_cons, applyAll_nil, apply_eq,
        conditions_apply, ih, hinserted, hdeleted, List.filter_append,
        List.filter_filter, List.append_assoc]
      congr 2
      simp only [List.contains_append, Bool.not_or, Bool.and_comm]

theorem insertedRows_append (first second : List Write) :
    insertedRows (first ++ second) =
      ((insertedRows first).filter
        fun row => !(deletedIds second).contains row.id) ++
          insertedRows second := by
  rw [insertedRows, applyAll_append, conditions_applyAll]
  rfl

theorem deletedIds_append (first second : List Write) :
    deletedIds (first ++ second) = deletedIds first ++ deletedIds second := by
  simp [deletedIds]

def SparesConditions : Write → Prop
  | .insertCondition _ | .deleteConditions _ => False
  | _ => True

theorem spares_conditions {writes : List Write}
    (h : ∀ write ∈ writes, SparesConditions write) :
    deletedIds writes = [] ∧ insertedRows writes = [] := by
  induction writes with
  | nil => exact ⟨rfl, rfl⟩
  | cons write writes ih =>
      obtain ⟨hdeleted, hinserted⟩ := ih fun w hw => h w (.tail write hw)
      have hwrite := h write (.head writes)
      have hone : deletedIds [write] = [] ∧ insertedRows [write] = [] := by
        cases write <;> first | exact ⟨rfl, rfl⟩ | exact hwrite.elim
      rw [← List.singleton_append, deletedIds_append, insertedRows_append,
        hdeleted, hinserted, hone.1, hone.2]
      exact ⟨rfl, rfl⟩

theorem spares_append {writes : List Write}
    (h : ∀ write ∈ writes, SparesConditions write) (pending : List Write) :
    deletedIds (pending ++ writes) = deletedIds pending ∧
      insertedRows (pending ++ writes) = insertedRows pending := by
  obtain ⟨hdeleted, hinserted⟩ := spares_conditions h
  rw [deletedIds_append, insertedRows_append, hdeleted, hinserted]
  simp

theorem spares_rowWrite (alert : SearchAlert) (db : Store) :
    ∀ write ∈ [rowWrite alert db], SparesConditions write := by
  intro write hwrite
  rw [List.mem_singleton.mp hwrite, rowWrite]
  split <;> trivial

theorem spares_subscriptionWrites (alert : SearchAlert) (db : Store) :
    ∀ write ∈ subscriptionWrites alert db, SparesConditions write := by
  intro write hwrite
  simp only [subscriptionWrites, List.mem_flatMap, List.mem_append] at hwrite
  obtain ⟨slug, -, hwrite | hwrite⟩ := hwrite
  · split at hwrite
    · simp at hwrite
    · rw [List.mem_singleton.mp hwrite]; trivial
  · split at hwrite
    · simp at hwrite
    · rw [List.mem_singleton.mp hwrite]; trivial

theorem deletedIds_map_insertCondition (rows : List ConditionRow) :
    deletedIds (rows.map Write.insertCondition) = [] := by
  simp [deletedIds, List.flatMap_map]

theorem insertedRows_map_insertCondition (rows : List ConditionRow) :
    insertedRows (rows.map Write.insertCondition) = rows := by
  suffices h : ∀ db : Store,
      (applyAll (rows.map Write.insertCondition) db).conditions =
        db.conditions ++ rows from h Store.empty
  induction rows with
  | nil => simp
  | cons row rows ih => intro db; simp [ih, apply_eq, Write.apply]

theorem deletedIds_addWrites (alert : SearchAlert) (stamp : Stamp)
    (db : Store) :
    deletedIds (addWrites alert stamp db) = (rowsOf alert.id db).map (·.id) := by
  rw [addWrites, mergeWrites, deletedIds_append, deletedIds_append,
    deletedIds_append, deletedIds_map_insertCondition,
    (spares_conditions (spares_rowWrite alert db)).1,
    (spares_conditions (spares_subscriptionWrites alert db)).1]
  simp [deletedIds]

theorem insertedRows_addWrites (alert : SearchAlert) (stamp : Stamp)
    (db : Store) :
    insertedRows (addWrites alert stamp db) =
      (conditionRows alert stamp).filter
        fun row => !((rowsOf alert.id db).map (·.id)).contains row.id := by
  rw [addWrites, mergeWrites, insertedRows_append, insertedRows_append,
    insertedRows_append, insertedRows_map_insertCondition,
    deletedIds_map_insertCondition,
    (spares_conditions (spares_rowWrite alert db)).2,
    (spares_conditions (spares_subscriptionWrites alert db)).1,
    (spares_conditions (spares_subscriptionWrites alert db)).2]
  simp [deletedIds, insertedRows, Store.empty, apply_eq, Write.apply]

theorem mem_conditionRows {alert : SearchAlert} {stamp : Stamp}
    {row : ConditionRow} (h : row ∈ conditionRows alert stamp) :
    row.alertId = alert.id ∧ ∃ call, row.id = Uuid.drawn stamp call := by
  rw [conditionRows, buildRows_eq.1] at h
  obtain ⟨halert, ⟨call, -, -, hid⟩, -⟩ := mem_rows.1 _ _ _ _ row h
  exact ⟨halert, call, hid⟩

theorem conditionRows_ne_nil (alert : SearchAlert) (stamp : Stamp) :
    conditionRows alert stamp ≠ [] := by
  rw [conditionRows, buildRows_eq.1]
  apply List.ne_nil_of_length_pos
  simp only [List.nil_append, length_rows.1]
  exact nodeCount_pos _

end AlertRepository

end RealEstateTracker.Persistence
