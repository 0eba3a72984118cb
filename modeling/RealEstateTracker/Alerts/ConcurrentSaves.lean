import RealEstateTracker.Persistence.AlertRepository
import RealEstateTracker.Foundation.Interleaving

/-!
# Concurrent saves of one alert

Every save stores the whole condition tree under new identifiers and deletes
the rows that it read.  Two saves that overlap delete the same rows and both
add a tree.  The alert keeps exactly one tree as long as each commit still
finds the rows that its own save had read.
-/

namespace RealEstateTracker.Alerts

open Foundation Domain Persistence AlertRepository

variable {C : Type} {R : C → Type} {α : Type}

/-! ## Transactions that save an alert -/

/-- A write that concerns neither the row nor the conditions of alert `a`. -/
def Spares (a : AlertId) : Write → Prop
  | .insertAlert row => row.id ≠ a
  | .updateAlert _ model => model.id ≠ a
  | .insertCondition _ | .deleteConditions _ => False
  | _ => True

/--
A program each of whose transactions saves alert `a` at most once.  It may save
other alerts and do anything else that concerns no alert.  The flag says whether
the current transaction has saved `a`.
-/
def Saving (a : AlertId) : Bool → Txn Store Write C R PyError α → Prop
  | _, .done _ => True
  | _, .raise _ => True
  | saved, .stmt writes next =>
      ((∀ stamp db, ∀ write ∈ writes stamp db, Spares a write) ∧
        ∀ stamp db, Saving a saved (next stamp db)) ∨
      ∃ alert, writes = addWrites alert ∧ (alert.id = a → saved = false) ∧
        ∀ stamp db, Saving a (saved || decide (alert.id = a)) (next stamp db)
  | saved, .call _ next => ∀ answer, Saving a saved (next answer)
  | _, .commit next => ∀ accepted, Saving a false (next accepted)

def saveTransaction (alert : SearchAlert) : Txn Store Write C R PyError Unit :=
  (add alert).bind fun _ => Txn.commitOr .integrityError

theorem saving_saveTransaction (a : AlertId) (alert : SearchAlert) :
    Saving a false
      (saveTransaction alert : Txn Store Write C R PyError Unit) := by
  refine .inr ⟨alert, rfl, fun _ => rfl, fun stamp db accepted => ?_⟩
  cases accepted <;> trivial

/-! ## One tree -/

section Statement

variable [PythonRuntime]

/-- The rows of an alert form one tree and the repository can read it. -/
structure FormsOneTree (a : AlertId) (db : Store) : Prop where
  oneRoot : ((rowsOf a db).filter (·.parentGroupId = none)).length = 1
  parentsPresent : ∀ row ∈ rowsOf a db, ∀ parent ∈ row.parentGroupId,
    ∃ row' ∈ rowsOf a db, row'.id = parent
  readable : ∃ alert, AlertRepository.get a db = .ok (some alert)

end Statement

/-- The primary key holds and no identifier is one that a run will draw. -/
structure FreshRows (db : Store) : Prop where
  primaryKey : (db.conditions.map (·.id)).Nodup
  notDrawn : ∀ row ∈ db.conditions, ∀ txn op call,
    row.id ≠ .uuid4 txn op call

/--
When worker `i` is about to commit a save of alert `a`, the committed rows of
the alert are among those that the save read, and hence deletes.
-/
def SaveIsCurrent (a : AlertId) (sys : Sys Store Write C R PyError α)
    (i : Nat) : Prop :=
  match (sys.workers i).code with
  | .commit _ =>
      Database.admits sys.store (sys.workers i).session.pending = true →
      (∃ row ∈ insertedRows (sys.workers i).session.pending, row.alertId = a) →
        ∀ row ∈ rowsOf a sys.store,
          row.id ∈ deletedIds (sys.workers i).session.pending
  | _ => True

/-! ## The alert row stays readable -/

def ValidRow (row : AlertRow) : Prop :=
  isBlank row.name = false ∧ minFrequencySeconds ≤ row.frequencySeconds

structure ReadableRow (a : AlertId) (db : Store) : Prop where
  found : ∃ row, find a db = some row ∧ ValidRow row
  subscribed : ∃ row ∈ db.subscriptions, row.alertId = a

def KeepsRow (a : AlertId) : Write → Prop
  | .insertAlert row => row.id = a → ValidRow row
  | .updateAlert _ model => model.id = a → ValidRow model
  | _ => True

theorem keepsRow_of_spares {a : AlertId} {write : Write}
    (h : Spares a write) : KeepsRow a write := by
  cases write with
  | insertAlert row => exact fun heq => absurd heq h
  | updateAlert loaded model => exact fun heq => absurd heq h
  | _ => trivial

theorem validRow_toModel (alert : SearchAlert) : ValidRow (toModel alert) :=
  ⟨alert.named, alert.seldom⟩

theorem keepsRow_addWrites (a : AlertId) (alert : SearchAlert) (stamp : Stamp)
    (db : Store) : ∀ write ∈ addWrites alert stamp db, KeepsRow a write := by
  intro write hwrite
  rw [addWrites, mergeWrites, List.mem_append, List.mem_append,
    List.mem_append] at hwrite
  obtain ((hwrite | hwrite) | hwrite) | hwrite := hwrite
  · rw [List.mem_singleton.mp hwrite, rowWrite]
    split <;> exact fun _ => validRow_toModel alert
  · obtain ⟨row, -, rfl⟩ := List.mem_map.mp hwrite
    trivial
  · rw [List.mem_singleton.mp hwrite]
    trivial
  · have := spares_subscriptionWrites alert db write hwrite
    simp only [subscriptionWrites, List.mem_flatMap, List.mem_append] at hwrite
    obtain ⟨slug, -, hwrite | hwrite⟩ := hwrite <;> split at hwrite <;>
      simp_all [KeepsRow]

theorem validRow_update {loaded model stored : AlertRow}
    (hmodel : ValidRow model) (hstored : ValidRow stored) :
    ValidRow (AlertRow.update loaded model stored) := by
  constructor
  · simp only [AlertRow.update, column]
    split
    · exact hstored.1
    · exact hmodel.1
  · simp only [AlertRow.update, column]
    split
    · exact hstored.2
    · exact hmodel.2

theorem find_updateWhere {a : AlertId} {rows : List AlertRow} {row : AlertRow}
    {selects : AlertRow → Bool} {change : AlertRow → AlertRow}
    (hid : ∀ row, (change row).id = row.id)
    (h : rows.find? (·.id = a) = some row) :
    (updateWhere selects change rows).find? (·.id = a) =
      some (if selects row then change row else row) := by
  have hcomp : ((fun row : AlertRow => decide (row.id = a)) ∘
      fun row => if selects row then change row else row) =
        fun row => decide (row.id = a) := by
    funext row
    simp only [Function.comp]
    split <;> simp [hid]
  rw [updateWhere, List.find?_map, hcomp, h]
  rfl

theorem readableRow_apply {a : AlertId} {db : Store} {write : Write}
    (h : ReadableRow a db) (hwrite : KeepsRow a write) :
    ReadableRow a (write.apply db) := by
  obtain ⟨⟨row, hfind, hvalid⟩, hsub⟩ := h
  cases write with
  | insertAlert new =>
      refine ⟨⟨row, ?_, hvalid⟩, hsub⟩
      simp only [find] at hfind
      simp [find, Write.apply, List.find?_append, hfind]
  | updateAlert loaded model =>
      refine ⟨⟨_, find_updateWhere (fun _ => rfl) hfind, ?_⟩, hsub⟩
      split
      · next hselects =>
        have hid : row.id = a := by simpa using List.find?_some hfind
        exact validRow_update
          (hwrite (by simpa [hid, eq_comm] using hselects)) hvalid
      · exact hvalid
  | insertSubscription new =>
      obtain ⟨sub, hmem, hid⟩ := hsub
      exact ⟨⟨row, hfind, hvalid⟩, ⟨sub, List.mem_append_left _ hmem, hid⟩⟩
  | _ => exact ⟨⟨row, hfind, hvalid⟩, hsub⟩

theorem readableRow_applyAll {a : AlertId} {db : Store} {writes : List Write}
    (h : ReadableRow a db) (hwrites : ∀ write ∈ writes, KeepsRow a write) :
    ReadableRow a (applyAll writes db) := by
  induction writes generalizing db with
  | nil => exact h
  | cons write writes ih =>
      exact ih (readableRow_apply h (hwrites write (.head writes)))
        fun w hw => hwrites w (.tail write hw)

section Reads

variable [PythonRuntime]

theorem readableRow_of_get {a : AlertId} {db : Store} {alert : SearchAlert}
    (h : AlertRepository.get a db = .ok (some alert)) : ReadableRow a db := by
  unfold AlertRepository.get at h
  split at h
  · simp at h
  · next row hfind =>
    have hid : row.id = a := by simpa using List.find?_some hfind
    cases htree : rebuildTree (orderByPosition (rowsOf row.id db)) with
    | error error => simp [toDomain, htree, Except.map, bind, Except.bind] at h
    | ok group =>
        simp only [toDomain, htree, bind, Except.bind, SearchAlert.new] at h
        split at h
        · next hname =>
          split at h
          · next hportals =>
            split at h
            · next hfrequency =>
              refine ⟨⟨row, hfind, hname, hfrequency⟩, ?_⟩
              obtain ⟨slug, hslug⟩ := List.exists_mem_of_ne_nil _ hportals
              rw [portalSlugs, FrozenSet.mem_ofList, List.mem_map] at hslug
              obtain ⟨sub, hsub, -⟩ := hslug
              rw [List.mem_filter] at hsub
              exact ⟨sub, hsub.1, by simpa [hid] using hsub.2⟩
            · simp [Except.map] at h
          · simp [Except.map] at h
        · simp [Except.map] at h

theorem exists_get {a : AlertId} {db : Store} {group : RuleGroup}
    (hrow : ReadableRow a db)
    (htree : rebuildTree (orderByPosition (rowsOf a db)) = .ok group) :
    ∃ alert, AlertRepository.get a db = .ok (some alert) := by
  obtain ⟨⟨row, hfind, hname, hfrequency⟩, sub, hsub, hsubId⟩ := hrow
  have hid : row.id = a := by simpa using List.find?_some hfind
  have hportals : (portalSlugs row.id db).sorted ≠ [] := by
    apply List.ne_nil_of_mem (a := sub.portalSlug)
    rw [portalSlugs, FrozenSet.mem_ofList, List.mem_map]
    exact ⟨sub, List.mem_filter.mpr ⟨hsub, by simp [hid, hsubId]⟩, rfl⟩
  rw [← hid] at htree
  refine ⟨⟨row.id, row.userId, row.name, portalSlugs row.id db,
    row.frequencySeconds, group, row.createdAt, row.updatedAt, row.isActive,
    row.lastRunAt, hname, hportals, hfrequency⟩, ?_⟩
  simp only [AlertRepository.get, hfind, toDomain, htree, bind, Except.bind, SearchAlert.new,
    hname, hportals, hfrequency, ne_eq, not_false_eq_true, dif_pos]
  rfl

theorem formsOneTree_of_rows {a : AlertId} {db : Store} {uuid4 : Nat → Uuid}
    {group : RuleGroup} (hinj : Function.Injective uuid4)
    (hrow : ReadableRow a db)
    (hrows : rowsOf a db = buildRows uuid4 a group.node none 0 []) :
    FormsOneTree a db := by
  have htree : rowsOf a db = treeRows uuid4 a 0 group.node none 0 := by
    rw [hrows, buildRows_eq.1]
    rfl
  refine ⟨by rw [hrows]; exact roots_buildRows uuid4 a group, ?_, ?_⟩
  · rw [htree]
    intro row hrow parent hparent
    obtain ⟨-, -, rfl | ⟨id, hid, hrowParent⟩⟩ := mem_rows.1 _ _ _ _ row hrow
    · simp [headRow] at hparent
    · obtain rfl : parent = id := by simpa [hrowParent, eq_comm] using hparent
      exact exists_row.1 _ _ _ _ _ hid
  · have hperm : (orderByPosition (rowsOf a db)).Perm
        (buildRows uuid4 a group.node none 0 []) := by
      rw [hrows]
      exact List.perm_insertionSort _ _
    exact exists_get hrow (rebuildTree_perm hinj.injOn le_rfl hperm)

theorem formsOneTree_congr {a : AlertId} {db db' : Store}
    (h : FormsOneTree a db) (hrow : ReadableRow a db')
    (hrows : rowsOf a db' = rowsOf a db) : FormsOneTree a db' := by
  obtain ⟨alert, hget⟩ := h.readable
  have htree : ∃ group, rebuildTree (orderByPosition (rowsOf a db)) =
      .ok group := by
    unfold AlertRepository.get at hget
    split at hget
    · simp at hget
    · next row hfind =>
      have hid : row.id = a := by simpa using List.find?_some hfind
      cases htree : rebuildTree (orderByPosition (rowsOf row.id db)) with
      | error error =>
          simp [toDomain, htree, Except.map, bind, Except.bind] at hget
      | ok group => exact ⟨group, by rw [← hid, htree]⟩
  obtain ⟨group, htree⟩ := htree
  exact ⟨by rw [hrows]; exact h.oneRoot, by rw [hrows]; exact h.parentsPresent,
    exists_get hrow (by rw [hrows, htree])⟩

end Reads

/-! ## What a transaction has pending -/

/-- The identifiers that no uncommitted statement has drawn. -/
def Old (sys : Sys Store Write C R PyError α) (id : Uuid) : Prop :=
  ∀ txn op call, id = .uuid4 txn op call →
    op < (sys.workers txn).session.since

/--
What holds of a worker whose transaction has or has not saved alert `a`, given
the identifiers that are `old` and the committed condition rows.  The rows of
`a` are replaced as a whole, so a save deletes all of them or none.
-/
structure WorkerFacts (a : AlertId) (old : Uuid → Prop)
    (table : List ConditionRow) (saved : Bool)
    (worker : Worker Store Write C R PyError α) : Prop where
  code : Saving a saved worker.code
  since_le : worker.session.since ≤ worker.session.ops
  keeps : ∀ write ∈ worker.session.pending, KeepsRow a write
  insertedOwn : ∀ row ∈ insertedRows worker.session.pending, ∃ op call,
    row.id = .uuid4 worker.session.txn op call ∧
      worker.session.since ≤ op ∧ op < worker.session.ops
  insertedKey : ∀ row ∈ insertedRows worker.session.pending,
    ∀ row' ∈ insertedRows worker.session.pending,
      row.id = row'.id → row.alertId = row'.alertId
  deletedKnown : ∀ id ∈ deletedIds worker.session.pending, old id ∨
    ∃ op call, id = .uuid4 worker.session.txn op call ∧
      op < worker.session.ops
  unsaved : saved = false →
    (∀ row ∈ insertedRows worker.session.pending, row.alertId ≠ a) ∧
      ∀ row ∈ table, row.alertId = a →
        row.id ∉ deletedIds worker.session.pending
  whole : saved = true →
    (∃ alert stamp, alert.id = a ∧
      (insertedRows worker.session.pending).filter (·.alertId = a) =
        conditionRows alert stamp) ∧
      ((∀ row ∈ table, row.alertId = a →
          row.id ∈ deletedIds worker.session.pending) ∨
        ∀ row ∈ table, row.alertId = a →
          row.id ∉ deletedIds worker.session.pending)

namespace WorkerFacts

variable {a : AlertId} {old old' : Uuid → Prop} {table table' : List ConditionRow}
  {saved : Bool} {worker : Worker Store Write C R PyError α}

/-- More old identifiers and fewer rows of `a` change nothing. -/
theorem mono (h : WorkerFacts a old table saved worker)
    (hold : ∀ id, old id → old' id)
    (htable : ∀ row ∈ table', row.alertId = a → row ∈ table) :
    WorkerFacts a old' table' saved worker where
  code := h.code
  since_le := h.since_le
  keeps := h.keeps
  insertedOwn := h.insertedOwn
  insertedKey := h.insertedKey
  deletedKnown id hid := (h.deletedKnown id hid).imp_left (hold id)
  unsaved hsaved := ⟨(h.unsaved hsaved).1, fun row hrow ha =>
    (h.unsaved hsaved).2 row (htable row hrow ha) ha⟩
  whole hsaved := ⟨(h.whole hsaved).1, (h.whole hsaved).2.imp
    (fun hall row hrow ha => hall row (htable row hrow ha) ha)
    (fun hnone row hrow ha => hnone row (htable row hrow ha) ha)⟩

/-- Rows of `a` that the worker has not read replace those that it has. -/
theorem replaced (h : WorkerFacts a old table saved worker)
    (hold : ∀ id, old id → old' id)
    (hfresh : ∀ row ∈ table', row.alertId = a →
      row.id ∉ deletedIds worker.session.pending) :
    WorkerFacts a old' table' saved worker where
  code := h.code
  since_le := h.since_le
  keeps := h.keeps
  insertedOwn := h.insertedOwn
  insertedKey := h.insertedKey
  deletedKnown id hid := (h.deletedKnown id hid).imp_left (hold id)
  unsaved hsaved := ⟨(h.unsaved hsaved).1, hfresh⟩
  whole hsaved := ⟨(h.whole hsaved).1, .inr hfresh⟩

theorem begun (hcode : Saving a false worker.code)
    (hsince : worker.session.since ≤ worker.session.ops)
    (hpending : worker.session.pending = []) :
    WorkerFacts a old table false worker where
  code := hcode
  since_le := hsince
  keeps := by simp [hpending]
  insertedOwn := by simp [hpending, insertedRows, Store.empty]
  insertedKey := by simp [hpending, insertedRows, Store.empty]
  deletedKnown := by simp [hpending, deletedIds]
  unsaved _ := by simp [hpending, insertedRows, Store.empty, deletedIds]
  whole hsaved := by simp at hsaved

theorem answered (h : WorkerFacts a old table saved worker) (request : C)
    (answer : R request) (code : Txn Store Write C R PyError α)
    (hcode : Saving a saved code) :
    WorkerFacts a old table saved
      ⟨code, worker.session.answered request answer⟩ where
  code := hcode
  since_le := Nat.le_succ_of_le h.since_le
  keeps := h.keeps
  insertedOwn row hrow := by
    obtain ⟨op, call, hid, hsince, hops⟩ := h.insertedOwn row hrow
    exact ⟨op, call, hid, hsince, Nat.lt_succ_of_lt hops⟩
  insertedKey := h.insertedKey
  deletedKnown id hid := by
    obtain hold | ⟨op, call, hid, hops⟩ := h.deletedKnown id hid
    · exact .inl hold
    · exact .inr ⟨op, call, hid, Nat.lt_succ_of_lt hops⟩
  unsaved := h.unsaved
  whole := h.whole

theorem spared (h : WorkerFacts a old table saved worker)
    {writes : List Write} (hwrites : ∀ write ∈ writes, Spares a write)
    (code : Txn Store Write C R PyError α) (hcode : Saving a saved code) :
    WorkerFacts a old table saved ⟨code, worker.session.wrote writes⟩ := by
  obtain ⟨hdel, hins⟩ := spares_append (fun write hwrite => by
    have := hwrites write hwrite
    cases write <;> trivial) worker.session.pending
  constructor
  case code => exact hcode
  case since_le => exact Nat.le_succ_of_le h.since_le
  case keeps =>
    intro write hwrite
    obtain hwrite | hwrite := List.mem_append.mp hwrite
    · exact h.keeps write hwrite
    · exact keepsRow_of_spares (hwrites write hwrite)
  all_goals simp only [Session.pending_wrote, hins, hdel]
  case insertedOwn =>
    intro row hrow
    obtain ⟨op, call, hid, hsince, hops⟩ := h.insertedOwn row hrow
    exact ⟨op, call, hid, hsince, Nat.lt_succ_of_lt hops⟩
  case insertedKey => exact h.insertedKey
  case deletedKnown =>
    intro id hid
    obtain hold | ⟨op, call, hid, hops⟩ := h.deletedKnown id hid
    · exact .inl hold
    · exact .inr ⟨op, call, hid, Nat.lt_succ_of_lt hops⟩
  case unsaved => exact h.unsaved
  case whole => exact h.whole

end WorkerFacts

/-- What a worker knows of the committed condition rows. -/
structure Committed (old : Uuid → Prop)
    (worker : Worker Store Write C R PyError α) (db : Store) : Prop where
  old : ∀ row ∈ db.conditions, old row.id
  before : ∀ row ∈ db.conditions, ∀ op call,
    row.id = .uuid4 worker.session.txn op call → op < worker.session.since
  key : ∀ row ∈ db.conditions, ∀ row' ∈ db.conditions,
    row.id = row'.id → row.alertId = row'.alertId

theorem mem_view {session : Session Write C R} {db : Store}
    {row : ConditionRow} (h : row ∈ (session.view db).conditions) :
    (row ∈ db.conditions ∧ row.id ∉ deletedIds session.pending) ∨
      row ∈ insertedRows session.pending := by
  rw [Session.view, conditions_applyAll, List.mem_append, List.mem_filter] at h
  simpa using h

def readIds (alert : SearchAlert) (view : Store) : List Uuid :=
  (rowsOf alert.id view).map (·.id)

theorem mem_readIds {alert : SearchAlert} {view : Store} {id : Uuid} :
    id ∈ readIds alert view ↔
      ∃ row ∈ view.conditions, row.alertId = alert.id ∧ row.id = id := by
  simp [readIds, rowsOf, and_assoc]

namespace WorkerFacts

variable {a : AlertId} {old : Uuid → Prop} {saved : Bool}
  {worker : Worker Store Write C R PyError α} {db : Store}

theorem ne_of_committed (h : WorkerFacts a old db.conditions saved worker)
    (hdb : Committed old worker db) {row row' : ConditionRow}
    (hrow : row ∈ db.conditions)
    (hrow' : row' ∈ insertedRows worker.session.pending) :
    row.id ≠ row'.id := by
  intro heq
  obtain ⟨op, call, hid, hsince, -⟩ := h.insertedOwn row' hrow'
  have := hdb.before row hrow op call (heq.trans hid)
  omega

theorem alertId_eq_of_view (h : WorkerFacts a old db.conditions saved worker)
    (hdb : Committed old worker db) {row row' : ConditionRow}
    (hrow : row ∈ db.conditions ∨ row ∈ insertedRows worker.session.pending)
    (hrow' : row' ∈ (worker.session.view db).conditions)
    (hid : row.id = row'.id) : row.alertId = row'.alertId := by
  obtain ⟨hrow', -⟩ | hrow' := mem_view hrow'
  · obtain hrow | hrow := hrow
    · exact hdb.key row hrow row' hrow' hid
    · exact absurd hid.symm (h.ne_of_committed hdb hrow' hrow)
  · obtain hrow | hrow := hrow
    · exact absurd hid (h.ne_of_committed hdb hrow hrow')
    · exact h.insertedKey row hrow row' hrow' hid

theorem readIds_known (h : WorkerFacts a old db.conditions saved worker)
    (hdb : Committed old worker db) {alert : SearchAlert} {id : Uuid}
    (hid : id ∈ readIds alert (worker.session.view db)) :
    old id ∨ ∃ op call, id = .uuid4 worker.session.txn op call ∧
      op < worker.session.ops := by
  obtain ⟨row, hrow, -, rfl⟩ := mem_readIds.mp hid
  obtain ⟨hrow, -⟩ | hrow := mem_view hrow
  · exact .inl (hdb.old row hrow)
  · obtain ⟨op, call, hid, -, hops⟩ := h.insertedOwn row hrow
    exact .inr ⟨op, call, hid, hops⟩

theorem drawn_notMem_readIds (h : WorkerFacts a old db.conditions saved worker)
    (hdb : Committed old worker db) (alert : SearchAlert) (call : Nat) :
    Uuid.drawn worker.session.stamp call ∉
      readIds alert (worker.session.view db) := by
  intro hid
  obtain ⟨row, hrow, -, heq⟩ := mem_readIds.mp hid
  have hsince := h.since_le
  obtain ⟨hrow, -⟩ | hrow := mem_view hrow
  · have := hdb.before row hrow worker.session.ops call heq
    omega
  · obtain ⟨op, call', hid', -, hops⟩ := h.insertedOwn row hrow
    rw [hid', Uuid.drawn, Uuid.uuid4.injEq] at heq
    have := heq.2.1
    simp only [Session.stamp_op] at this
    omega

theorem notMem_readIds_of_ne (h : WorkerFacts a old db.conditions saved worker)
    (hdb : Committed old worker db) {alert : SearchAlert} (hne : alert.id ≠ a)
    {row : ConditionRow}
    (hrow : row ∈ db.conditions ∨ row ∈ insertedRows worker.session.pending)
    (ha : row.alertId = a) :
    row.id ∉ readIds alert (worker.session.view db) := by
  intro hid
  obtain ⟨row', hrow', halert, heq⟩ := mem_readIds.mp hid
  have := h.alertId_eq_of_view hdb hrow hrow' heq.symm
  exact hne (by rw [← halert, ← this, ha])

theorem insertedRows_added (h : WorkerFacts a old db.conditions saved worker)
    (hdb : Committed old worker db) (alert : SearchAlert) :
    insertedRows (worker.session.pending ++ addWrites alert
        worker.session.stamp (worker.session.view db)) =
      ((insertedRows worker.session.pending).filter
        fun row => !(readIds alert (worker.session.view db)).contains row.id) ++
          conditionRows alert worker.session.stamp := by
  rw [insertedRows_append, deletedIds_addWrites, insertedRows_addWrites]
  congr 1
  rw [List.filter_eq_self]
  intro row hrow
  obtain ⟨-, call, hid⟩ := mem_conditionRows hrow
  rw [hid]
  simpa [readIds] using h.drawn_notMem_readIds hdb alert call

theorem deletedIds_added (alert : SearchAlert) :
    deletedIds (worker.session.pending ++ addWrites alert
        worker.session.stamp (worker.session.view db)) =
      deletedIds worker.session.pending ++
        readIds alert (worker.session.view db) := by
  rw [deletedIds_append, deletedIds_addWrites, readIds]

theorem mem_insertedRows_added
    (h : WorkerFacts a old db.conditions saved worker)
    (hdb : Committed old worker db) {alert : SearchAlert} {row : ConditionRow}
    (hrow : row ∈ insertedRows (worker.session.pending ++ addWrites alert
      worker.session.stamp (worker.session.view db))) :
    row ∈ insertedRows worker.session.pending ∨
      row ∈ conditionRows alert worker.session.stamp := by
  rw [h.insertedRows_added hdb, List.mem_append] at hrow
  exact hrow.imp_left fun hrow => (List.mem_filter.mp hrow).1

theorem insertedKey_added (h : WorkerFacts a old db.conditions saved worker)
    (hdb : Committed old worker db) {alert : SearchAlert}
    {row row' : ConditionRow}
    (hrow : row ∈ insertedRows (worker.session.pending ++ addWrites alert
      worker.session.stamp (worker.session.view db)))
    (hrow' : row' ∈ insertedRows (worker.session.pending ++ addWrites alert
      worker.session.stamp (worker.session.view db)))
    (hid : row.id = row'.id) : row.alertId = row'.alertId := by
  have hne : ∀ row ∈ insertedRows worker.session.pending,
      ∀ row' ∈ conditionRows alert worker.session.stamp, row.id ≠ row'.id := by
    intro row hrow row' hrow' hid
    obtain ⟨op, call, hid', -, hops⟩ := h.insertedOwn row hrow
    obtain ⟨-, call', hid''⟩ := mem_conditionRows hrow'
    rw [hid', hid'', Uuid.drawn, Uuid.uuid4.injEq] at hid
    have := hid.2.1
    simp only [Session.stamp_op] at this
    omega
  obtain hrow | hrow := h.mem_insertedRows_added hdb hrow <;>
  obtain hrow' | hrow' := h.mem_insertedRows_added hdb hrow'
  · exact h.insertedKey row hrow row' hrow' hid
  · exact absurd hid (hne row hrow row' hrow')
  · exact absurd hid.symm (hne row' hrow' row hrow)
  · rw [(mem_conditionRows hrow).1, (mem_conditionRows hrow').1]

/-- After a save of `a` itself: its rows are new, and it deletes all the committed ones. -/
theorem whole_saved (h : WorkerFacts a old db.conditions false worker)
    (hdb : Committed old worker db) {alert : SearchAlert} (ha : alert.id = a) :
    (insertedRows (worker.session.pending ++ addWrites alert
        worker.session.stamp (worker.session.view db))).filter
          (·.alertId = a) = conditionRows alert worker.session.stamp ∧
      ∀ row ∈ db.conditions, row.alertId = a →
        row.id ∈ deletedIds (worker.session.pending ++ addWrites alert
          worker.session.stamp (worker.session.view db)) := by
  obtain ⟨hinserted, htable⟩ := h.unsaved rfl
  constructor
  · rw [h.insertedRows_added hdb, List.filter_append,
      List.filter_eq_nil_iff.mpr, List.nil_append, List.filter_eq_self]
    · intro row hrow
      simpa [ha] using (mem_conditionRows hrow).1
    · intro row hrow
      simpa using hinserted row (List.mem_filter.mp hrow).1
  · intro row hrow hrowA
    rw [deletedIds_added, List.mem_append]
    refine .inr (mem_readIds.mpr ⟨row, ?_, hrowA.trans ha.symm, rfl⟩)
    rw [Session.view, conditions_applyAll, List.mem_append, List.mem_filter]
    exact .inl ⟨hrow, by simpa using htable row hrow hrowA⟩

theorem whole_other (h : WorkerFacts a old db.conditions saved worker)
    (hdb : Committed old worker db) {alert : SearchAlert} (hne : alert.id ≠ a) :
    (insertedRows (worker.session.pending ++ addWrites alert
        worker.session.stamp (worker.session.view db))).filter
          (·.alertId = a) =
        (insertedRows worker.session.pending).filter (·.alertId = a) ∧
      ∀ row ∈ db.conditions, row.alertId = a →
        (row.id ∈ deletedIds (worker.session.pending ++ addWrites alert
            worker.session.stamp (worker.session.view db)) ↔
          row.id ∈ deletedIds worker.session.pending) := by
  constructor
  · have hnew : (conditionRows alert worker.session.stamp).filter
        (·.alertId = a) = [] := by
      rw [List.filter_eq_nil_iff]
      intro row hrow
      simpa [(mem_conditionRows hrow).1] using hne
    rw [h.insertedRows_added hdb, List.filter_append, hnew, List.append_nil,
      List.filter_filter]
    apply List.filter_congr
    intro row hrow
    by_cases hrowA : row.alertId = a
    · simpa [hrowA] using h.notMem_readIds_of_ne hdb hne (.inr hrow) hrowA
    · simp [hrowA]
  · intro row hrow hrowA
    rw [deletedIds_added, List.mem_append]
    exact or_iff_left (h.notMem_readIds_of_ne hdb hne (.inl hrow) hrowA)

theorem added (h : WorkerFacts a old db.conditions saved worker)
    (hdb : Committed old worker db) (alert : SearchAlert)
    (honce : alert.id = a → saved = false)
    (code : Txn Store Write C R PyError α)
    (hcode : Saving a (saved || decide (alert.id = a)) code) :
    WorkerFacts a old db.conditions (saved || decide (alert.id = a))
      ⟨code, worker.session.wrote
        (addWrites alert worker.session.stamp (worker.session.view db))⟩ := by
  constructor
  case code => exact hcode
  case since_le => exact Nat.le_succ_of_le h.since_le
  case keeps =>
    intro write hwrite
    obtain hwrite | hwrite := List.mem_append.mp hwrite
    · exact h.keeps write hwrite
    · exact keepsRow_addWrites a alert _ _ write hwrite
  case insertedOwn =>
    intro row hrow
    obtain hrow | hrow := h.mem_insertedRows_added hdb hrow
    · obtain ⟨op, call, hid, hsince, hops⟩ := h.insertedOwn row hrow
      exact ⟨op, call, hid, hsince, Nat.lt_succ_of_lt hops⟩
    · obtain ⟨-, call, hid⟩ := mem_conditionRows hrow
      exact ⟨_, call, hid, h.since_le, Nat.lt_succ_self _⟩
  case insertedKey =>
    intro row hrow row' hrow' hid
    exact h.insertedKey_added hdb hrow hrow' hid
  case deletedKnown =>
    intro id hid
    simp only [Session.pending_wrote, deletedIds_added, List.mem_append] at hid
    obtain hold | ⟨op, call, hid, hops⟩ :=
      hid.elim (h.deletedKnown id) (h.readIds_known hdb)
    · exact .inl hold
    · exact .inr ⟨op, call, hid, Nat.lt_succ_of_lt hops⟩
  case unsaved =>
    intro hsaved
    obtain ⟨rfl, hne⟩ : saved = false ∧ alert.id ≠ a := by simpa using hsaved
    obtain ⟨hinserted, htable⟩ := h.unsaved rfl
    refine ⟨fun row hrow => ?_, fun row hrow ha hid => ?_⟩
    · obtain hrow | hrow := h.mem_insertedRows_added hdb hrow
      · exact hinserted row hrow
      · rwa [(mem_conditionRows hrow).1]
    · exact htable row hrow ha (((h.whole_other hdb hne).2 row hrow ha).mp hid)
  case whole =>
    intro hsaved
    by_cases ha : alert.id = a
    · obtain rfl := honce ha
      obtain ⟨hrows, hall⟩ := h.whole_saved hdb ha
      exact ⟨⟨alert, _, ha, hrows⟩, .inl hall⟩
    · have hsaved : saved = true := by simpa [ha] using hsaved
      obtain ⟨⟨alert', stamp, halert', hrows⟩, hall⟩ := h.whole hsaved
      obtain ⟨hsame, hdeleted⟩ := h.whole_other hdb ha
      exact ⟨⟨alert', stamp, halert', hsame.trans hrows⟩, hall.imp
        (fun hall row hrow hrowA =>
          (hdeleted row hrow hrowA).mpr (hall row hrow hrowA))
        (fun hnone row hrow hrowA hid =>
          hnone row hrow hrowA ((hdeleted row hrow hrowA).mp hid))⟩

end WorkerFacts

/-! ## Steps -/

/-- What holds of every state while the alert has kept exactly one tree. -/
structure SaveInvariant (a : AlertId) (sys : Sys Store Write C R PyError α) :
    Prop where
  txn : ∀ i, (sys.workers i).session.txn = i
  old : ∀ row ∈ sys.store.conditions, Old sys row.id
  key : ∀ row ∈ sys.store.conditions, ∀ row' ∈ sys.store.conditions,
    row.id = row'.id → row.alertId = row'.alertId
  readable : ReadableRow a sys.store
  workers : ∀ i, ∃ saved,
    WorkerFacts a (Old sys) sys.store.conditions saved (sys.workers i)

namespace SaveInvariant

variable {a : AlertId} {sys sys' : Sys Store Write C R PyError α}
  {oracle : Oracle C R} {i : Nat}

theorem committed (h : SaveInvariant a sys) (i : Nat) :
    Committed (Old sys) (sys.workers i) sys.store where
  old := h.old
  before row hrow op call hid := by
    rw [h.txn] at hid
    exact h.old row hrow i op call hid
  key := h.key

/-- An identifier that is old stays old: transactions only begin later. -/
theorem old_step (hworkers : ∀ k, k ≠ i → sys'.workers k = sys.workers k)
    (hsince : (sys.workers i).session.since ≤ (sys'.workers i).session.since) :
    ∀ id, Old sys id → Old sys' id := by
  intro id hid txn op call heq
  have hlt := hid txn op call heq
  by_cases hk : txn = i
  · subst hk
    omega
  · rwa [hworkers txn hk]

theorem step_of_store_eq (h : SaveInvariant a sys)
    (hworkers : ∀ k, k ≠ i → sys'.workers k = sys.workers k)
    (htxn : (sys'.workers i).session.txn = i)
    (hstore : sys'.store = sys.store)
    (hsince : (sys.workers i).session.since ≤ (sys'.workers i).session.since)
    (hworker : ∃ saved, WorkerFacts a (Old sys) sys.store.conditions saved
      (sys'.workers i)) : SaveInvariant a sys' := by
  have hold := old_step hworkers hsince
  constructor
  case txn =>
    intro k
    by_cases hk : k = i
    · rw [hk, htxn]
    · rw [hworkers k hk, h.txn]
  case old => rw [hstore]; exact fun row hrow => hold _ (h.old row hrow)
  case key => rw [hstore]; exact h.key
  case readable => rw [hstore]; exact h.readable
  case workers =>
    rw [hstore]
    intro k
    by_cases hk : k = i
    · subst hk
      obtain ⟨saved, hfacts⟩ := hworker
      exact ⟨saved, hfacts.mono hold fun _ hrow _ => hrow⟩
    · rw [hworkers k hk]
      obtain ⟨saved, hfacts⟩ := h.workers k
      exact ⟨saved, hfacts.mono hold fun _ hrow _ => hrow⟩

theorem rowsOf_commit (pending : List Write) (store : Store) :
    rowsOf a (applyAll pending store) =
      ((rowsOf a store).filter
        fun row => !(deletedIds pending).contains row.id) ++
          (insertedRows pending).filter (·.alertId = a) := by
  rw [rowsOf, conditions_applyAll, List.filter_append, rowsOf,
    List.filter_filter, List.filter_filter]
  simp only [Bool.and_comm]

theorem rowsOf_commit_of_unsaved
    (hfacts : WorkerFacts a (Old sys) sys.store.conditions false
      (sys.workers i)) :
    rowsOf a (applyAll (sys.workers i).session.pending sys.store) =
      rowsOf a sys.store := by
  obtain ⟨hinserted, htable⟩ := hfacts.unsaved rfl
  rw [rowsOf_commit, List.filter_eq_self.mpr, List.filter_eq_nil_iff.mpr,
    List.append_nil]
  · intro row hrow
    simpa using hinserted row hrow
  · intro row hrow
    rw [rowsOf, List.mem_filter] at hrow
    simpa using htable row hrow.1 (by simpa using hrow.2)

theorem notMem_deletedIds_of_commit (h : SaveInvariant a sys) {saved : Bool}
    (hfacts : WorkerFacts a (Old sys) sys.store.conditions saved (sys.workers i))
    (hcurrent : ∀ row ∈ sys.store.conditions, row.alertId = a →
      row.id ∈ deletedIds (sys.workers i).session.pending) {k : Nat} (hk : k ≠ i) :
    ∀ row ∈ (applyAll (sys.workers i).session.pending sys.store).conditions,
      row.alertId = a → row.id ∉ deletedIds (sys.workers k).session.pending := by
  intro row hrow ha hid
  rw [conditions_applyAll, List.mem_append, List.mem_filter] at hrow
  obtain ⟨hrow, hkept⟩ | hrow := hrow
  · have hdeleted := hcurrent row hrow ha
    simp [hdeleted] at hkept
  · -- the identifier was drawn by worker `i`
    obtain ⟨op, call, hdrawn, hle, -⟩ := hfacts.insertedOwn row hrow
    rw [h.txn] at hdrawn
    obtain ⟨_, hfacts'⟩ := h.workers k
    obtain hknown | ⟨op', call', heq, -⟩ := hfacts'.deletedKnown _ hid
    · have := hknown i op call hdrawn
      omega
    · rw [hdrawn, h.txn, Uuid.uuid4.injEq] at heq
      exact hk heq.1.symm

theorem step_commit (h : SaveInvariant a sys)
    (next : Bool → Txn Store Write C R PyError α)
    (hcode : (sys.workers i).code = .commit next) {saved : Bool}
    (hfacts : WorkerFacts a (Old sys) sys.store.conditions saved
      (sys.workers i))
    (hcurrent : saved = true → ∀ row ∈ sys.store.conditions,
      row.alertId = a → row.id ∈ deletedIds (sys.workers i).session.pending) :
    SaveInvariant a { sys.setWorker i
      ⟨next true, (sys.workers i).session.committed⟩ with
        store := applyAll (sys.workers i).session.pending sys.store } := by
  set pending := (sys.workers i).session.pending with hpending
  generalize hsys' : ({ sys.setWorker i
    ⟨next true, (sys.workers i).session.committed⟩ with
      store := applyAll pending sys.store } : Sys Store Write C R PyError α) =
        sys'
  have hself : sys'.workers i =
      ⟨next true, (sys.workers i).session.committed⟩ := by
    rw [← hsys']
    exact Sys.workers_setWorker_self ..
  have hne : ∀ k, k ≠ i → sys'.workers k = sys.workers k := by
    intro k hk
    rw [← hsys']
    exact Sys.workers_setWorker_of_ne _ _ hk
  have hstore : sys'.store.conditions =
      (sys.store.conditions.filter
        fun row => !(deletedIds pending).contains row.id) ++
          insertedRows pending := by
    rw [← hsys']
    exact conditions_applyAll pending sys.store
  have hsince : (sys'.workers i).session.since =
      (sys.workers i).session.ops + 1 := by
    rw [hself]
    rfl
  have hmem : ∀ row ∈ sys'.store.conditions, row ∈ sys.store.conditions ∧
      row.id ∉ deletedIds pending ∨ row ∈ insertedRows pending := by
    intro row hrow
    rw [hstore, List.mem_append, List.mem_filter] at hrow
    simpa using hrow
  have hold := old_step hne (hsince ▸ Nat.le_succ_of_le hfacts.since_le)
  constructor
  case txn =>
    intro k
    by_cases hk : k = i
    · rw [hk, hself]
      exact h.txn i
    · rw [hne k hk, h.txn]
  case old =>
    intro row hrow
    obtain ⟨hrow, -⟩ | hrow := hmem row hrow
    · exact hold _ (h.old row hrow)
    · obtain ⟨op, call, hid, -, hops⟩ := hfacts.insertedOwn row hrow
      intro txn op' call' heq
      rw [hid, h.txn, Uuid.uuid4.injEq] at heq
      obtain ⟨rfl, rfl, -⟩ := heq
      omega
  case key =>
    intro row hrow row' hrow' hid
    have hdisjoint : ∀ row ∈ sys.store.conditions,
        ∀ row' ∈ insertedRows (sys.workers i).session.pending, row.id ≠ row'.id :=
      fun _ hrow _ hrow' => hfacts.ne_of_committed (h.committed i) hrow hrow'
    obtain ⟨hrow, -⟩ | hrow := hmem row hrow <;>
    obtain ⟨hrow', -⟩ | hrow' := hmem row' hrow'
    · exact h.key row hrow row' hrow' hid
    · exact absurd hid (hdisjoint row hrow row' hrow')
    · exact absurd hid.symm (hdisjoint row' hrow' row hrow)
    · exact hfacts.insertedKey row hrow row' hrow' hid
  case readable =>
    rw [← hsys']
    exact readableRow_applyAll h.readable hfacts.keeps
  case workers =>
    intro k
    by_cases hk : k = i
    · subst hk
      rw [hself]
      refine ⟨false, .begun ?_ le_rfl rfl⟩
      have := hfacts.code
      rw [hcode] at this
      exact this true
    · rw [hne k hk]
      obtain ⟨saved', hfacts'⟩ := h.workers k
      refine ⟨saved', ?_⟩
      cases saved with
      | false =>
          refine hfacts'.mono hold fun row hrow ha => ?_
          obtain ⟨hrow, -⟩ | hrow := hmem row hrow
          · exact hrow
          · exact absurd ha ((hfacts.unsaved rfl).1 row hrow)
      | true =>
          refine hfacts'.replaced hold fun row hrow => ?_
          rw [← hsys'] at hrow
          exact h.notMem_deletedIds_of_commit hfacts (hcurrent rfl) hk row hrow

variable [PythonRuntime]

/-- A commit of a save of `a` leaves one tree exactly if it is current. -/
theorem formsOneTree_commit_iff (h : SaveInvariant a sys)
    (htree : FormsOneTree a sys.store)
    (hfacts : WorkerFacts a (Old sys) sys.store.conditions true
      (sys.workers i)) :
    (∀ row ∈ sys.store.conditions, row.alertId = a →
        row.id ∈ deletedIds (sys.workers i).session.pending) ↔
      FormsOneTree a
        (applyAll (sys.workers i).session.pending sys.store) := by
  obtain ⟨⟨alert, stamp, halert, hnew⟩, hwhole⟩ := hfacts.whole rfl
  have hmem : ∀ row, row ∈ rowsOf a sys.store ↔
      row ∈ sys.store.conditions ∧ row.alertId = a := by
    simp [rowsOf]
  constructor
  · intro hcurrent
    apply formsOneTree_of_rows (Uuid.drawn_injective stamp)
      (readableRow_applyAll h.readable hfacts.keeps)
    rw [rowsOf_commit, hnew, List.filter_eq_nil_iff.mpr, List.nil_append,
      conditionRows, halert]
    intro row hrow
    obtain ⟨hrow, ha⟩ := (hmem row).mp hrow
    simpa using hcurrent row hrow ha
  · intro htree'
    obtain hall | hnone := hwhole
    · exact hall
    · -- the old tree survives beside the new one
      have hrows : rowsOf a (applyAll (sys.workers i).session.pending
          sys.store) = rowsOf a sys.store ++ conditionRows alert stamp := by
        rw [rowsOf_commit, hnew, List.filter_eq_self.mpr]
        intro row hrow
        obtain ⟨hrow, ha⟩ := (hmem row).mp hrow
        simpa using hnone row hrow ha
      have hroots := htree'.oneRoot
      rw [hrows, List.filter_append, List.length_append, htree.oneRoot,
        conditionRows, roots_buildRows] at hroots
      omega

theorem step (oracle : Oracle C R) (i : Nat) (h : SaveInvariant a sys)
    (htree : FormsOneTree a sys.store) :
    (SaveIsCurrent a sys i ↔ FormsOneTree a (sys.step oracle i).store) ∧
      (SaveIsCurrent a sys i → SaveInvariant a (sys.step oracle i)) := by
  have hworkers : ∀ k, k ≠ i →
      (sys.step oracle i).workers k = sys.workers k :=
    fun k hk => Sys.workers_step_of_ne oracle sys hk
  have htxn : ((sys.step oracle i).workers i).session.txn = i := by
    rw [Sys.txn_step, h.txn]
  obtain ⟨saved, hfacts⟩ := h.workers i
  have hsaving := hfacts.code
  unfold SaveIsCurrent
  generalize hstep : sys.step oracle i = sys' at hworkers htxn ⊢
  cases Sys.stepped hstep with
  | returned value hcode =>
      rw [hcode]
      exact ⟨iff_of_true trivial htree, fun _ => h⟩
  | raised error hcode =>
      rw [hcode]
      exact ⟨iff_of_true trivial htree, fun _ => h⟩
  | stmt writes next hcode =>
      rw [hcode] at hsaving ⊢
      refine ⟨iff_of_true trivial htree, fun _ =>
        h.step_of_store_eq hworkers htxn rfl (by simp) ?_⟩
      rw [Sys.workers_setWorker_self]
      obtain ⟨hspares, hnext⟩ | ⟨alert, rfl, honce, hnext⟩ := hsaving
      · exact ⟨saved, hfacts.spared (hspares _ _) _ (hnext _ _)⟩
      · exact ⟨_, hfacts.added (h.committed i) alert honce _ (hnext _ _)⟩
  | call request next hcode =>
      rw [hcode] at hsaving ⊢
      refine ⟨iff_of_true trivial htree, fun _ =>
        h.step_of_store_eq hworkers htxn rfl (by simp) ?_⟩
      exact ⟨saved, by
        simpa using hfacts.answered request _ _ (hsaving _)⟩
  | refused next hcode hadmits =>
      rw [hcode] at hsaving ⊢
      have hle := hfacts.since_le
      refine ⟨iff_of_true (by simp [hadmits]) htree, fun _ =>
        h.step_of_store_eq hworkers htxn rfl (by simp; omega) ?_⟩
      rw [Sys.workers_setWorker_self]
      exact ⟨false, .begun (hsaving false) le_rfl rfl⟩
  | accepted next hcode hadmits =>
      rw [hcode]
      simp only [hadmits, true_implies]
      cases saved with
      | false =>
          obtain ⟨hinserted, -⟩ := hfacts.unsaved rfl
          have hnone : ¬∃ row ∈ insertedRows (sys.workers i).session.pending,
              row.alertId = a := fun ⟨row, hrow, ha⟩ => hinserted row hrow ha
          refine ⟨iff_of_true (fun hsome => absurd hsome hnone) ?_, fun _ =>
            h.step_commit next hcode hfacts (by simp)⟩
          exact formsOneTree_congr htree
            (readableRow_applyAll h.readable hfacts.keeps)
            (rowsOf_commit_of_unsaved hfacts)
      | true =>
          obtain ⟨⟨alert, stamp, -, hnew⟩, -⟩ := hfacts.whole rfl
          have hsome : ∃ row ∈ insertedRows (sys.workers i).session.pending,
              row.alertId = a := by
            obtain ⟨row, hrow⟩ :=
              List.exists_mem_of_ne_nil _ (conditionRows_ne_nil alert stamp)
            rw [← hnew, List.mem_filter] at hrow
            exact ⟨row, hrow.1, by simpa using hrow.2⟩
          simp only [hsome, true_implies, rowsOf, List.mem_filter,
            decide_eq_true_eq, and_imp]
          exact ⟨h.formsOneTree_commit_iff htree hfacts, fun hcurrent =>
            h.step_commit next hcode hfacts fun _ => hcurrent⟩

theorem start {store : Store} {programs : Nat → Txn Store Write C R PyError α}
    (hsaving : ∀ i, Saving a false (programs i)) (hfresh : FreshRows store)
    (htree : FormsOneTree a store) :
    SaveInvariant a (Sys.start store programs : Sys Store Write C R PyError α) where
  txn _ := rfl
  old row hrow txn op call hid := absurd hid (hfresh.notDrawn row hrow txn op call)
  key row hrow row' hrow' hid := by
    rw [List.inj_on_of_nodup_map hfresh.primaryKey hrow hrow' hid]
  readable := by
    obtain ⟨alert, hget⟩ := htree.readable
    exact readableRow_of_get hget
  workers i := ⟨false, .begun (hsaving i) le_rfl rfl⟩

end SaveInvariant

/-! ## Runs -/

section Runs

variable [PythonRuntime] {a : AlertId} {store : Store}
  {programs : Nat → Txn Store Write C R PyError α}

theorem formsOneTree_run (hsaving : ∀ i, Saving a false (programs i))
    (hfresh : FreshRows store) (htree : FormsOneTree a store)
    (oracle : Oracle C R) (schedule : List Nat)
    (hcurrent : ∀ before i after, schedule = before ++ i :: after →
      SaveIsCurrent a ((Sys.start store programs).run oracle before) i) :
    SaveInvariant a ((Sys.start store programs).run oracle schedule) ∧
      FormsOneTree a ((Sys.start store programs).run oracle schedule).store := by
  induction schedule using List.reverseRecOn with
  | nil => exact ⟨.start hsaving hfresh htree, htree⟩
  | append_singleton schedule i ih =>
      obtain ⟨hinv, htree'⟩ := ih fun before k after h =>
        hcurrent before k (after ++ [i]) (by simp [h])
      have hstep := hcurrent schedule i [] rfl
      obtain ⟨hiff, hinv'⟩ := hinv.step oracle i htree'
      rw [Sys.run_concat]
      exact ⟨hinv' hstep, hiff.mp hstep⟩

theorem saveIsCurrent_run (hsaving : ∀ i, Saving a false (programs i))
    (hfresh : FreshRows store) (htree : FormsOneTree a store)
    (oracle : Oracle C R) (schedule : List Nat)
    (htrees : ∀ before after, schedule = before ++ after →
      FormsOneTree a ((Sys.start store programs).run oracle before).store) :
    SaveInvariant a ((Sys.start store programs).run oracle schedule) ∧
      ∀ before i after, schedule = before ++ i :: after →
        SaveIsCurrent a ((Sys.start store programs).run oracle before) i := by
  induction schedule using List.reverseRecOn with
  | nil => exact ⟨.start hsaving hfresh htree, by simp⟩
  | append_singleton schedule k ih =>
      obtain ⟨hinv, hcurrent⟩ := ih fun before after h =>
        htrees before (after ++ [k]) (by simp [h])
      obtain ⟨hiff, hinv'⟩ := hinv.step oracle k (htrees schedule [k] rfl)
      have hlast := htrees (schedule ++ [k]) [] (by simp)
      rw [Sys.run_concat] at hlast ⊢
      refine ⟨hinv' (hiff.mpr hlast), fun before i after h => ?_⟩
      obtain ⟨rfl, rfl, rfl⟩ | ⟨rest, rfl, hschedule⟩ :=
        append_singleton_eq_append_cons.mp h
      · exact hiff.mpr hlast
      · exact hcurrent before i rest hschedule

/--
The alert has exactly one tree in every state of a run if and only if every
commit of a save of the alert finds the rows that the save had read.
-/
theorem saves_form_one_tree_iff (hsaving : ∀ i, Saving a false (programs i))
    (hfresh : FreshRows store) (htree : FormsOneTree a store)
    (oracle : Oracle C R) (schedule : List Nat) :
    (∀ before after, schedule = before ++ after →
      FormsOneTree a ((Sys.start store programs).run oracle before).store) ↔
      ∀ before i after, schedule = before ++ i :: after →
        SaveIsCurrent a ((Sys.start store programs).run oracle before) i := by
  constructor
  · exact fun htrees =>
      (saveIsCurrent_run hsaving hfresh htree oracle schedule htrees).2
  · intro hcurrent before after hschedule
    exact (formsOneTree_run hsaving hfresh htree oracle before
      fun first i rest h => hcurrent first i (rest ++ after)
        (by simp [hschedule, h])).2

end Runs

/-! ## Two overlapping saves -/

def salesAlert : SearchAlert where
  id := .given 1
  userId := .given 0
  name := "Sales in Pontevedra"
  portalSlugs := .ofList ["idealista"]
  frequencySeconds := 3600
  conditions := ⟨.all,
    .leaf ⟨"listing_type", .eq, some (.scalar (.str "SALE")), by decide, by decide⟩,
    [.leaf ⟨"province", .eq, some (.scalar (.str "36")), by decide, by decide⟩]⟩
  createdAt := 0
  updatedAt := 0
  isActive := true
  lastRunAt := none
  named := by decide
  monitored := FrozenSet.sorted_singleton_ne_nil "idealista"
  seldom := minFrequencySeconds_le_hour

def salesStore : Store :=
  { Store.empty with
    users := [.given 0]
    portals := ["idealista"]
    alerts := [toModel salesAlert]
    conditions := buildRows (fun call => .given (2 + call)) salesAlert.id
      salesAlert.conditions.node none 0 []
    subscriptions := [⟨salesAlert.id, "idealista"⟩] }

/-- Each worker records a run of the alert, as a cycle does. -/
def salesSaves (i : Nat) : Txn Store Write Empty (fun _ => Empty) PyError Unit :=
  saveTransaction (salesAlert.markRun (i + 1))

theorem saving_salesSaves (i : Nat) : Saving salesAlert.id false (salesSaves i) :=
  saving_saveTransaction _ _

theorem freshRows_salesStore : FreshRows salesStore :=
  ⟨by decide, by
    intro row hrow txn op call
    have hgiven : ∀ row ∈ salesStore.conditions, ∃ n, row.id = .given n := by
      simp [salesStore, buildRows, buildChildren, RuleGroup.node, salesAlert]
    obtain ⟨n, hn⟩ := hgiven row hrow
    rw [hn]
    exact Uuid.noConfusion⟩

theorem formsOneTree_salesStore [PythonRuntime] :
    FormsOneTree salesAlert.id salesStore := by
  refine @formsOneTree_of_rows _ _ _ (fun call => .given (2 + call))
    salesAlert.conditions (fun m n h => ?_) ⟨⟨_, rfl, ?_⟩, ?_⟩ ?_
  · simpa using h
  · exact validRow_toModel salesAlert
  · exact ⟨_, .head _, rfl⟩
  · decide

/-- Both saves read the same rows before either commits. -/
theorem overlapping_saves_leave_two_trees :
    (∀ i, Saving salesAlert.id false (salesSaves i)) ∧
      FreshRows salesStore ∧
      @FormsOneTree .plain salesAlert.id salesStore ∧
      ¬@FormsOneTree .plain salesAlert.id
        ((Sys.start salesStore salesSaves).run (fun _ _ => Empty.elim)
          [0, 1, 0, 1]).store := by
  refine ⟨saving_salesSaves, freshRows_salesStore, @formsOneTree_salesStore .plain,
    fun h => ?_⟩
  have hroots := @FormsOneTree.oneRoot .plain _ _ h
  revert hroots
  decide

theorem saves_form_one_tree_iff_serial :
    (∀ before after, [0, 0, 1, 1] = before ++ after →
      @FormsOneTree .plain salesAlert.id
        ((Sys.start salesStore salesSaves).run (fun _ _ => Empty.elim)
          before).store) ↔
      ∀ before i after, [0, 0, 1, 1] = before ++ i :: after →
        SaveIsCurrent salesAlert.id
          ((Sys.start salesStore salesSaves).run (fun _ _ => Empty.elim)
            before) i :=
  @saves_form_one_tree_iff Empty (fun _ => Empty) Unit .plain salesAlert.id
    salesStore salesSaves saving_salesSaves freshRows_salesStore
    (@formsOneTree_salesStore .plain) (fun _ _ => Empty.elim) [0, 0, 1, 1]

end RealEstateTracker.Alerts
