import RealEstateTracker.Alerts.AtomicEdits

/-!
# Saves that the database admits

Saving an alert that is stored already never fails on a constraint: the alert is
there, the rows of the tree have new identifiers and come after their parents, and
every portal has its subscription.
-/

namespace RealEstateTracker.Alerts

open Foundation Domain Persistence AlertRepository RealEstateTracker.Cycle

/-! ## Rows of a tree -/

theorem applyAll_insertConditions (rows : List ConditionRow) (db : Store) :
    applyAll (rows.map Write.insertCondition) db =
      { db with conditions := db.conditions ++ rows } := by
  induction rows generalizing db with
  | nil => simp
  | cons row rows ih =>
      rw [List.map_cons, applyAll_cons, ih, apply_eq]
      simp [Write.apply]

/-- The alert and the parent of the rows are stored, and no identifier of theirs is. -/
structure Receives (uuid4 : Nat → Uuid) (alertId : AlertId) (start : Nat)
    (parent : Option Uuid) (db : Store) : Prop where
  alert : ∃ row ∈ db.alerts, row.id = alertId
  fresh : ∀ row ∈ db.conditions, ∀ k, start ≤ k → row.id ≠ uuid4 k
  parent : ∀ id ∈ parent, ∃ row ∈ db.conditions, row.id = id

section Rows

variable {uuid4 : Nat → Uuid} {alertId : AlertId} {start : Nat} {parent : Option Uuid}
  {db : Store}

theorem Receives.inserted (h : Receives uuid4 alertId start parent db)
    (hinjective : Function.Injective uuid4) {rows : List ConditionRow} {count : Nat}
    (hrows : ∀ row ∈ rows, Within uuid4 start count row.id) :
    Receives uuid4 alertId (start + count) parent
      { db with conditions := db.conditions ++ rows } where
  alert := h.alert
  fresh := by
    refine List.forall_mem_append.mpr
      ⟨fun row hrow k hk => h.fresh row hrow k (by omega), fun row hrow k hk heq => ?_⟩
    obtain ⟨j, -, hj, hid⟩ := hrows row hrow
    have hjk := hinjective (hid.symm.trans heq)
    omega
  parent id hid := by
    obtain ⟨row, hrow, heq⟩ := h.parent id hid
    exact ⟨row, List.mem_append_left _ hrow, heq⟩

theorem admitted_headRow (h : Receives uuid4 alertId start parent db) (node : ConditionNode)
    (position : Nat) :
    (Write.insertCondition (headRow uuid4 alertId start node parent position)).admitted
      db = true := by
  obtain ⟨alert, halert, hid⟩ := h.alert
  simp only [Write.admitted, headRow, Bool.and_eq_true, Bool.not_eq_true']
  refine ⟨⟨List.any_eq_false.mpr fun row hrow heq => ?_,
    List.any_eq_true.mpr ⟨alert, halert, decide_eq_true hid⟩⟩, ?_⟩
  · exact h.fresh row hrow start le_rfl (of_decide_eq_true heq)
  cases parent with
  | none => rfl
  | some id =>
      obtain ⟨row, hrow, heq⟩ := h.parent id rfl
      exact List.any_eq_true.mpr ⟨row, hrow, decide_eq_true heq⟩

theorem admits_rows (hinjective : Function.Injective uuid4) :
    (∀ node start parent position db, Receives uuid4 alertId start parent db →
      admitsAll db ((treeRows uuid4 alertId start node parent position).map
        Write.insertCondition) = true) ∧
    ∀ nodes start parent index db, Receives uuid4 alertId start (some parent) db →
      admitsAll db ((forestRows uuid4 alertId start nodes parent index).map
        Write.insertCondition) = true := by
  apply tree_induct
  case leaf =>
    intro condition start parent position db h
    rw [treeRows_leaf, List.map_singleton, admitsAll, admitted_headRow h]
    rfl
  case group =>
    intro operator first rest ih start parent position db h
    have hhead := admitted_headRow h (.group operator first rest) position
    -- the head of the group is the parent of what follows
    have hhere : ∀ row ∈ [headRow uuid4 alertId start (.group operator first rest) parent
        position], Within uuid4 start 1 row.id := by
      intro row hrow
      rw [List.mem_singleton.mp hrow]
      exact ⟨start, le_rfl, by omega, rfl⟩
    have hnext : Receives uuid4 alertId (start + 1) (some (uuid4 start))
        { db with conditions := db.conditions ++
          [headRow uuid4 alertId start (.group operator first rest) parent position] } :=
      { h.inserted hinjective hhere with
        parent := fun id hid =>
          ⟨_, List.mem_append_right _ (List.mem_singleton_self _), Option.some.inj hid⟩ }
    rw [treeRows_group, List.map_cons, admitsAll, hhead, Bool.true_and]
    exact ih _ _ _ _ hnext
  case nil =>
    intro start parent index db _
    rfl
  case cons =>
    intro child rest hchild hrest start parent index db h
    rw [forestRows, List.map_append, admitsAll_append, hchild _ _ _ _ h, Bool.true_and,
      applyAll_insertConditions]
    refine hrest _ _ _ _ (h.inserted hinjective fun row hrow => ?_)
    exact (mem_rows.1 _ _ _ _ row hrow).2.1

end Rows

/-! ## Portals -/

theorem admits_portals {known slugs : List String} (hnodup : slugs.Nodup) {db : Store}
    (h : ∀ slug ∈ slugs, slug ∈ db.portals → slug ∈ known) :
    admitsAll db (slugs.flatMap fun slug =>
      if known.contains slug then [] else [.insertPortal slug]) = true := by
  induction slugs generalizing db with
  | nil => rfl
  | cons slug slugs ih =>
      obtain ⟨hslug, hnodup⟩ := List.nodup_cons.mp hnodup
      obtain ⟨hfirst, hrest⟩ := List.forall_mem_cons.mp h
      rw [List.flatMap_cons]
      by_cases hknown : slug ∈ known
      · rw [if_pos (List.contains_iff_mem.mpr hknown), List.nil_append]
        exact ih hnodup hrest
      · have hnew : slug ∉ db.portals := fun hmem => hknown (hfirst hmem)
        have hadmitted : (Write.insertPortal slug).admitted db = true := by
          simpa [Write.admitted] using hnew
        rw [if_neg fun hmem => hknown (List.contains_iff_mem.mp hmem), List.singleton_append,
          admitsAll, hadmitted, Bool.true_and]
        refine ih hnodup fun other hother hmem => ?_
        obtain hmem | hmem := List.mem_append.mp hmem
        · exact hrest other hother hmem
        · exact absurd (List.mem_singleton.mp hmem ▸ hother) hslug

theorem subscriptionWrites_of_stored {alert : SearchAlert} {store : Store}
    (h : AlertRepository.portalSlugs alert.id store = alert.portalSlugs) :
    subscriptionWrites alert store = alert.portalSlugs.sorted.flatMap fun slug =>
      if store.portals.contains slug then [] else [.insertPortal slug] := by
  refine List.flatMap_congr fun slug hslug => ?_
  rw [← h, AlertRepository.portalSlugs, FrozenSet.mem_ofList] at hslug
  obtain ⟨stored, hstored, rfl⟩ := List.mem_map.mp hslug
  obtain ⟨hstored, hid⟩ := List.mem_filter.mp hstored
  have hsubscribed : ⟨alert.id, stored.portalSlug⟩ ∈ store.subscriptions :=
    of_decide_eq_true hid ▸ hstored
  rw [if_pos (List.contains_iff_mem.mpr hsubscribed), List.append_nil]

/-! ## The whole save -/

section Saves

variable {store : Store} {alert : SearchAlert}

theorem portals_mergeWrites (stamp : Stamp) :
    (applyAll (mergeWrites alert stamp store) store).portals = store.portals := by
  refine applyAll_frame (W := Write) Store.portals (fun write hwrite db => ?_) store
  rw [mergeWrites, List.mem_append, List.mem_append, List.mem_singleton,
    List.mem_singleton, List.mem_map] at hwrite
  obtain (rfl | ⟨row, -, rfl⟩) | rfl := hwrite
  · unfold rowWrite
    split <;> rfl
  · rfl
  · rfl

theorem admits_mergeWrites (hfresh : FreshRows store) {loaded : AlertRow}
    (hfind : find alert.id store = some loaded) (stamp : Stamp) :
    admitsAll store (mergeWrites alert stamp store) = true := by
  have hrow : rowWrite alert store = .updateAlert loaded (toModel alert) := by
    rw [rowWrite, hfind]
  have hloaded : loaded.id = alert.id := by simpa using List.find?_some hfind
  have hseldom : (Write.updateAlert loaded (toModel alert)).admitted store = true :=
    decide_eq_true alert.seldom
  have hreceives : Receives (Uuid.drawn stamp) alert.id 0 none
      ((Write.updateAlert loaded (toModel alert)).apply store) := by
    refine ⟨⟨_, List.mem_map_of_mem (List.mem_of_find?_eq_some hfind), ?_⟩,
      fun row hrow k _ => hfresh.notDrawn row hrow _ _ _, fun id hid => by cases hid⟩
    split <;> exact hloaded
  have hrows := (admits_rows (Uuid.drawn_injective stamp)).1 alert.conditions.node 0 none 0 _
    hreceives
  rw [mergeWrites, hrow, conditionRows, buildRows_eq.1, List.nil_append, List.append_assoc,
    List.singleton_append, admitsAll, hseldom, Bool.true_and, admitsAll_append]
  exact Bool.and_eq_true_iff.mpr ⟨hrows, rfl⟩

theorem admits_addWrites (hfresh : FreshRows store) {loaded : AlertRow}
    (hfind : find alert.id store = some loaded)
    (hslugs : AlertRepository.portalSlugs alert.id store = alert.portalSlugs)
    (stamp : Stamp) : Database.admits store (addWrites alert stamp store) = true := by
  rw [admits_eq, addWrites, subscriptionWrites_of_stored hslugs, admitsAll_append,
    admits_mergeWrites hfresh hfind, Bool.true_and]
  refine admits_portals (alert.portalSlugs.increasing.imp fun hlt => ne_of_lt hlt)
    fun slug _ hslug => ?_
  rwa [portals_mergeWrites] at hslug

end Saves

/-! ## Edits -/

/-- An edit that raises nothing on the alert that it reads is saved. -/
theorem eval_run_of_edit [PythonRuntime] {update : UpdateAlert} {request : UpdateRequest}
    (answers : Nat → (request : CycleCall) → CycleAnswer request) (i : Nat) {store : Store}
    (hfresh : FreshRows store) {alert edited : SearchAlert}
    (hget : AlertRepository.get request.alertId store = .ok (some alert))
    (hedit : update.edit request (answers 0 .clock) alert = .ok edited) :
    let ended := (update.run request).eval answers (.start i) store
    ended.outcome = .ok edited ∧ SavedEdit edited store ended.store := by
  intro ended
  obtain ⟨hid, hslugs, hsaved⟩ := savedEdit_saved hfresh hget hedit ⟨i, 2⟩
  have hfind : ∃ loaded, find edited.id store = some loaded := by
    rw [hid]
    unfold AlertRepository.get at hget
    split at hget
    · cases hget
    · next loaded hfind => exact ⟨loaded, hfind⟩
  obtain ⟨loaded, hfind⟩ := hfind
  have hadmits := admits_addWrites hfresh hfind hslugs ⟨i, 2⟩
  obtain ⟨houtcome, hstore⟩ := eval_saveEdit_of_admits answers i store hedit hadmits
  have hended : ended = (saveEdit update request (answers 0 .clock) alert).eval answers
      (readSession answers i) store := by
    have hrun := eval_run answers i store update request
    rw [hget] at hrun
    exact hrun
  rw [hended, hstore]
  exact ⟨houtcome, hsaved⟩

end RealEstateTracker.Alerts
