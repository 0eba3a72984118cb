import RealEstateTracker.Alerts.ConcurrentSaves
import RealEstateTracker.Foundation.Outcome

/-!
# Saved alerts read back

`add` replaces the row and the tree of an alert, but it only ever adds
subscriptions: a portal that the alert no longer monitors stays.
-/

namespace RealEstateTracker.Alerts

open Foundation Domain Persistence AlertRepository

variable {alert : SearchAlert} {stamp : Stamp} {db : Store}

/-- The store after `add`, as the session sees it and as it commits it. -/
def saved (alert : SearchAlert) (stamp : Stamp) (db : Store) : Store :=
  applyAll (addWrites alert stamp db) db

/-! ## Subscriptions -/

def insertedSubscriptions (writes : List Write) : List SubscriptionRow :=
  writes.filterMap fun
    | .insertSubscription row => some row
    | _ => none

theorem subscriptions_applyAll (writes : List Write) (db : Store) :
    (applyAll writes db).subscriptions =
      db.subscriptions ++ insertedSubscriptions writes := by
  induction writes generalizing db with
  | nil => simp [insertedSubscriptions]
  | cons write writes ih =>
      rw [applyAll_cons, ih]
      cases write <;> simp [insertedSubscriptions, apply_eq, Write.apply]

theorem insertedSubscriptions_append (first second : List Write) :
    insertedSubscriptions (first ++ second) =
      insertedSubscriptions first ++ insertedSubscriptions second :=
  List.filterMap_append

theorem insertedSubscriptions_mergeWrites (alert : SearchAlert) (stamp : Stamp)
    (db : Store) : insertedSubscriptions (mergeWrites alert stamp db) = [] := by
  rw [mergeWrites, insertedSubscriptions_append, insertedSubscriptions_append]
  have hrow : insertedSubscriptions [rowWrite alert db] = [] := by
    unfold rowWrite
    split <;> rfl
  have htree : insertedSubscriptions
      ((conditionRows alert stamp).map Write.insertCondition) = [] := by
    refine List.filterMap_eq_nil_iff.mpr fun write hwrite => ?_
    obtain ⟨row, -, rfl⟩ := List.mem_map.mp hwrite
    rfl
  rw [hrow, htree]
  rfl

theorem mem_insertedSubscriptions_addWrites {row : SubscriptionRow} :
    row ∈ insertedSubscriptions (addWrites alert stamp db) ↔
      ∃ slug ∈ alert.portalSlugs.sorted, row = ⟨alert.id, slug⟩ ∧
        row ∉ db.subscriptions := by
  have hnew : ∀ slug, row ∈ insertedSubscriptions
      ((if db.portals.contains slug then [] else [.insertPortal slug]) ++
        if db.subscriptions.contains ⟨alert.id, slug⟩ then []
        else [.insertSubscription ⟨alert.id, slug⟩]) ↔
      row = ⟨alert.id, slug⟩ ∧ row ∉ db.subscriptions := by
    intro slug
    rw [insertedSubscriptions_append]
    have hportal : insertedSubscriptions
        (if db.portals.contains slug then [] else [.insertPortal slug]) = [] := by
      split <;> rfl
    rw [hportal, List.nil_append]
    split
    · next h =>
      simp only [insertedSubscriptions, List.filterMap_nil, List.not_mem_nil,
        false_iff, not_and, not_not]
      rintro rfl
      exact List.contains_iff_mem.mp h
    · next h =>
      simp only [insertedSubscriptions, List.filterMap_cons, List.filterMap_nil,
        List.mem_singleton, iff_self_and]
      rintro rfl hmem
      exact h (List.contains_iff_mem.mpr hmem)
  rw [addWrites, insertedSubscriptions_append, insertedSubscriptions_mergeWrites,
    List.nil_append]
  simp only [← hnew]
  simp only [subscriptionWrites, insertedSubscriptions, List.filterMap_flatMap,
    List.mem_flatMap]

theorem mem_subscriptions_saved {row : SubscriptionRow} :
    row ∈ (saved alert stamp db).subscriptions ↔
      row ∈ db.subscriptions ∨
        row.alertId = alert.id ∧ row.portalSlug ∈ alert.portalSlugs.sorted := by
  rw [saved, subscriptions_applyAll, List.mem_append,
    mem_insertedSubscriptions_addWrites]
  constructor
  · rintro (h | ⟨slug, hslug, rfl, -⟩)
    · exact .inl h
    · exact .inr ⟨rfl, hslug⟩
  · rintro (h | ⟨hid, hslug⟩)
    · exact .inl h
    · by_cases hmem : row ∈ db.subscriptions
      · exact .inl hmem
      · exact .inr ⟨row.portalSlug, hslug, by rw [← hid], hmem⟩

theorem portalSlugs_saved_self :
    portalSlugs alert.id (saved alert stamp db) = alert.portalSlugs ↔
      ∀ row ∈ db.subscriptions, row.alertId = alert.id →
        row.portalSlug ∈ alert.portalSlugs.sorted := by
  have hmem : ∀ slug, slug ∈ (portalSlugs alert.id (saved alert stamp db)).sorted ↔
      slug ∈ alert.portalSlugs.sorted ∨
        ⟨alert.id, slug⟩ ∈ db.subscriptions := by
    intro slug
    simp only [portalSlugs, FrozenSet.mem_ofList, List.mem_map, List.mem_filter,
      mem_subscriptions_saved, decide_eq_true_eq]
    constructor
    · rintro ⟨row, ⟨h | ⟨-, h⟩, hid⟩, rfl⟩
      · exact .inr (hid ▸ h)
      · exact .inl h
    · rintro (h | h)
      · exact ⟨⟨alert.id, slug⟩, ⟨.inr ⟨rfl, h⟩, rfl⟩, rfl⟩
      · exact ⟨⟨alert.id, slug⟩, ⟨.inl h, rfl⟩, rfl⟩
  constructor
  · intro heq row hrow hid
    rw [← heq]
    exact (hmem row.portalSlug).mpr (.inr (hid ▸ hrow))
  · intro h
    refine FrozenSet.ext fun slug => (hmem slug).trans ?_
    exact or_iff_left_of_imp fun hrow => h _ hrow rfl

theorem portalSlugs_saved_of_ne {id : AlertId} (hid : id ≠ alert.id) :
    portalSlugs id (saved alert stamp db) = portalSlugs id db := by
  refine FrozenSet.ext fun slug => ?_
  simp only [portalSlugs, FrozenSet.mem_ofList, List.mem_map, List.mem_filter,
    mem_subscriptions_saved, decide_eq_true_eq]
  constructor
  · rintro ⟨row, ⟨h | ⟨h, -⟩, heq⟩, rfl⟩
    · exact ⟨row, ⟨h, heq⟩, rfl⟩
    · exact absurd (heq.symm.trans h) hid
  · rintro ⟨row, ⟨h, heq⟩, rfl⟩
    exact ⟨row, ⟨.inl h, heq⟩, rfl⟩

/-! ## Rows and trees -/

def Touches (a : AlertId) : Write → Bool
  | .insertAlert row => row.id = a
  | .updateAlert _ model => model.id = a
  | _ => false

section Touches

variable {a : AlertId} {write : Write} {writes : List Write}

theorem find_apply_of_untouched (h : Touches a write = false) :
    find a (write.apply db) = find a db := by
  cases write with
  | insertAlert row =>
      have hid : row.id ≠ a := by simpa [Touches] using h
      simp [find, Write.apply, List.find?_append, hid]
  | updateAlert loaded model =>
      have hid : model.id ≠ a := by simpa [Touches] using h
      cases hfind : find a db with
      | none =>
          rw [find, List.find?_eq_none] at hfind ⊢
          intro updated hupdated
          obtain ⟨row, hrow, rfl⟩ := List.mem_map.mp hupdated
          have hrowId := hfind row hrow
          split <;> exact hrowId
      | some row =>
          have hrow : row.id = a := by simpa using List.find?_some hfind
          have hupdated : ((Write.updateAlert loaded model).apply
              db).alerts.find? (·.id = a) = _ := find_updateWhere (fun _ => rfl) hfind
          rwa [if_neg (by simpa [hrow] using hid.symm)] at hupdated
  | _ => rfl

theorem find_applyAll_of_untouched (h : writes.filter (Touches a) = []) :
    find a (applyAll writes db) = find a db := by
  induction writes generalizing db with
  | nil => rfl
  | cons write writes ih =>
      obtain ⟨hwrite, hwrites⟩ := List.forall_mem_cons.mp (List.filter_eq_nil_iff.mp h)
      rw [applyAll_cons, ih (List.filter_eq_nil_iff.mpr hwrites), apply_eq,
        find_apply_of_untouched (by simpa using hwrite)]

theorem find_applyAll_of_touched (h : writes.filter (Touches a) = [write]) :
    ∃ db', find a db' = find a db ∧
      find a (applyAll writes db) = find a (write.apply db') := by
  obtain ⟨before, after, rfl, hbefore, -, hafter⟩ := List.filter_eq_cons_iff.mp h
  have huntouched : before.filter (Touches a) = [] :=
    List.filter_eq_nil_iff.mpr hbefore
  refine ⟨applyAll before db, find_applyAll_of_untouched huntouched, ?_⟩
  rw [applyAll_append, applyAll_cons, find_applyAll_of_untouched hafter, apply_eq]

theorem find_applyAll_of_updated {loaded model : AlertRow} (hid : model.id = a)
    (h : writes.filter (Touches a) = [.updateAlert loaded model])
    (hfind : find a db = some loaded) : find a (applyAll writes db) = some model := by
  obtain ⟨db', hsame, hstored⟩ := find_applyAll_of_touched h
  have hloaded : loaded.id = a := by simpa using List.find?_some hfind
  have hupdated : find a ((Write.updateAlert loaded model).apply db') = _ :=
    find_updateWhere (fun _ => rfl) (hsame.trans hfind)
  rw [if_pos (by simp [hloaded, hid])] at hupdated
  rw [hstored, hupdated]
  simp [AlertRow.update, hloaded, ← hid]

theorem touched_addWrites (a : AlertId) :
    (addWrites alert stamp db).filter (Touches a) =
      if alert.id = a then [rowWrite alert db] else [] := by
  have hothers : ((conditionRows alert stamp).map Write.insertCondition ++
      ([Write.deleteConditions ((rowsOf alert.id db).map (·.id))] ++
        subscriptionWrites alert db)).filter (Touches a) = [] := by
    refine List.filter_eq_nil_iff.mpr fun write hwrite => ?_
    simp only [List.mem_append, List.mem_map, List.mem_singleton,
      subscriptionWrites, List.mem_flatMap] at hwrite
    rcases hwrite with ⟨row, -, rfl⟩ | rfl | ⟨slug, -, hwrite | hwrite⟩
    · simp [Touches]
    · simp [Touches]
    · split at hwrite <;> simp_all [Touches]
    · split at hwrite <;> simp_all [Touches]
  have hrow : Touches a (rowWrite alert db) = decide (alert.id = a) := by
    unfold rowWrite
    split <;> rfl
  rw [addWrites, mergeWrites, List.append_assoc, List.append_assoc,
    List.filter_append, hothers, List.append_nil]
  by_cases hid : alert.id = a <;> simp [hrow, hid]

end Touches

theorem find_saved_self :
    find alert.id (saved alert stamp db) = some (toModel alert) := by
  have htouched : (addWrites alert stamp db).filter (Touches alert.id) = _ :=
    (touched_addWrites _).trans (if_pos rfl)
  cases hfind : find alert.id db with
  | none =>
      rw [rowWrite, hfind] at htouched
      obtain ⟨db', hsame, hstored⟩ := find_applyAll_of_touched htouched
      rw [hfind, find] at hsame
      rw [saved, hstored]
      simp [find, Write.apply, List.find?_append, hsame, toModel]
  | some loaded =>
      rw [rowWrite, hfind] at htouched
      exact find_applyAll_of_updated rfl htouched hfind

theorem find_saved_of_ne {id : AlertId} (hid : id ≠ alert.id) :
    find id (saved alert stamp db) = find id db :=
  find_applyAll_of_untouched ((touched_addWrites _).trans (if_neg (Ne.symm hid)))

theorem conditions_saved (hfresh : FreshRows db) :
    (saved alert stamp db).conditions =
      (db.conditions.filter fun row =>
        !((rowsOf alert.id db).map (·.id)).contains row.id) ++
          conditionRows alert stamp := by
  rw [saved, conditions_applyAll, deletedIds_addWrites, insertedRows_addWrites]
  congr 1
  refine List.filter_eq_self.mpr fun row hrow => ?_
  obtain ⟨-, call, hid⟩ := mem_conditionRows hrow
  have hnot : row.id ∉ (rowsOf alert.id db).map (·.id) := by
    rintro hmem
    obtain ⟨old, hold, heq⟩ := List.mem_map.mp hmem
    exact hfresh.notDrawn old (List.mem_filter.mp hold).1 _ _ _ (heq.trans hid)
  simpa using hnot

theorem rowsOf_saved_self (hfresh : FreshRows db) :
    rowsOf alert.id (saved alert stamp db) = conditionRows alert stamp := by
  rw [rowsOf, conditions_saved hfresh, List.filter_append]
  have hold : (db.conditions.filter fun row =>
      !((rowsOf alert.id db).map (·.id)).contains row.id).filter
        (·.alertId = alert.id) = [] := by
    refine List.filter_eq_nil_iff.mpr fun row hrow hid => ?_
    obtain ⟨hrow, hkept⟩ := List.mem_filter.mp hrow
    have hmem : row.id ∈ (rowsOf alert.id db).map (·.id) :=
      List.mem_map_of_mem (List.mem_filter.mpr ⟨hrow, hid⟩)
    simp [hmem] at hkept
  rw [hold, List.nil_append]
  exact List.filter_eq_self.mpr fun row hrow => by
    simpa using (mem_conditionRows hrow).1

theorem rowsOf_saved_of_ne (hfresh : FreshRows db) {id : AlertId}
    (hid : id ≠ alert.id) :
    rowsOf id (saved alert stamp db) = rowsOf id db := by
  rw [rowsOf, conditions_saved hfresh, List.filter_append, List.filter_filter]
  have hnew : (conditionRows alert stamp).filter (·.alertId = id) = [] := by
    refine List.filter_eq_nil_iff.mpr fun row hrow => ?_
    simpa [(mem_conditionRows hrow).1] using Ne.symm hid
  rw [hnew, List.append_nil]
  refine List.filter_congr fun row hrow => ?_
  by_cases hrowId : row.alertId = id
  · -- the row of another alert is not among those that the save deletes
    have hkept : row.id ∉ (rowsOf alert.id db).map (·.id) := by
      intro hmem
      obtain ⟨other, hother, heq⟩ := List.mem_map.mp hmem
      obtain ⟨hother, hotherId⟩ := List.mem_filter.mp hother
      obtain rfl := List.inj_on_of_nodup_map hfresh.primaryKey hother hrow heq
      exact hid (hrowId.symm.trans (by simpa using hotherId))
    simpa [hrowId] using hkept
  · simp [hrowId]

/-! ## Reading back -/

section Reads

variable [PythonRuntime]

/-- The saved alert is read back as it is, and every other alert as before. -/
structure ReadsBack (alert : SearchAlert) (stamp : Stamp) (db : Store) :
    Prop where
  self : get alert.id (saved alert stamp db) = .ok (some alert)
  others : ∀ id, id ≠ alert.id → get id (saved alert stamp db) = get id db

theorem get_of_parts (hfind : find alert.id db = some (toModel alert))
    (hrows : rowsOf alert.id db = conditionRows alert stamp)
    (hslugs : portalSlugs alert.id db = alert.portalSlugs) :
    get alert.id db = .ok (some alert) := by
  have htree : rebuildTree (orderByPosition (rowsOf alert.id db)) =
      .ok alert.conditions := by
    rw [hrows]
    exact rebuildTree_perm (Uuid.drawn_injective stamp).injOn le_rfl
      (List.perm_insertionSort _ _)
  simp only [AlertRepository.get, hfind, toDomain, toModel, htree, bind, Except.bind,
    hslugs, SearchAlert.new_self]
  rfl

theorem get_saved_self (hfresh : FreshRows db)
    (hslugs : portalSlugs alert.id (saved alert stamp db) = alert.portalSlugs) :
    get alert.id (saved alert stamp db) = .ok (some alert) :=
  get_of_parts find_saved_self (rowsOf_saved_self hfresh) hslugs

theorem get_congr {id : AlertId} {db' : Store} (hfind : find id db' = find id db)
    (hrows : rowsOf id db' = rowsOf id db)
    (hslugs : portalSlugs id db' = portalSlugs id db) : get id db' = get id db := by
  rw [AlertRepository.get, hfind, AlertRepository.get]
  split
  · rfl
  · next row hrow =>
    have hid : row.id = id := by simpa using List.find?_some hrow
    rw [toDomain, toDomain, hid, hrows, hslugs]

theorem toDomain_eq_ok {row : AlertRow} {a : SearchAlert}
    (h : toDomain db row = .ok a) :
    a.id = row.id ∧ a.portalSlugs = portalSlugs row.id db := by
  obtain ⟨group, -, hnew⟩ := bind_eq_ok.mp h
  unfold SearchAlert.new at hnew
  split at hnew
  · split at hnew
    · split at hnew
      · obtain rfl := Except.ok.inj hnew
        exact ⟨rfl, rfl⟩
      · cases hnew
    · cases hnew
  · cases hnew

theorem get_eq_ok {id : AlertId} {a : SearchAlert} (h : get id db = .ok (some a)) :
    a.id = id ∧ portalSlugs id db = a.portalSlugs := by
  unfold AlertRepository.get at h
  split at h
  · cases h
  · next row hfind =>
    obtain rfl : row.id = id := by simpa using List.find?_some hfind
    cases hdomain : toDomain db row with
    | error error => simp [hdomain, Except.map] at h
    | ok alert =>
        rw [hdomain] at h
        obtain rfl := Option.some.inj (Except.ok.inj h)
        obtain ⟨hid, hslugs⟩ := toDomain_eq_ok hdomain
        exact ⟨hid, hslugs.symm⟩

/--
An alert reads back as saved, and no other alert changes, exactly when no
subscription of the alert is stored for a portal that it does not monitor.
-/
theorem saved_alert_reads_back_iff (hfresh : FreshRows db) (alert : SearchAlert)
    (stamp : Stamp) :
    ReadsBack alert stamp db ↔
      ∀ row ∈ db.subscriptions, row.alertId = alert.id →
        row.portalSlug ∈ alert.portalSlugs.sorted := by
  rw [← portalSlugs_saved_self]
  constructor
  · exact fun h => (get_eq_ok h.self).2
  · intro hslugs
    exact ⟨get_saved_self hfresh hslugs, fun id hid => get_congr
      (find_saved_of_ne hid) (rowsOf_saved_of_ne hfresh hid)
      (portalSlugs_saved_of_ne hid)⟩

end Reads

/-! ## A portal that is no longer monitored -/

def movedAlert : SearchAlert :=
  { salesAlert with
    portalSlugs := .ofList ["fotocasa"], monitored := by decide, updatedAt := 1 }

/-- `set_portals` drops the portal, and the stored subscription keeps it. -/
theorem dropped_portal_stays :
    @AlertRepository.get .plain salesAlert.id salesStore = .ok (some salesAlert) ∧
      salesAlert.setPortals (.ofList ["fotocasa"]) 1 = .ok movedAlert ∧
      ¬@ReadsBack .plain movedAlert ⟨0, 0⟩ salesStore := by
  refine ⟨rfl, rfl, fun h => ?_⟩
  have hslugs := portalSlugs_saved_self.mp
    (@get_eq_ok _ .plain _ _ (@ReadsBack.self .plain _ _ _ h)).2
  have hmem := hslugs ⟨salesAlert.id, "idealista"⟩ (.head _) rfl
  revert hmem
  decide

theorem saved_alert_reads_back_iff_salesAlert :
    @ReadsBack .plain salesAlert ⟨0, 0⟩ salesStore ↔
      ∀ row ∈ salesStore.subscriptions, row.alertId = salesAlert.id →
        row.portalSlug ∈ salesAlert.portalSlugs.sorted :=
  @saved_alert_reads_back_iff _ .plain freshRows_salesStore salesAlert ⟨0, 0⟩

end RealEstateTracker.Alerts
