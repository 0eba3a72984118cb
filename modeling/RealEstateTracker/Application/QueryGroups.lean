import RealEstateTracker.Application.PushedParams

/-!
# Query groups

The planner groups the due alerts by portal and signature.  A group holds every
alert with its key, and the query of the first.  Two alerts have the same
signature when they push the same parameters, or when a value of one spells out
parameters of the other.
-/

namespace RealEstateTracker.Application

open Foundation Domain QueryText

section Runtime

variable [runtime : PythonRuntime]
  {capabilities : Dict String PortalCapabilities}

/-! ## Signatures -/

def alertSignature (capabilities : Dict String PortalCapabilities)
    (portalSlug : String) (alert : SearchAlert) : String :=
  signature portalSlug (pushableParams capabilities alert portalSlug)

theorem pushedEntries_eq_iff {portalSlug : String} {a b : SearchAlert} :
    pushedEntries capabilities portalSlug a =
        pushedEntries capabilities portalSlug b ↔
      ∀ key, pushed capabilities portalSlug a key =
        pushed capabilities portalSlug b key := by
  have hinjective : Function.Injective fun item : String × String =>
      (item.1.toList, item.2.toList) := fun x y h => by
    obtain ⟨hkey, hvalue⟩ := Prod.mk.inj h
    exact Prod.ext (String.toList_inj.mp hkey) (String.toList_inj.mp hvalue)
  have hmem : ∀ (alert : SearchAlert) key value,
      (key, value) ∈ pushedItems capabilities portalSlug alert ↔
        pushed capabilities portalSlug alert key = some value := by
    intro alert key value
    rw [← sorted_pushableParams, (List.perm_insertionSort _ _).mem_iff,
      ← Dict.get_eq_some_iff, get_pushableParams]
  rw [pushedEntries, pushedEntries, hinjective.list_map.eq_iff]
  constructor
  · intro h key
    refine Option.ext fun value => ?_
    rw [← hmem, ← hmem, h]
  · intro h
    simp only [pushedItems, h]

theorem alertSignature_eq_iff (hsha : Function.Injective runtime.sha256)
    {portalSlug : String} {a b : SearchAlert} :
    alertSignature capabilities portalSlug a =
        alertSignature capabilities portalSlug b ↔
      pushedEntries capabilities portalSlug a =
          pushedEntries capabilities portalSlug b ∨
        Swallows (pushedEntries capabilities portalSlug a)
          (pushedEntries capabilities portalSlug b) ∨
        Swallows (pushedEntries capabilities portalSlug b)
          (pushedEntries capabilities portalSlug a) := by
  rw [← joined_eq_iff (fun _ => key_of_mem_pushedEntries)
    (fun _ => key_of_mem_pushedEntries)]
  simp only [alertSignature, signature, hsha.eq_iff,
    canonicalParams_pushableParams]
  rw [← String.toList_inj]
  simp

/-! ## The planner's loop -/

/-- The alerts with their portals, in the order of the loop. -/
def visits (dueAlerts : List SearchAlert) : List (SearchAlert × String) :=
  dueAlerts.flatMap fun alert => alert.portalSlugs.sorted.map fun portalSlug =>
    (alert, portalSlug)

theorem foldl_addAlert (dueAlerts : List SearchAlert) (groups : Groups) :
    dueAlerts.foldl (addAlert capabilities) groups =
      (visits dueAlerts).foldl
        (fun groups visit => addToGroup capabilities groups visit.1 visit.2)
        groups := by
  simp only [visits, List.foldl_flatMap, List.foldl_map]
  rfl

def visitors (capabilities : Dict String PortalCapabilities)
    (visited : List (SearchAlert × String)) (key : String × String) :
    List SearchAlert :=
  (visited.filter fun visit =>
    (visit.2, alertSignature capabilities visit.2 visit.1) = key).map (·.1)

/-- The group of a key: its visitors, and the parameters of the first. -/
def groupOf (capabilities : Dict String PortalCapabilities)
    (visited : List (SearchAlert × String)) (key : String × String) :
    Option (Params × List SearchAlert) :=
  match visitors capabilities visited key with
  | [] => none
  | first :: rest => some (pushableParams capabilities first key.1, first :: rest)

theorem get_addToGroup (groups : Groups) (alert : SearchAlert)
    (portalSlug : String) (key : String × String) :
    (addToGroup capabilities groups alert portalSlug).get key =
      if (portalSlug, alertSignature capabilities portalSlug alert) = key then
        some (match groups.get key with
          | none => (pushableParams capabilities alert portalSlug, [alert])
          | some (params, alerts) => (params, alerts ++ [alert]))
      else groups.get key := by
  unfold addToGroup alertSignature
  dsimp only
  split
  · next hnone =>
    rw [Dict.get_set]
    split
    · next hkey => rw [← hkey, hnone]
    · rfl
  · next params alerts hsome =>
    rw [Dict.get_set]
    split
    · next hkey => rw [← hkey, hsome]
    · rfl

theorem groupOf_concat (visited : List (SearchAlert × String))
    (alert : SearchAlert) (portalSlug : String) (key : String × String) :
    groupOf capabilities (visited ++ [(alert, portalSlug)]) key =
      if (portalSlug, alertSignature capabilities portalSlug alert) = key then
        some (match groupOf capabilities visited key with
          | none => (pushableParams capabilities alert portalSlug, [alert])
          | some (params, alerts) => (params, alerts ++ [alert]))
      else groupOf capabilities visited key := by
  have hvisitors : visitors capabilities (visited ++ [(alert, portalSlug)]) key =
      visitors capabilities visited key ++
        if (portalSlug, alertSignature capabilities portalSlug alert) = key then
          [alert] else [] := by
    rw [visitors, List.filter_append, List.map_append]
    by_cases h : (portalSlug, alertSignature capabilities portalSlug alert) = key <;>
      simp [visitors, h]
  unfold groupOf
  rw [hvisitors]
  split
  · next hnil =>
    cases hvisited : visitors capabilities visited key with
    | nil => simp_all
    | cons => simp_all
  · next first rest hcons =>
    cases hvisited : visitors capabilities visited key with
    | nil =>
        rw [hvisited] at hcons
        split
        · next hkey =>
          subst hkey
          simp_all
        · next hkey => simp [hkey] at hcons
    | cons kept others =>
        rw [hvisited] at hcons
        split
        · next hkey => simp_all
        · next hkey => simp_all

theorem get_foldl_addAlert (dueAlerts : List SearchAlert) (key : String × String) :
    (dueAlerts.foldl (addAlert capabilities) .empty).get key =
      groupOf capabilities (visits dueAlerts) key := by
  rw [foldl_addAlert]
  induction visits dueAlerts using List.reverseRecOn generalizing key with
  | nil => rfl
  | append_singleton visited visit ih =>
      rw [List.foldl_append, List.foldl_cons, List.foldl_nil, get_addToGroup, ih,
        groupOf_concat]

theorem visitors_visits (dueAlerts : List SearchAlert)
    (portalSlug signature : String) :
    visitors capabilities (visits dueAlerts) (portalSlug, signature) =
      dueAlerts.filter fun alert => portalSlug ∈ alert.portalSlugs.sorted ∧
        alertSignature capabilities portalSlug alert = signature := by
  induction dueAlerts with
  | nil => rfl
  | cons alert rest ih =>
      have hone : (alert.portalSlugs.sorted.map fun slug => (alert, slug)).filter
          (fun visit => (visit.2, alertSignature capabilities visit.2 visit.1) =
            (portalSlug, signature)) =
          if portalSlug ∈ alert.portalSlugs.sorted ∧
            alertSignature capabilities portalSlug alert = signature then
              [(alert, portalSlug)] else [] := by
        have hnodup : alert.portalSlugs.sorted.Nodup :=
          alert.portalSlugs.increasing.imp fun hlt => hlt.ne
        rw [List.filter_map]
        have hslug : alert.portalSlugs.sorted.filter ((fun visit =>
            decide ((visit.2, alertSignature capabilities visit.2 visit.1) =
              (portalSlug, signature))) ∘ fun slug => (alert, slug)) =
            if alertSignature capabilities portalSlug alert = signature then
              alert.portalSlugs.sorted.filter (· = portalSlug) else [] := by
          split
          · next hsignature =>
            refine List.filter_congr fun slug _ => ?_
            by_cases h : slug = portalSlug <;> simp [h, hsignature]
          · next hsignature =>
            refine List.filter_eq_nil_iff.mpr fun slug _ => ?_
            by_cases h : slug = portalSlug <;> simp [h, hsignature]
        rw [hslug]
        by_cases hmem : portalSlug ∈ alert.portalSlugs.sorted
        · by_cases hsignature :
            alertSignature capabilities portalSlug alert = signature <;>
              simp [hmem, hsignature, List.filter_eq,
                List.count_eq_one_of_mem hnodup hmem]
        · by_cases hsignature :
            alertSignature capabilities portalSlug alert = signature <;>
              simp [hmem, hsignature, List.filter_eq,
                List.count_eq_zero_of_not_mem hmem]
      simp only [visits, List.flatMap_cons, visitors, List.filter_append,
        List.map_append, hone, List.filter_cons] at ih ⊢
      rw [← ih]
      split <;> simp_all

/-! ## Plans -/

/-- What is known of a planned query: its alerts, and whose parameters it has. -/
structure Planned (capabilities : Dict String PortalCapabilities)
    (dueAlerts : List SearchAlert) (planned : PlannedQuery) : Prop where
  query : ∃ first rest, planned.alerts = first :: rest ∧ planned.query =
    ⟨planned.portalSlug, pushableParams capabilities first planned.portalSlug⟩
  alerts : planned.alerts = dueAlerts.filter fun alert =>
    planned.portalSlug ∈ alert.portalSlugs.sorted ∧
      alertSignature capabilities planned.portalSlug alert = planned.signature

theorem planned_of_mem {dueAlerts : List SearchAlert} {planned : PlannedQuery}
    (h : planned ∈ plan capabilities dueAlerts) :
    Planned capabilities dueAlerts planned := by
  obtain ⟨⟨⟨slug, signature⟩, params, alerts⟩, hentry, rfl⟩ := List.mem_map.mp h
  have hgroup := Dict.get_eq_some_iff.mpr hentry
  rw [get_foldl_addAlert, groupOf] at hgroup
  split at hgroup
  · simp at hgroup
  · next first rest hvisitors =>
    obtain ⟨rfl, rfl⟩ := Prod.mk.inj (Option.some.inj hgroup)
    exact ⟨⟨first, rest, rfl, rfl⟩, by
      rw [plannedQuery, ← visitors_visits, hvisitors]⟩

theorem Planned.mem_alerts {dueAlerts : List SearchAlert} {planned : PlannedQuery}
    (h : Planned capabilities dueAlerts planned) {alert : SearchAlert} :
    alert ∈ planned.alerts ↔ alert ∈ dueAlerts ∧
      planned.portalSlug ∈ alert.portalSlugs.sorted ∧
        alertSignature capabilities planned.portalSlug alert =
          planned.signature := by
  rw [h.alerts, List.mem_filter, decide_eq_true_eq]

theorem exists_planned {dueAlerts : List SearchAlert} {alert : SearchAlert}
    {portalSlug : String} (halert : alert ∈ dueAlerts)
    (hslug : portalSlug ∈ alert.portalSlugs.sorted) :
    ∃ planned ∈ plan capabilities dueAlerts, planned.portalSlug = portalSlug ∧
      planned.signature = alertSignature capabilities portalSlug alert := by
  have hvisitor : alert ∈ visitors capabilities (visits dueAlerts)
      (portalSlug, alertSignature capabilities portalSlug alert) := by
    rw [visitors_visits, List.mem_filter]
    simp [halert, hslug]
  have hgroup : ∃ group, (dueAlerts.foldl (addAlert capabilities) .empty).get
      (portalSlug, alertSignature capabilities portalSlug alert) = some group := by
    rw [get_foldl_addAlert, groupOf]
    cases hvisitors : visitors capabilities (visits dueAlerts)
      (portalSlug, alertSignature capabilities portalSlug alert) with
    | nil => simp [hvisitors] at hvisitor
    | cons first rest => exact ⟨_, rfl⟩
  obtain ⟨group, hget⟩ := hgroup
  exact ⟨_, List.mem_map_of_mem (Dict.get_eq_some_iff.mp hget), rfl, rfl⟩

theorem nodup_keys_plan (dueAlerts : List SearchAlert) :
    ((plan capabilities dueAlerts).map fun planned =>
      (planned.portalSlug, planned.signature)).Nodup := by
  have hnodup := (dueAlerts.foldl (addAlert capabilities) .empty).keysNodup
  rw [plan, List.map_map]
  exact hnodup

/-! ## Coverage -/

theorem Planned.eq_of_common {dueAlerts : List SearchAlert}
    {planned other : PlannedQuery} (hplanned : planned ∈ plan capabilities dueAlerts)
    (hother : other ∈ plan capabilities dueAlerts)
    (hslug : other.portalSlug = planned.portalSlug) {alert : SearchAlert}
    (halert : alert ∈ planned.alerts) (halert' : alert ∈ other.alerts) :
    other = planned := by
  obtain ⟨-, -, hsignature⟩ := (planned_of_mem hplanned).mem_alerts.mp halert
  obtain ⟨-, -, hsignature'⟩ := (planned_of_mem hother).mem_alerts.mp halert'
  refine List.inj_on_of_nodup_map (nodup_keys_plan dueAlerts) hother hplanned ?_
  rw [← hsignature', hslug, hsignature]

open Classical in
theorem Planned.count_alerts {dueAlerts : List SearchAlert} {planned : PlannedQuery}
    (h : Planned capabilities dueAlerts planned) {alert : SearchAlert}
    (halert : alert ∈ planned.alerts) :
    planned.alerts.count alert = dueAlerts.count alert := by
  rw [h.alerts]
  refine List.count_filter ?_
  simpa using (h.mem_alerts.mp halert).2

open Classical in
/-- The queries of a plan cover every due alert on each of its portals exactly once. -/
structure CoversExactly (dueAlerts : List SearchAlert)
    (queries : List PlannedQuery) : Prop where
  covered : ∀ alert ∈ dueAlerts, ∀ portalSlug ∈ alert.portalSlugs.sorted,
    ∃ planned ∈ queries, planned.portalSlug = portalSlug ∧
      planned.alerts.count alert = dueAlerts.count alert ∧
      ∀ other ∈ queries, other.portalSlug = portalSlug →
        alert ∈ other.alerts → other = planned
  noOthers : ∀ planned ∈ queries, planned.query.portalSlug = planned.portalSlug ∧
    ∀ alert ∈ planned.alerts,
      alert ∈ dueAlerts ∧ planned.portalSlug ∈ alert.portalSlugs.sorted
  distinctKeys : (queries.map fun planned =>
    (planned.portalSlug, planned.signature)).Nodup
  inOrder : ∀ planned ∈ queries, planned.alerts.Sublist dueAlerts

/-- Planning loses and duplicates nothing. -/
theorem plan_covers_exactly (capabilities : Dict String PortalCapabilities)
    (dueAlerts : List SearchAlert) :
    CoversExactly dueAlerts (plan capabilities dueAlerts) where
  covered alert halert portalSlug hslug := by
    obtain ⟨planned, hplanned, rfl, hsignature⟩ :=
      @exists_planned _ capabilities _ _ _ halert hslug
    have hmem : alert ∈ planned.alerts :=
      (planned_of_mem hplanned).mem_alerts.mpr ⟨halert, hslug, hsignature.symm⟩
    refine ⟨planned, hplanned, rfl, (planned_of_mem hplanned).count_alerts hmem, ?_⟩
    intro other hother hportal hother'
    exact Planned.eq_of_common hplanned hother hportal hmem hother'
  noOthers planned hplanned := by
    have h := planned_of_mem hplanned
    obtain ⟨first, rest, -, hquery⟩ := h.query
    refine ⟨by rw [hquery], fun alert halert => ?_⟩
    obtain ⟨hdue, hslug, -⟩ := h.mem_alerts.mp halert
    exact ⟨hdue, hslug⟩
  distinctKeys := nodup_keys_plan dueAlerts
  inOrder planned hplanned := by
    rw [(planned_of_mem hplanned).alerts]
    exact List.filter_sublist

end Runtime

end RealEstateTracker.Application
