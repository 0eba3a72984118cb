import RealEstateTracker.Alerts.ConcurrentSaves
import RealEstateTracker.Cycle.MatchPersistence
import RealEstateTracker.Foundation.Interleaving

/-!
# At most one match and one notification

Both inserts of a cycle look for the row first, and only matches have a
uniqueness constraint.  Notifications are unique all the same: a transaction
queues them only for matches that it inserts itself, and it commits both or
neither.
-/

namespace RealEstateTracker.Cycle

open Foundation Domain Application Persistence

/-- No match twice, no notification twice, and no notification without its match. -/
structure AtMostOnce (db : Store) : Prop where
  matchOnce : (db.alertMatches.map pair).Nodup
  notifiedOnce : (db.notifications.map delivery).Nodup
  noOrphan : ∀ n ∈ db.notifications, ∃ row ∈ db.alertMatches, row.id = n.matchId

/--
The match was inserted by worker `i` for one of the alerts of its query, and
each channel that is enabled for the owner of the alert has its notification.
-/
def NotifiedBy (planned : Nat → PlannedQuery) (db : Store) (row : MatchRow)
    (i : Nat) : Prop :=
  (∃ op, row.id = .uuid4 i op 0) ∧
    ∃ alert ∈ (planned i).alerts, alert.id = row.alertId ∧
      ∀ channel ∈ NotificationChannelRepository.enabledRows alert.userId db,
        ∃ n ∈ db.notifications, n.matchId = row.id ∧ n.channelId = channel.id

/-! ## The invariant -/

/-- What session `txn` knows of every store that was reached from `initial`. -/
structure Committed (initial : Store) (planned : Nat → PlannedQuery) (db : Store)
    (txn since : Nat) : Prop where
  channels : db.channels = initial.channels
  atMostOnce : AtMostOnce db
  notDrawn : ∀ row ∈ db.alertMatches, ∀ op, since ≤ op → row.id ≠ .uuid4 txn op 0
  notified : ∀ row ∈ db.alertMatches, row ∈ initial.alertMatches ∨
    ∃ i, NotifiedBy planned db row i

theorem Committed.knows {initial db : Store} {planned : Nat → PlannedQuery}
    {txn since : Nat} (h : Committed initial planned db txn since) :
    Knows initial db txn since where
  channels := h.channels
  fresh n hn op hop hid := by
    obtain ⟨row, hrow, hmatch⟩ := h.atMostOnce.noOrphan n hn
    exact h.notDrawn row hrow op hop (hmatch.trans hid)

def ReadyToCommit (rely : CycleRely) (initial : Store)
    (planned : Nat → PlannedQuery) (s : CycleSession) : Prop :=
  ∃ owned, Owned rely initial s.txn s.since s owned ∧
    ∀ x ∈ owned, ∃ alert ∈ (planned s.txn).alerts,
      x.2 = alert.userId ∧ alert.id = x.1.alertId

/-- `UNIQUE(alert_id, property_id)`. -/
theorem nodup_of_admits {writes : List Write} {db : Store}
    (h : Database.admits db writes = true)
    (hnodup : (db.alertMatches.map pair).Nodup) :
    ((applyAll writes db).alertMatches.map pair).Nodup := by
  refine keeps_of_admits (P := fun _ => True)
    (J := fun db => (db.alertMatches.map pair).Nodup)
    (fun write db _ hadmitted hnodup => ?_) (fun _ _ => trivial) h hnodup
  cases write with
  | insertMatch row =>
      refine nodup_map_concat hnodup fun stored hmem hpair => ?_
      simp only [Write.admitted, Bool.and_eq_true, Bool.not_eq_true',
        List.any_eq_false, decide_eq_true_eq, not_or, not_and] at hadmitted
      exact (hadmitted.1.1 stored hmem).2 (congrArg Prod.fst hpair)
        (congrArg Prod.snd hpair)
  | _ => exact hnodup

section Commits

variable {rely : CycleRely} {initial db : Store} {planned : Nat → PlannedQuery}
  {s : CycleSession} {owned : OwnedMatches}

theorem mem_owedKeys {key : MatchId × ChannelId} (h : key ∈ owedKeys initial owned) :
    ∃ x ∈ owned, key.1 = x.1.id ∧ key ∈ channelKeys initial x.1.id x.2 := by
  obtain ⟨x, hx, hkey⟩ := List.mem_flatMap.mp h
  obtain ⟨channel, -, rfl⟩ := List.mem_map.mp hkey
  exact ⟨x, hx, rfl, hkey⟩

theorem nodup_owedKeys (hchannels : (initial.channels.map (·.id)).Nodup)
    (hdistinct : (owned.map (·.1.id)).Nodup) :
    (owedKeys initial owned).Nodup := by
  refine List.nodup_flatMap.mpr ⟨fun x _ => ?_, ?_⟩
  · refine List.Nodup.of_map Prod.snd ?_
    rw [channelKeys, List.map_map]
    exact nodup_enabledRows hchannels x.2
  · refine (List.pairwise_map.mp hdistinct).imp fun {x y} hne key hx hy => ?_
    obtain ⟨channel, -, rfl⟩ := List.mem_map.mp hx
    obtain ⟨channel', -, heq⟩ := List.mem_map.mp hy
    exact hne (congrArg Prod.fst heq).symm

theorem atMostOnce_applyAll (hchannels : (initial.channels.map (·.id)).Nodup)
    (h : AtMostOnce db) (hknows : Knows initial db s.txn s.since)
    (howned : Owned rely initial s.txn s.since s owned)
    (hadmits : Database.admits db s.pending = true) :
    AtMostOnce (applyAll s.pending db) := by
  have hqueue := howned.queue
  refine ⟨nodup_of_admits hadmits h.matchOnce, ?_, fun n hn => ?_⟩
  · rw [← Session.view, hqueue.view_notifications, List.nodup_append]
    have hdistinct := hqueue.distinct
    rw [List.map_map] at hdistinct
    refine ⟨h.notifiedOnce, nodup_owedKeys hchannels hdistinct, ?_⟩
    rintro key hstored _ howed rfl
    -- a stored notification belongs to a match that was there before
    obtain ⟨n, hn, rfl⟩ := List.mem_map.mp hstored
    obtain ⟨x, hx, hid, -⟩ := mem_owedKeys howed
    obtain ⟨op, hop, -, hdrawn⟩ := hqueue.drawn x.1 (List.mem_map_of_mem hx)
    exact hknows.fresh n hn op hop (hid.trans hdrawn)
  · rw [← Session.view, hqueue.view_alertMatches]
    have hkey : delivery n ∈ (s.view db).notifications.map delivery :=
      List.mem_map_of_mem hn
    rw [hqueue.view_notifications, List.mem_append] at hkey
    obtain hkey | hkey := hkey
    · obtain ⟨stored, hstored, heq⟩ := List.mem_map.mp hkey
      obtain ⟨row, hrow, hid⟩ := h.noOrphan stored hstored
      exact ⟨row, List.mem_append_left _ hrow,
        hid.trans (congrArg Prod.fst heq)⟩
    · obtain ⟨x, hx, hid, -⟩ := mem_owedKeys hkey
      exact ⟨x.1, List.mem_append_right _ (List.mem_map_of_mem hx), hid.symm⟩

theorem notifiedBy_applyAll {row : MatchRow} {i : Nat}
    (hqueue : Queue s (owned.map (·.1)) (owedKeys initial owned))
    (h : NotifiedBy planned db row i) :
    NotifiedBy planned (applyAll s.pending db) row i := by
  obtain ⟨hid, alert, halert, halertId, hchannels⟩ := h
  refine ⟨hid, alert, halert, halertId, fun channel hchannel => ?_⟩
  rw [enabledRows_congr (channels_applyAll s.pending db)] at hchannel
  obtain ⟨n, hn, hkeys⟩ := hchannels channel hchannel
  rw [notifications_eq hqueue.appends]
  exact ⟨n, List.mem_append_left _ hn, hkeys⟩

theorem notifiedBy_of_owned (hchannels : db.channels = initial.channels)
    (howned : Owned rely initial s.txn s.since s owned) {x : MatchRow × UserId}
    (hx : x ∈ owned) {alert : SearchAlert}
    (halert : alert ∈ (planned s.txn).alerts) (howner : x.2 = alert.userId)
    (hid : alert.id = x.1.alertId) :
    NotifiedBy planned (applyAll s.pending db) x.1 s.txn := by
  obtain ⟨op, -, -, hdrawn⟩ := howned.queue.drawn x.1 (List.mem_map_of_mem hx)
  refine ⟨⟨op, hdrawn⟩, alert, halert, hid, fun channel hchannel => ?_⟩
  rw [enabledRows_congr ((channels_applyAll s.pending db).trans hchannels)]
    at hchannel
  have hkey : (x.1.id, channel.id) ∈
      (s.view db).notifications.map delivery := by
    rw [howned.queue.view_notifications]
    refine List.mem_append_right _ (List.mem_flatMap.mpr ⟨x, hx, ?_⟩)
    rw [howner]
    exact List.mem_map.mpr ⟨channel, hchannel, rfl⟩
  obtain ⟨n, hn, heq⟩ := List.mem_map.mp hkey
  exact ⟨n, hn, congrArg Prod.fst heq, congrArg Prod.snd heq⟩

theorem committed_applyAll (hchannels : (initial.channels.map (·.id)).Nodup)
    (h : Committed initial planned db s.txn s.since)
    (hready : ReadyToCommit rely initial planned s)
    (hadmits : Database.admits db s.pending = true) {txn since : Nat}
    (hstored : ∀ row ∈ db.alertMatches, ∀ op, since ≤ op →
      row.id ≠ .uuid4 txn op 0)
    (hinserted : ∀ op, s.since ≤ op → op < s.ops → ∀ op', since ≤ op' →
      Uuid.uuid4 s.txn op 0 ≠ .uuid4 txn op' 0) :
    Committed initial planned (applyAll s.pending db) txn since := by
  obtain ⟨owned, howned, howners⟩ := hready
  have hrows := howned.queue.view_alertMatches db
  refine ⟨(channels_applyAll _ _).trans h.channels,
    atMostOnce_applyAll hchannels h.atMostOnce h.knows howned hadmits, ?_, ?_⟩
  · intro row hrow op' hop'
    rw [← Session.view, hrows] at hrow
    obtain hrow | hrow := List.mem_append.mp hrow
    · exact hstored row hrow op' hop'
    · obtain ⟨op, hsince, hop, hid⟩ := howned.queue.drawn row hrow
      rw [hid]
      exact hinserted op hsince hop op' hop'
  · intro row hrow
    rw [← Session.view, hrows] at hrow
    obtain hrow | hrow := List.mem_append.mp hrow
    · refine (h.notified row hrow).imp_right fun hnotified => ?_
      obtain ⟨i, hnotified⟩ := hnotified
      exact ⟨i, notifiedBy_applyAll howned.queue hnotified⟩
    · obtain ⟨x, hx, rfl⟩ := List.mem_map.mp hrow
      obtain ⟨alert, halert, howner, hid⟩ := howners x hx
      exact .inr ⟨s.txn, notifiedBy_of_owned h.channels howned hx halert howner
        hid⟩

theorem stable_committed (hchannels : (initial.channels.map (·.id)).Nodup) :
    Sys.Stable (W := Write) (C := CycleCall) (R := CycleAnswer)
      (Committed initial planned) (ReadyToCommit rely initial planned) where
  own db s h hready hadmits := by
    refine committed_applyAll hchannels h hready hadmits
      (fun row hrow op hop => ?_) fun op _ hop op' hop' heq => ?_
    · obtain ⟨owned, howned, -⟩ := hready
      exact h.notDrawn row hrow op
        ((Nat.le_succ_of_le howned.queue.begun).trans hop)
    · obtain rfl : op = op' := (Uuid.uuid4.inj heq).2.1
      omega
  refused db s h hready := by
    obtain ⟨owned, howned, -⟩ := hready
    exact ⟨h.channels, h.atMostOnce, fun row hrow op hop => h.notDrawn row hrow op
      ((Nat.le_succ_of_le howned.queue.begun).trans hop), h.notified⟩
  other db s txn since hne h hready hadmits h' :=
    committed_applyAll hchannels h hready hadmits h'.notDrawn
      fun _ _ _ _ _ heq => hne (Uuid.uuid4.inj heq).1.symm

end Commits

/-! ## Every worker keeps it -/

section Workers

variable [PythonRuntime] [PersistenceRuntime]

variable {rely : CycleRely} {initial : Store} {planned : Nat → PlannedQuery}
  {i : Nat}

omit [PythonRuntime] [PersistenceRuntime] in
theorem ReadyToCommit.of_owned {s : CycleSession} {owned : OwnedMatches}
    (h : Owned rely initial i 0 s owned)
    (howners : ∀ x ∈ owned, ∃ alert ∈ (planned i).alerts,
      x.2 = alert.userId ∧ alert.id = x.1.alertId) :
    ReadyToCommit rely initial planned s := by
  obtain rfl := h.txn_eq
  exact ⟨owned, by rw [h.since_eq]; exact h, howners⟩

omit [PythonRuntime] [PersistenceRuntime] in
theorem wp_recordFailure (error : String) (now : DateTime) {s : CycleSession}
    (h : Owned rely initial i 0 s []) :
    Txn.wp rely (ReadyToCommit rely initial planned)
      (RunAlertCycle.recordFailure (planned i) error now)
      (Txn.onOk fun _ _ => True) s := by
  intro finishedAt _ db _
  refine ⟨.of_owned ((h.answered .clock finishedAt).wrote ?_) (by simp), trivial,
    fun _ => trivial⟩
  exact (allIn_recordWrites _ _ _).not_mem (by decide)

theorem wp_persistMatches
    (hknows : ∀ db, rely.store db i 0 → Knows initial db i 0)
    (hchannels : (initial.channels.map (·.id)).Nodup) (cycle : RunAlertCycle)
    (propertyIds : List PropertyId) (now : DateTime) {s : CycleSession}
    (h : Owned rely initial i 0 s []) :
    Txn.wp rely (ReadyToCommit rely initial planned)
      (cycle.persistMatches (planned i) propertyIds now)
      (Txn.onOk fun _ _ => True) s := by
  refine Txn.wp_ends_bind (P := fun _ s => Owned rely initial i 0 s [])
    (Txn.wp_mono _ ?_ (wp_owned_of_only (by simp)
      (only_loadCandidates propertyIds) h)) ?_
  · rintro (error | candidates) s h
    · trivial
    · exact h
  intro candidates s h
  refine Txn.wp_ends_bind
    (wp_evaluateAndPersist hknows hchannels cycle _ candidates now h) ?_
  rintro created s ⟨owned, -, howned, hrecorded⟩
  refine ⟨.of_owned howned fun x hx => ?_, trivial, fun _ => trivial⟩
  obtain ⟨alert, halert, howner, p, -, -, hpair⟩ := hrecorded.sound x hx
  exact ⟨alert, halert, howner, (congrArg Prod.fst hpair).symm⟩

theorem wp_runOne (hknows : ∀ db, rely.store db i 0 → Knows initial db i 0)
    (hchannels : (initial.channels.map (·.id)).Nodup) (cycle : RunAlertCycle) :
    Txn.wp rely (ReadyToCommit rely initial planned) (cycle.runOne (planned i))
      (Txn.onOk fun _ _ => True) (.start i) := by
  intro now _
  change Txn.wp rely _ ((cycle.resolveCandidates _ now).attempt.bind _) _ _
  refine (Txn.wp_bind _ _).mpr ((Txn.wp_attempt _).mpr (Txn.wp_mono _ ?_
    (wp_owned_of_only (by decide) (only_resolveCandidates cycle (planned i) now)
      ((Owned.start rely initial i).answered .clock now))))
  rintro (error | propertyIds) s h
  · cases error with
    | scraperError error => exact wp_recordFailure error now h
    | _ => trivial
  · exact wp_persistMatches hknows hchannels cycle propertyIds now h

/-- The constraints of the schema hold, and no identifier is one that a run will draw. -/
structure FreshStore (db : Store) : Prop where
  channelKey : (db.channels.map (·.id)).Nodup
  foreignKey : ∀ n ∈ db.notifications, ∃ row ∈ db.alertMatches, row.id = n.matchId
  notDrawn : ∀ row ∈ db.alertMatches, ∀ txn op, row.id ≠ .uuid4 txn op 0

/--
In every state of every run of any number of workers no match and no
notification is there twice, no notification is without its match, and the
transaction that inserted a match notified every channel that it saw enabled:
the channels are those of the first store throughout.
-/
theorem matches_and_notifications_at_most_once (cycles : Nat → RunAlertCycle)
    (planned : Nat → PlannedQuery) (oracle : Oracle CycleCall CycleAnswer)
    {db : Store} (h : FreshStore db) (honce : AtMostOnce db) (schedule : List Nat) :
    let after := ((Sys.start db fun i => (cycles i).runOne (planned i)).run
      oracle schedule).store
    AtMostOnce after ∧ after.channels = db.channels ∧
      ∀ row ∈ after.alertMatches, row ∈ db.alertMatches ∨
        ∃ i, NotifiedBy planned after row i := by
  have hstart : ∀ i, Committed db planned db i 0 := fun i =>
    ⟨rfl, honce, fun row hrow op _ => h.notDrawn row hrow i op,
      fun _ hrow => .inl hrow⟩
  have hprograms : ∀ i, ((cycles i).runOne (planned i)).wp
      ⟨Committed db planned, fun _ _ => True, True⟩
      (ReadyToCommit ⟨Committed db planned, fun _ _ => True, True⟩ db planned)
      (Txn.onOk fun _ _ => True) (.start i) := fun i =>
    wp_runOne (fun db' hdb' => Committed.knows hdb') h.channelKey (cycles i)
  obtain ⟨hcommitted, -⟩ := Sys.invariant_run
    (stable_committed h.channelKey) hstart (fun _ _ _ => trivial) hprograms schedule
  have hafter := hcommitted 0
  exact ⟨hafter.atMostOnce, hafter.channels, hafter.notified⟩

end Workers

/-! ## Two workers of one cached search -/

def flatRow : PropertyRow where
  id := "flat"
  listingType := "SALE"
  propertyType := "FLAT"
  landType := none
  provinceIne := "36"
  municipalityIne := none
  municipalityName := none
  district := none
  postalCode := none
  lat := none
  lng := none
  priceAmount := none
  priceCurrency := none
  areaM2 := none
  plotAreaM2 := none
  pricePerM2 := none
  rooms := none
  bathrooms := none
  features := .empty
  attributes := []
  images := []
  videos := []
  title := "Flat"
  description := ""
  status := "ACTIVE"
  publishedAt := none
  firstSeenAt := 0
  lastSeenAt := 0

def flatListing (operation : String) : RawListing :=
  ⟨"idealista", "1", "", 0, Dict.empty.set "operation" (.str operation)⟩

def normalizeFlat (listing : RawListing) : Except PyError NormalizationResult := do
  let operation := match listing.raw.get "operation" with
    | some (.str operation) => operation
    | _ => ""
  let flat ← @PropertyRepository.toDomain .plain { flatRow with listingType := operation }
  return ⟨some flat, []⟩

/-- A search for the sales alert is cached, and its owner has a channel. -/
def cachedStore : Store :=
  { Alerts.salesStore with
    properties := [flatRow]
    caches := [⟨"idealista|", "idealista", ["flat"], 0, 3600000000⟩]
    channels := [⟨.given 9, .given 0, .telegram, "target", true⟩] }

def salesCycle : RunAlertCycle := ⟨.empty, defaultRegistry, 3600, fun _ => 1⟩

def salesQuery : PlannedQuery :=
  ⟨"idealista", "idealista|", ⟨"idealista", .empty⟩, [Alerts.salesAlert]⟩

/-- The clocks stand still, and every portal answers with an empty page. -/
def quietOracle : Oracle CycleCall CycleAnswer := fun _ _ request =>
  match request with
  | .clock | .utcNow => (1 : Int)
  | .scraperForPortal _ | .normalizerForPortal _ => .ok ()
  | .fetch _ => .ok []
  | .normalize _ _ => .ok ⟨none, []⟩

theorem freshStore_cachedStore : FreshStore cachedStore where
  channelKey := by decide
  foreignKey _ hn := absurd hn List.not_mem_nil
  notDrawn _ hrow := absurd hrow List.not_mem_nil

theorem matches_and_notifications_at_most_once_cached :
    let after := ((Sys.start cachedStore fun _ =>
      @RunAlertCycle.runOne .plain .plain salesCycle salesQuery).run quietOracle
        ((List.range 20).flatMap fun _ => [0, 1])).store
    AtMostOnce after ∧ after.channels = cachedStore.channels ∧
      ∀ row ∈ after.alertMatches, row ∈ cachedStore.alertMatches ∨
        ∃ i, NotifiedBy (fun _ => salesQuery) after row i :=
  @matches_and_notifications_at_most_once .plain .plain (fun _ => salesCycle)
    (fun _ => salesQuery) quietOracle cachedStore freshStore_cachedStore
    ⟨List.nodup_nil, List.nodup_nil, fun _ hn => absurd hn List.not_mem_nil⟩ _

end RealEstateTracker.Cycle
