import RealEstateTracker.Cycle.CacheAge
import RealEstateTracker.Cycle.Ingestion
import RealEstateTracker.Infrastructure.Pipeline

/-!
# Recorded sightings

A listing that is found unchanged is not written at all: its row keeps the old
address, and its property keeps the time of the scrape that last changed it.  A
sighting is recorded when its listing is written, or when there is nothing to
refresh.
-/

namespace RealEstateTracker.Cycle

open Foundation Domain Application Persistence

section Sightings

variable [runtime : PythonRuntime] (fieldMap : String → List (String × String))

def normalizers (portalSlug : String) (listing : RawListing) :
    Except PyError NormalizationResult :=
  Infrastructure.normalize (fieldMap portalSlug) listing

def Normalizable (portalSlug : String) (listing : RawListing) : Prop :=
  ∃ result prop, normalizers fieldMap portalSlug listing = .ok result ∧
    result.property = some prop

/-- The property of every listing that is known by the key. -/
def propertyOf (key : String × String) : PropertyId :=
  runtime.uuid5 ("2b7a6b3e-6c1a-4f0a-9d3a-9f6e1d9c9a10" ++ "/" ++ key.1 ++ ":" ++ key.2)

/--
Some listing of the page that is known by the key can be normalized, and its
contents are not the ones stored.
-/
def WrittenAgain (portalSlug : String) (db : Store) (listings : List RawListing)
    (key : String × String) : Prop :=
  ∃ listing ∈ listings, Normalizable fieldMap portalSlug listing ∧
    listingKey listing = key ∧ ∀ row, PortalListingRepository.find key.1 key.2 db =
      some row → row.contentHash ≠ contentHash listing.raw

variable [PersistenceRuntime]

/-- The listing has a row with its address, and its property was seen since `start`. -/
def SightingRecorded (start : DateTime) (db : Store) (listing : RawListing) : Prop :=
  ∃ row, PortalListingRepository.find listing.portalSlug listing.externalId db =
      some row ∧ row.url = listing.url ∧
    ∃ seen, PropertyRepository.find row.propertyId db = some seen ∧
      start ≤ seen.lastSeenAt

/--
Every listing of the page that is known by the key has one address, and one of them
is written again, or the row has that address already and its property is new
enough or belongs to another listing that is written again.
-/
def NothingStale (portalSlug : String) (start : DateTime) (db : Store)
    (listings : List RawListing) (listing : RawListing) : Prop :=
  (∀ other ∈ listings, Normalizable fieldMap portalSlug other →
      listingKey other = listingKey listing → other.url = listing.url) ∧
    (WrittenAgain fieldMap portalSlug db listings (listingKey listing) ∨
      ∃ row, PortalListingRepository.find listing.portalSlug listing.externalId db =
          some row ∧ row.url = listing.url ∧
        ((∃ key, WrittenAgain fieldMap portalSlug db listings key ∧
            propertyOf key = row.propertyId) ∨
          ∃ seen, PropertyRepository.find row.propertyId db = some seen ∧
            start ≤ seen.lastSeenAt))

omit runtime in
theorem observes_lastSeenAt : Observes PropertyRow.lastSeenAt :=
  fun _ _ _ stamp db hrow =>
    lastSeenAt_find_added (PropertyRepository.id_toModel hrow) stamp db

/-! ## Through the catalogue -/

variable {fieldMap} {portalSlug : String} {listing : RawListing} {db : Store}
  {answers : Nat → (request : CycleCall) → CycleAnswer request} {start : DateTime}
  {xs : List (ListingSighting DateTime)} {listings : List RawListing}
  {unused : Nat → Prop}

abbrev seenAt (fieldMap : String → List (String × String)) (portalSlug : String)
    (listing : RawListing) (time : DateTime) : ListingSighting DateTime :=
  sightingOf (normalizers fieldMap) PropertyRow.lastSeenAt portalSlug listing time

omit [PersistenceRuntime] in
theorem usable_seenAt (time : DateTime) :
    Catalogue.Usable (seenAt fieldMap portalSlug listing time) ↔
      Normalizable fieldMap portalSlug listing := by
  simp only [Catalogue.Usable, sightingOf, made, Normalizable]
  cases normalizers fieldMap portalSlug listing with
  | error error => simp [bind, Except.bind]
  | ok result => simp [bind, Except.bind, pure, Except.pure]

omit [PersistenceRuntime] in
theorem made_eq_some {D : Type} {observe : PropertyRow → D} {time : DateTime}
    {item : PropertyId} {data : Except PyError D}
    (h : made (normalizers fieldMap) observe portalSlug listing time =
      .ok (some (item, data))) :
    item = propertyOf (listingKey listing) ∧ ∃ prop,
      data = (PropertyRepository.toModel prop time).map observe := by
  obtain ⟨result, hresult, hmade⟩ := bind_eq_ok.mp h
  obtain ⟨prop, hproperty, heq⟩ := Option.map_eq_some_iff.mp (pure_eq_ok.mp hmade)
  obtain ⟨rfl, rfl⟩ := Prod.mk.inj heq
  exact ⟨Infrastructure.id_of_normalize hresult hproperty, prop, rfl⟩

omit [PersistenceRuntime] in
theorem fresh_seenAt {time : DateTime} (htime : start ≤ time) :
    Catalogue.Fresh propertyOf (start ≤ ·)
      (seenAt fieldMap portalSlug listing time) := by
  intro item seen hfound
  obtain ⟨rfl, prop, hseen⟩ := made_eq_some hfound
  refine ⟨rfl, ?_⟩
  cases hrow : PropertyRepository.toModel prop time with
  | error error =>
      rw [hrow] at hseen
      cases hseen
  | ok row =>
      rw [hrow] at hseen
      obtain rfl : seen = row.lastSeenAt := Except.ok.inj hseen
      rwa [PropertyRepository.lastSeenAt_toModel hrow]

theorem recorded_catalogue (time : DateTime) :
    Catalogue.Recorded (start ≤ ·) (catalogue PropertyRow.lastSeenAt db)
        (seenAt fieldMap portalSlug listing time) ↔
      SightingRecorded start db listing := by
  simp [Catalogue.Recorded, catalogue, SightingRecorded, sightingOf, listingKey]

theorem unchanged_catalogue {key : String × String} {time : DateTime}
    (hkey : listingKey listing = key) :
    ¬(catalogue PropertyRow.lastSeenAt db).Unchanged
        (seenAt fieldMap portalSlug listing time) ↔
      ∀ row, PortalListingRepository.find key.1 key.2 db = some row →
        row.contentHash ≠ contentHash listing.raw := by
  subst hkey
  simp [Catalogue.Unchanged, catalogue, sightingOf, listingKey]

theorem rewritten_catalogue
    (hseen : SeenAs (normalizers fieldMap) PropertyRow.lastSeenAt answers portalSlug
      listings xs) (key : String × String) :
    Catalogue.Rewritten (catalogue PropertyRow.lastSeenAt db) xs key ↔
      WrittenAgain fieldMap portalSlug db listings key := by
  refine hseen.exists_mem_iff fun listing op => ?_
  rw [usable_seenAt]
  refine and_congr_right fun _ => and_congr_right fun hkey => ?_
  exact unchanged_catalogue hkey

theorem refreshed_catalogue
    (hseen : SeenAs (normalizers fieldMap) PropertyRow.lastSeenAt answers portalSlug
      listings xs) (time : DateTime) :
    Catalogue.Refreshed propertyOf (start ≤ ·) (catalogue PropertyRow.lastSeenAt db) xs
        (seenAt fieldMap portalSlug listing time) ↔
      NothingStale fieldMap portalSlug start db listings listing := by
  refine and_congr (hseen.forall_mem_iff fun other op => ?_) (or_congr ?_ ?_)
  · rw [usable_seenAt]
    rfl
  · exact rewritten_catalogue hseen _
  · simp only [Catalogue.Touched, rewritten_catalogue hseen]
    simp [catalogue, sightingOf, listingKey]

/-! ## Every sighting -/

/--
After a scrape that returns, every listing of the page that can be normalized is
recorded if and only if none of them is stale and stays so.
-/
theorem every_sighting_is_recorded_iff (cycle : RunAlertCycle) (planned : PlannedQuery)
    (hnormalizes : Normalizes (normalizers fieldMap) answers) (s : CycleSession)
    (hclock : ∀ op, start ≤ answers op .utcNow)
    (hids : ListingIds unused s.txn s.ops (s.view db))
    (huncached : SearchCacheRepository.get planned.signature start (s.view db) = none)
    (hfetched : fetched answers planned (s.ops + 1) = .ok listings)
    {ids : List PropertyId}
    (hreturned : ((cycle.resolveCandidates planned start).eval answers s db).outcome =
      .ok ids) :
    (∀ listing ∈ listings, Normalizable fieldMap planned.portalSlug listing →
        SightingRecorded start (((cycle.resolveCandidates planned start).eval answers s
          db).session.view db) listing) ↔
      ∀ listing ∈ listings, Normalizable fieldMap planned.portalSlug listing →
        NothingStale fieldMap planned.portalSlug start (s.view db) listings listing := by
  have hview : (s.wrote []).view db = s.view db := by
    rw [Session.view_wrote, applyAll_nil]
  have heval : (cycle.resolveCandidates planned start).eval answers s db =
      (cycle.scrapeCandidates planned start).eval answers (s.wrote []) db := by
    simp only [RunAlertCycle.resolveCandidates, Txn.query, Txn.bind_eq, Txn.bind, Txn.eval,
      huncached]
  obtain ⟨xs, hseen, hscrape⟩ := ingests_scrapeCandidates db (s.wrote [])
    observes_lastSeenAt hnormalizes cycle planned start
    (by rw [hview]; exact hids.later (Nat.le_succ _))
  replace hseen := hseen listings hfetched
  rw [← heval, hview, Session.ops_wrote, hfetched] at hscrape
  have hrun : Catalogue.run Catalogue.refresh (catalogue PropertyRow.lastSeenAt
      (s.view db)) xs [] = (.ok ids, catalogue PropertyRow.lastSeenAt
        (((cycle.resolveCandidates planned start).eval answers s db).session.view db)) :=
    Prod.ext (hscrape.outcome.symm.trans (by rw [hreturned]; rfl)) hscrape.catalogue.symm
  have hfresh : ∀ x ∈ xs, Catalogue.Fresh propertyOf (start ≤ ·) x :=
    (hseen.forall_mem_iff fun listing op =>
      iff_true_intro (fresh_seenAt (hclock op))).mpr fun _ _ => trivial
  refine Iff.trans ?_ ((Catalogue.forall_recorded_iff hfresh hrun).trans ?_)
  · exact (hseen.forall_mem_iff fun listing op =>
      imp_congr (usable_seenAt _) (recorded_catalogue _)).symm
  · exact hseen.forall_mem_iff fun listing op =>
      imp_congr (usable_seenAt _) (refreshed_catalogue hseen _)

end Sightings

/-! ## A flat that moves to another address -/

/-- The flat is shown under a new address, with the contents of before. -/
def movedListing : RawListing := ⟨"idealista", "1", "https://idealista.com/new", 1, .empty⟩

def movedFlat : PropertyId := @propertyOf .plain (listingKey movedListing)

/-- The flat was scraped at the time 0, under its old address. -/
def movedStore : Store :=
  { Alerts.salesStore with
    properties := [{ flatRow with id := movedFlat }]
    listings := [⟨.given 0, "idealista", movedFlat, "1", "https://idealista.com/old",
      .empty, @contentHash .plain .empty, 0⟩] }

/-- The clocks say 1, and a scrape shows the flat that has moved. -/
def movedAnswers (_ : Nat) : (request : CycleCall) → CycleAnswer request
  | .clock | .utcNow => (1 : Int)
  | .scraperForPortal _ | .normalizerForPortal _ => .ok ()
  | .fetch _ => .ok [movedListing]
  | .normalize portalSlug listing =>
      @normalizers .plain (fun _ => Infrastructure.idealistaFieldMap) portalSlug listing

theorem listingIds_movedStore : ListingIds (· ≠ 0) 0 0 movedStore where
  nodup := List.nodup_singleton _
  used h := h rfl
  fresh row hrow _ _ hid := by
    rw [List.mem_singleton.mp hrow] at hid
    cases hid
  unused row hrow _ _ _ hid := by
    rw [List.mem_singleton.mp hrow] at hid
    cases hid

theorem normalizable_movedListing : @Normalizable .plain
    (fun _ => Infrastructure.idealistaFieldMap) "idealista" movedListing :=
  ⟨_, _, rfl, rfl⟩

/-- A flat that is found unchanged keeps its old address and its old time. -/
theorem unchanged_sighting_is_not_recorded :
    ¬∀ (fieldMap : String → List (String × String)) (cycle : RunAlertCycle)
      (planned : PlannedQuery)
      (answers : Nat → (request : CycleCall) → CycleAnswer request) (s : CycleSession)
      (db : Store) (start : DateTime) (listings : List RawListing)
      (ids : List PropertyId),
      Normalizes (@normalizers .plain fieldMap) answers →
      (∀ op, start ≤ answers op .utcNow) →
      ListingIds (· ≠ s.txn) s.txn s.ops (s.view db) →
      SearchCacheRepository.get planned.signature start (s.view db) = none →
      fetched answers planned (s.ops + 1) = .ok listings →
      ((@RunAlertCycle.resolveCandidates .plain .plain cycle planned start).eval answers s
        db).outcome = .ok ids →
      ∀ listing ∈ listings, @Normalizable .plain fieldMap planned.portalSlug listing →
        @SightingRecorded .plain start (((@RunAlertCycle.resolveCandidates .plain .plain
          cycle planned start).eval answers s db).session.view db) listing := by
  intro h
  obtain ⟨row, hrow, hurl, -⟩ := h (fun _ => Infrastructure.idealistaFieldMap)
    defaultCycle salesQuery movedAnswers (.start 0) movedStore 1 [movedListing]
    [movedFlat] (fun _ _ _ => rfl) (fun _ => le_rfl) listingIds_movedStore rfl rfl rfl
    movedListing (.head _) normalizable_movedListing
  obtain rfl := Option.some.inj hrow
  exact absurd hurl (by decide)

theorem every_sighting_is_recorded_iff_moved :
    (∀ listing ∈ [movedListing], @Normalizable .plain
        (fun _ => Infrastructure.idealistaFieldMap) "idealista" listing →
      @SightingRecorded .plain 1 (((@RunAlertCycle.resolveCandidates .plain .plain
        defaultCycle salesQuery 1).eval movedAnswers (.start 0) movedStore).session.view
          movedStore) listing) ↔
      ∀ listing ∈ [movedListing], @Normalizable .plain
          (fun _ => Infrastructure.idealistaFieldMap) "idealista" listing →
        @NothingStale .plain (fun _ => Infrastructure.idealistaFieldMap) .plain "idealista"
          1 movedStore [movedListing] listing :=
  @every_sighting_is_recorded_iff .plain _ .plain movedStore movedAnswers 1 [movedListing]
    _ defaultCycle salesQuery (fun _ _ _ => rfl) (.start 0) (fun _ => le_rfl)
    listingIds_movedStore rfl rfl [movedFlat] rfl

end RealEstateTracker.Cycle
