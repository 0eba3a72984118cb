import RealEstateTracker.Cycle.Sightings

/-!
# Skipped listings

A worker that skips the listings it finds unchanged ends as one that normalizes
and saves every listing, whatever was ingested before, if what a listing is
normalized to depends on nothing that its content hash leaves out.  The hash
sorts the keys of nested objects, which normalization visits in their order.
-/

namespace RealEstateTracker.Cycle

open Foundation Domain Application Persistence

/-- The canonical data of a stored property, without the times of its scrapes. -/
def canonicalRow (row : PropertyRow) : PropertyRow :=
  { row with firstSeenAt := 0, lastSeenAt := 0 }

section Ingests

variable [runtime : PythonRuntime] [PersistenceRuntime]

def RunAlertCycle.resolveWith (cycle : RunAlertCycle)
    (body : Resolved → RawListing → CycleTxn Resolved) (planned : PlannedQuery)
    (now : DateTime) : CycleTxn (List PropertyId) := do
  let cached ← Txn.query (SearchCacheRepository.get planned.signature now)
  match cached with
  | some propertyIds => return propertyIds
  | none => cycle.scrapeWith body planned now

theorem resolveCandidates_eq (cycle : RunAlertCycle) (planned : PlannedQuery)
    (now : DateTime) : cycle.resolveCandidates planned now =
      cycle.resolveWith (resolveListing planned.portalSlug) planned now := rfl

/-- The variant that normalizes and saves every listing. -/
def RunAlertCycle.resolveAlways (cycle : RunAlertCycle) (planned : PlannedQuery)
    (now : DateTime) : CycleTxn (List PropertyId) :=
  cycle.resolveWith (normalizeListing planned.portalSlug) planned now

def canonicalText (raw : RawPayload) : String :=
  String.ofList (jsonObject (dumpFields raw.entries))

/-! ## Histories -/

variable (fieldMap : String → List (String × String)) (planned : Nat → PlannedQuery)
  (oracle : Oracle CycleCall CycleAnswer)

def Shown (workers : List Nat) (portalSlug : String) (listing : RawListing) : Prop :=
  ∃ i ∈ workers, portalSlug = (planned i).portalSlug ∧
    ∃ listings, fetched (oracle i) (planned i) 2 = .ok listings ∧ listing ∈ listings

/--
Two payloads of one listing that are the same text once the keys are sorted are
normalized to the same property.
-/
def NormalizedAlike (shown : String → RawListing → Prop) : Prop :=
  ∀ portalSlug listing portalSlug' listing', shown portalSlug listing →
    shown portalSlug' listing' → listingKey listing = listingKey listing' →
      canonicalText listing.raw = canonicalText listing'.raw →
        (normalizers fieldMap portalSlug listing).map (·.property) =
          (normalizers fieldMap portalSlug' listing').map (·.property)

/-- The same identifiers or the same exception, and the same data behind each listing. -/
structure SameIngestion (db : Store)
    (ended ended' : Ended Store Write CycleCall CycleAnswer PyError (List PropertyId)) :
    Prop where
  outcome : ended.outcome = ended'.outcome
  listings : ∀ portalSlug externalId,
    (PortalListingRepository.find portalSlug externalId (ended.session.view db)).map
        (·.propertyId) =
      (PortalListingRepository.find portalSlug externalId (ended'.session.view db)).map
        (·.propertyId)
  properties : ∀ id,
    (PropertyRepository.find id (ended.session.view db)).map canonicalRow =
      (PropertyRepository.find id (ended'.session.view db)).map canonicalRow

/-! ## The data of the catalogue -/

def observeRow (row : PropertyRow) : PropertyRow :=
  canonicalRow (PropertyRepository.readRow row)

omit runtime in
theorem observeRow_readRow (hrounds : RoundsOnce) (row : PropertyRow) :
    observeRow (PropertyRepository.readRow row) =
      canonicalRow (PropertyRepository.readRow row) :=
  congrArg canonicalRow (readRow_readRow hrounds row)

omit runtime in
theorem observes_observeRow (hrounds : RoundsOnce) : Observes observeRow := by
  intro prop now row stamp db hrow
  obtain ⟨firstSeenAt, hfind⟩ := @find_added _ hrounds prop now row
    (PropertyRepository.id_toModel hrow) stamp db
  rw [hfind, Option.map_some, observeRow_readRow hrounds]
  rfl

omit runtime in
theorem items_catalogue (hrounds : RoundsOnce) (db : Store) (id : PropertyId) :
    (catalogue observeRow db).items id =
      (PropertyRepository.find id db).map canonicalRow := by
  simp only [catalogue, PropertyRepository.find, Option.map_map]
  exact Option.map_congr fun row _ => observeRow_readRow hrounds row

variable {fieldMap} {planned} {oracle} {portalSlug : String} {listing : RawListing}

def seenAs (fieldMap : String → List (String × String)) (portalSlug : String)
    (listing : RawListing) : ListingSighting PropertyRow :=
  sightingOf (normalizers fieldMap) observeRow portalSlug listing 0

omit runtime in
theorem toModel_observeRow (prop : Property) (time time' : DateTime) :
    (PropertyRepository.toModel prop time).map observeRow =
      (PropertyRepository.toModel prop time').map observeRow := by
  unfold PropertyRepository.toModel
  cases prop.pricePerM2 <;> rfl

theorem sightingOf_eq_seenAs (portalSlug : String) (listing : RawListing)
    (time : DateTime) :
    sightingOf (normalizers fieldMap) observeRow portalSlug listing time =
      seenAs fieldMap portalSlug listing := by
  simp only [seenAs, sightingOf, made, toModel_observeRow _ time 0]

theorem eq_map_of_seenAs {answers : Nat → (request : CycleCall) → CycleAnswer request}
    {listings : List RawListing} {xs : List (ListingSighting PropertyRow)}
    (h : SeenAs (normalizers fieldMap) observeRow answers portalSlug listings xs) :
    xs = listings.map (seenAs fieldMap portalSlug) := by
  induction h with
  | nil => rfl
  | cons hx _ ih =>
      obtain ⟨op, rfl⟩ := hx
      rw [List.map_cons, sightingOf_eq_seenAs, ih]

/-! ## What was seen -/

def SeenBy (fieldMap : String → List (String × String))
    (shown : String → RawListing → Prop) (x : ListingSighting PropertyRow) : Prop :=
  ∃ portalSlug listing, shown portalSlug listing ∧ x = seenAs fieldMap portalSlug listing

omit [PersistenceRuntime] in
/-- The first colon of the name ends the slug. -/
theorem propertyOf_injective (huuid : Function.Injective runtime.uuid5)
    {key key' : String × String} (hkey : ':' ∉ key.1.toList) (hkey' : ':' ∉ key'.1.toList)
    (h : propertyOf key = propertyOf key') : key = key' := by
  have hnames := congrArg String.toList (huuid h)
  simp only [String.toList_append, List.append_assoc] at hnames
  have hnames := List.append_cancel_left (List.append_cancel_left hnames)
  obtain ⟨hslug, hid⟩ := append_cons_inj hkey hkey' hnames
  exact Prod.ext (String.toList_inj.mp hslug) (String.toList_inj.mp hid)

theorem determined_seenBy (hsha : Function.Injective runtime.sha256)
    {shown : String → RawListing → Prop} (halike : NormalizedAlike fieldMap shown) :
    Catalogue.Determined (SeenBy fieldMap shown) := by
  rintro _ _ ⟨portalSlug, listing, hshown, rfl⟩ ⟨portalSlug', listing', hshown', rfl⟩
    hkey hhash
  have hsame := halike _ _ _ _ hshown hshown' hkey (hsha hhash)
  have hmade : ∀ portalSlug listing,
      (seenAs fieldMap portalSlug listing).found =
        ((normalizers fieldMap portalSlug listing).map (·.property)).map
          (Option.map fun prop =>
            (prop.id, (PropertyRepository.toModel prop 0).map observeRow)) := by
    intro portalSlug listing
    simp only [seenAs, sightingOf, made]
    cases normalizers fieldMap portalSlug listing <;> rfl
  rw [hmade, hmade, hsame]

theorem apart_seenBy (huuid : Function.Injective runtime.uuid5)
    {shown : String → RawListing → Prop}
    (hslugs : ∀ portalSlug listing, shown portalSlug listing →
      ':' ∉ listing.portalSlug.toList) :
    Catalogue.Apart (SeenBy fieldMap shown) := by
  rintro _ _ ⟨portalSlug, listing, hshown, rfl⟩ ⟨portalSlug', listing', hshown', rfl⟩
    item data data' hfound hfound'
  have hitem := (made_eq_some hfound).1
  have hitem' := (made_eq_some hfound').1
  exact propertyOf_injective huuid (hslugs _ _ hshown) (hslugs _ _ hshown')
    (hitem.symm.trans hitem')

/-! ## Resolving candidates, either way -/

variable {answers : Nat → (request : CycleCall) → CycleAnswer request} {s : CycleSession}
  {db : Store} {unused : Nat → Prop}

def resolveRun (fieldMap : String → List (String × String))
    (step : ListingCatalogue PropertyRow → ListingSighting PropertyRow →
      Except PyError (Option PropertyId × ListingCatalogue PropertyRow))
    (planned : PlannedQuery) (now : DateTime)
    (answers : Nat → (request : CycleCall) → CycleAnswer request) (s : CycleSession)
    (db : Store) : Except PyError (List PropertyId) × ListingCatalogue PropertyRow :=
  match SearchCacheRepository.get planned.signature now (s.view db) with
  | some ids => (.ok ids, catalogue observeRow (s.view db))
  | none =>
      match fetched answers planned (s.ops + 1) with
      | .error error => (.error error, catalogue observeRow (s.view db))
      | .ok listings => Catalogue.run step (catalogue observeRow (s.view db))
          (listings.map (seenAs fieldMap planned.portalSlug)) []

theorem ingests_resolveWith {body : Resolved → RawListing → CycleTxn Resolved}
    {step : ListingCatalogue PropertyRow → ListingSighting PropertyRow →
      Except PyError (Option PropertyId × ListingCatalogue PropertyRow)}
    {query : PlannedQuery}
    (hbody : ∀ (s : CycleSession) resolved listing,
      ListingIds unused s.txn s.ops (s.view db) →
        ∃ op, Ingests Resolved.propertyIds observeRow unused s db
          ((body resolved listing).eval answers s db)
          (Catalogue.run step (catalogue observeRow (s.view db))
            [sightingOf (normalizers fieldMap) observeRow query.portalSlug listing
              (answers op .utcNow)] resolved.propertyIds))
    (cycle : RunAlertCycle) (now : DateTime)
    (hids : ListingIds unused s.txn s.ops (s.view db)) :
    Ingests id observeRow unused s db ((cycle.resolveWith body query now).eval answers s db)
      (resolveRun fieldMap step query now answers s db) := by
  have hview : (s.wrote []).view db = s.view db := by
    rw [Session.view_wrote, applyAll_nil]
  have hqueried : ListingIds unused s.txn (s.ops + 1) (s.view db) :=
    hids.later (Nat.le_succ _)
  simp only [RunAlertCycle.resolveWith, Txn.query, Txn.bind_eq, Txn.bind, Txn.eval,
    resolveRun]
  cases SearchCacheRepository.get query.signature now (s.view db) with
  | some ids =>
      refine ⟨rfl, rfl, ?_, rfl, ?_⟩
      · simpa [Txn.eval, hview] using hqueried
      · simp [Txn.eval, hview]
  | none =>
      obtain ⟨xs, hseen, hscrape⟩ := ingests_scrapeWith (s := s.wrote []) hbody cycle now
        (by rw [hview]; exact hqueried)
      rw [hview, Session.ops_wrote] at hscrape
      rw [Session.ops_wrote] at hseen
      dsimp only
      cases hpage : fetched answers query (s.ops + 1) with
      | error error =>
          rw [hpage] at hscrape
          exact ⟨hscrape.store, hscrape.txn, hscrape.ids, hscrape.outcome,
            hscrape.catalogue⟩
      | ok listings =>
          rw [hpage, eq_map_of_seenAs (hseen listings hpage)] at hscrape
          exact ⟨hscrape.store, hscrape.txn, hscrape.ids, hscrape.outcome,
            hscrape.catalogue⟩

variable (s db) in
theorem ingests_resolveCandidates (hrounds : RoundsOnce)
    (hnormalizes : Normalizes (normalizers fieldMap) answers) (cycle : RunAlertCycle)
    (query : PlannedQuery) (now : DateTime)
    (hids : ListingIds unused s.txn s.ops (s.view db)) :
    Ingests id observeRow unused s db
      ((cycle.resolveCandidates query now).eval answers s db)
      (resolveRun fieldMap Catalogue.refresh query now answers s db) := by
  rw [resolveCandidates_eq]
  exact ingests_resolveWith (fun _ resolved listing hids => ⟨_, ingests_resolveListing
    (observes_observeRow hrounds) hnormalizes hids _ listing resolved⟩) cycle now hids

variable (s db) in
theorem ingests_resolveAlways (hrounds : RoundsOnce)
    (hnormalizes : Normalizes (normalizers fieldMap) answers) (cycle : RunAlertCycle)
    (query : PlannedQuery) (now : DateTime)
    (hids : ListingIds unused s.txn s.ops (s.view db)) :
    Ingests id observeRow unused s db
      ((cycle.resolveAlways query now).eval answers s db)
      (resolveRun fieldMap Catalogue.save query now answers s db) :=
  ingests_resolveWith (fun _ resolved listing hids => ⟨_, ingests_normalizeListing
    (observes_observeRow hrounds) hnormalizes hids _ listing resolved⟩) cycle now hids

variable (s db) in
theorem sameRun_resolveRun {shown : String → RawListing → Prop}
    (hdetermined : Catalogue.Determined (SeenBy fieldMap shown))
    (hapart : Catalogue.Apart (SeenBy fieldMap shown)) {query : PlannedQuery}
    (hshown : ∀ listings, fetched answers query (s.ops + 1) = .ok listings →
      ∀ listing ∈ listings, shown query.portalSlug listing) (now : DateTime)
    (hsound : Catalogue.Sound (SeenBy fieldMap shown) (catalogue observeRow (s.view db))) :
    Catalogue.SameRun
        (resolveRun fieldMap Catalogue.refresh query now answers s db)
        (resolveRun fieldMap Catalogue.save query now answers s db) ∧
      Catalogue.Sound (SeenBy fieldMap shown)
        (resolveRun fieldMap Catalogue.refresh query now answers s db).2 := by
  unfold resolveRun
  cases SearchCacheRepository.get query.signature now (s.view db) with
  | some ids => exact ⟨⟨rfl, .refl _⟩, hsound⟩
  | none =>
      dsimp only
      cases hpage : fetched answers query (s.ops + 1) with
      | error error => exact ⟨⟨rfl, .refl _⟩, hsound⟩
      | ok listings =>
          refine Catalogue.run_refresh hdetermined hapart ?_ hsound (.refl _) []
          rw [List.forall_mem_map]
          exact fun listing hlisting => ⟨_, listing, hshown _ hpage listing hlisting, rfl⟩

omit runtime in
theorem sameIngestion_of_sameRun (hrounds : RoundsOnce)
    {ended ended' : Ended Store Write CycleCall CycleAnswer PyError (List PropertyId)}
    {result result' : Except PyError (List PropertyId) × ListingCatalogue PropertyRow}
    (h : Ingests id observeRow unused s db ended result)
    (h' : Ingests id observeRow unused s db ended' result')
    (hsame : Catalogue.SameRun result result') : SameIngestion db ended ended' where
  outcome := by
    have houtcome := h.outcome.trans (hsame.outcome.trans h'.outcome.symm)
    simpa using houtcome
  listings portalSlug externalId := by
    have hentries := hsame.similar.entries (portalSlug, externalId)
    rw [← h.catalogue, ← h'.catalogue] at hentries
    have hitems := congrArg (Option.map Prod.snd) hentries
    simpa [catalogue, Function.comp_def] using hitems
  properties id := by
    have hitems := congrFun hsame.similar.items id
    rwa [← h.catalogue, ← h'.catalogue, items_catalogue hrounds,
      items_catalogue hrounds] at hitems

/-! ## Sequences of ingests -/

/--
What a sequence of workers leaves: listing rows with identifiers that no other
worker draws, and a sound catalogue.
-/
structure Ingested (fieldMap : String → List (String × String))
    (shown : String → RawListing → Prop) (order : List Nat) (store : Store) : Prop where
  nodup : (store.listings.map (·.id)).Nodup
  drawn : ∀ row ∈ store.listings, ∀ i ∉ order, ∀ op, row.id ≠ .uuid4 i op 0
  sound : Catalogue.Sound (SeenBy fieldMap shown) (catalogue observeRow store)

variable {shown : String → RawListing → Prop} {order : List Nat} {store : Store} {i : Nat}

theorem Ingested.congr {store' : Store} (h : Ingested fieldMap shown order store)
    (hlistings : store'.listings = store.listings)
    (hproperties : store'.properties = store.properties) :
    Ingested fieldMap shown order store' where
  nodup := hlistings ▸ h.nodup
  drawn := hlistings ▸ h.drawn
  sound := by
    rw [catalogue_congr observeRow hlistings hproperties]
    exact h.sound

theorem Ingested.mono (h : Ingested fieldMap shown order store) (i : Nat) :
    Ingested fieldMap shown (order ++ [i]) store :=
  { h with drawn := fun row hrow j hj =>
      h.drawn row hrow j fun hmem => hj (List.mem_append_left _ hmem) }

def started (oracle : Oracle CycleCall CycleAnswer) (i : Nat) : CycleSession :=
  (Session.start i).answered .clock (oracle i 0 .clock)

theorem Ingested.listingIds (h : Ingested fieldMap shown order store) (hi : i ∉ order)
    (oracle : Oracle CycleCall CycleAnswer) :
    ListingIds (· ∉ order ++ [i]) (started oracle i).txn (started oracle i).ops store where
  nodup := h.nodup
  used hi' := hi' (by simp [started])
  fresh row hrow later _ := h.drawn row hrow i hi later
  unused row hrow other hother op := h.drawn row hrow other
    (fun hmem => hother (List.mem_append_left _ hmem)) op

theorem ingested_alone (hrounds : RoundsOnce)
    (hdetermined : Catalogue.Determined (SeenBy fieldMap shown))
    (hapart : Catalogue.Apart (SeenBy fieldMap shown)) (cycles : Nat → RunAlertCycle)
    (hnormalizes : Normalizes (normalizers fieldMap) (oracle i))
    (hshown : ∀ listings, fetched (oracle i) (planned i) 2 = .ok listings →
      ∀ listing ∈ listings, shown (planned i).portalSlug listing)
    (hi : i ∉ order) (h : Ingested fieldMap shown order store) :
    Ingested fieldMap shown (order ++ [i])
      (Sys.alone oracle (fun j => (cycles j).runOne (planned j)) i store).store := by
  have hresolved := ingests_resolveCandidates (started oracle i) store hrounds
    hnormalizes (cycles i) (planned i) (oracle i 0 .clock) (h.listingIds hi oracle)
  have hsound := (sameRun_resolveRun (started oracle i) store hdetermined hapart hshown
    (oracle i 0 .clock) h.sound).2
  have heval : Sys.alone oracle (fun j => (cycles j).runOne (planned j)) i store =
      ((cycles i).runAt (planned i) (oracle i 0 .clock)).eval (oracle i)
        (started oracle i) store := rfl
  rw [heval, RunAlertCycle.runAt, Txn.bind_eq, Txn.eval_bind, Txn.eval_attempt,
    Txn.andThen]
  generalize ((cycles i).resolveCandidates (planned i) (oracle i 0 .clock)).eval (oracle i)
    (started oracle i) store = ended at hresolved ⊢
  obtain ⟨outcome, s', store'⟩ := ended
  obtain ⟨rfl, -, hids, -, hcatalogue⟩ := hresolved
  have hview : Ingested fieldMap shown (order ++ [i]) (s'.view store') :=
    ⟨hids.nodup, fun row hrow j hj => hids.unused row hrow j hj, by
      dsimp only at hcatalogue
      rw [hcatalogue]
      exact hsound⟩
  have hkeeps : ∀ tables : List Table, .listings ∉ tables → .properties ∉ tables →
      ∀ write, InTables tables write → ∀ db, Ingested fieldMap shown (order ++ [i]) db →
        Ingested fieldMap shown (order ++ [i]) (Database.apply write db) := by
    intro tables hlistings hproperties write hwrite db hdb
    have hin : AllIn tables [write] := fun other hother => by
      rwa [List.mem_singleton.mp hother]
    exact hdb.congr (listings_applyAll (hin.spares hlistings) db)
      (properties_applyAll (hin.spares hproperties) db)
  cases outcome with
  | ok propertyIds =>
      exact Txn.store_eval_of_within
        (within_persistMatches (cycles i) (planned i) propertyIds _)
        (hkeeps _ (by decide) (by decide)) hview (h.mono i)
  | error error =>
      cases error with
      | scraperError error =>
          exact Txn.store_eval_of_within (within_recordFailure (planned i) error _)
            (hkeeps _ (by decide) (by decide)) hview (h.mono i)
      | _ => exact h.mono i

theorem ingested_serialStore (hrounds : RoundsOnce)
    (hdetermined : Catalogue.Determined (SeenBy fieldMap shown))
    (hapart : Catalogue.Apart (SeenBy fieldMap shown)) (cycles : Nat → RunAlertCycle)
    (hnormalizes : ∀ i, Normalizes (normalizers fieldMap) (oracle i))
    (hnodup : order.Nodup)
    (hshown : ∀ i ∈ order, ∀ listings, fetched (oracle i) (planned i) 2 = .ok listings →
      ∀ listing ∈ listings, shown (planned i).portalSlug listing)
    {db : Store} (hlistings : db.listings = []) :
    Ingested fieldMap shown order
      (Sys.serialStore oracle (fun j => (cycles j).runOne (planned j)) db order) := by
  induction order using List.reverseRecOn with
  | nil =>
      constructor
      · simp [hlistings]
      · simp [hlistings]
      · intro key entry hentry
        simp [catalogue, PortalListingRepository.find, hlistings] at hentry
  | append_singleton order i ih =>
      obtain ⟨hnodup, -, hdisjoint⟩ := List.nodup_append.mp hnodup
      have hi : i ∉ order := fun hmem => hdisjoint i hmem i (.head _) rfl
      rw [Sys.serialStore_concat]
      exact ingested_alone hrounds hdetermined hapart cycles (hnormalizes i)
        (hshown i (by simp)) hi (ih hnodup fun j hj => hshown j (by simp [hj]))

/--
After any sequence of ingests, resolving candidates returns the same identifiers and
leaves the same data behind each listing as the variant that skips nothing, if two
payloads of one listing with the same canonical text are always normalized alike.
-/
theorem skipping_is_an_optimization (huuid : Function.Injective runtime.uuid5)
    (hsha : Function.Injective runtime.sha256) (hrounds : RoundsOnce)
    (cycles : Nat → RunAlertCycle)
    (hnormalizes : ∀ i, Normalizes (normalizers fieldMap) (oracle i)) (db : Store)
    (hlistings : db.listings = []) (order : List Nat) (i : Nat)
    (hnodup : (order ++ [i]).Nodup)
    (hslugs : ∀ portalSlug listing, Shown planned oracle (order ++ [i]) portalSlug listing →
      ':' ∉ listing.portalSlug.toList)
    (halike : NormalizedAlike fieldMap (Shown planned oracle (order ++ [i]))) :
    let store := Sys.serialStore oracle (fun j => (cycles j).runOne (planned j)) db order
    let now := oracle i 0 .clock
    SameIngestion store
      (((cycles i).resolveCandidates (planned i) now).eval (oracle i) (started oracle i)
        store)
      (((cycles i).resolveAlways (planned i) now).eval (oracle i) (started oracle i)
        store) := by
  intro store now
  have hdetermined := determined_seenBy hsha halike
  have hapart := @apart_seenBy _ _ fieldMap huuid _ hslugs
  have hshown : ∀ j ∈ order ++ [i], ∀ listings,
      fetched (oracle j) (planned j) 2 = .ok listings → ∀ listing ∈ listings,
        Shown planned oracle (order ++ [i]) (planned j).portalSlug listing :=
    fun j hj listings hpage listing hlisting => ⟨j, hj, rfl, listings, hpage, hlisting⟩
  obtain ⟨hnodup', -, hdisjoint⟩ := List.nodup_append.mp hnodup
  have hi : i ∉ order := fun hmem => hdisjoint i hmem i (.head _) rfl
  have hingested : Ingested fieldMap (Shown planned oracle (order ++ [i])) order store :=
    ingested_serialStore hrounds hdetermined hapart cycles hnormalizes hnodup'
      (fun j hj => hshown j (List.mem_append_left _ hj)) hlistings
  have hids := hingested.listingIds hi oracle
  have hskips := ingests_resolveCandidates (started oracle i) store hrounds
    (hnormalizes i) (cycles i) (planned i) now hids
  have hsaves := ingests_resolveAlways (started oracle i) store hrounds
    (hnormalizes i) (cycles i) (planned i) now hids
  have hsame := (sameRun_resolveRun (started oracle i) store hdetermined hapart
    (hshown i (by simp)) now hingested.sound).1
  exact sameIngestion_of_sameRun hrounds hskips hsaves hsame

end Ingests

/-! ## A title whose keys change places -/

def titledListing (title : Json) : RawListing :=
  ⟨"idealista", "1", "", 0, Dict.empty.set "titulo" title⟩

theorem colon_notMem_titled (title : Json) :
    ':' ∉ (titledListing title).portalSlug.toList := by
  change ':' ∉ "idealista".toList
  decide

/-- Worker `i` is shown one flat, with the title of its own scrape, at the time `i`. -/
def titledOracle (title : Nat → Json) : Oracle CycleCall CycleAnswer := fun i _ request =>
  match request with
  | .clock | .utcNow => (i : Int)
  | .scraperForPortal _ | .normalizerForPortal _ => .ok ()
  | .fetch _ => .ok [titledListing (title i)]
  | .normalize portalSlug listing =>
      @normalizers .plain (fun _ => Infrastructure.idealistaFieldMap) portalSlug listing

def forgetfulCycle : RunAlertCycle := ⟨.empty, defaultRegistry, 0, fun _ => 1⟩

def idleQuery : PlannedQuery := ⟨"idealista", "idealista|", ⟨"idealista", .empty⟩, []⟩

def titledStore (title : Nat → Json) : Store :=
  Sys.serialStore (titledOracle title) (fun _ =>
    @RunAlertCycle.runOne .plain .plain forgetfulCycle idleQuery) .empty [0]

/-- The title is an object, and the second scrape shows its keys the other way round. -/
def shuffledTitle (i : Nat) : Json :=
  .obj (if i = 0 then [("a", .int 1), ("b", .int 2)] else [("b", .int 2), ("a", .int 1)])

def storedTitle (db : Store) : Option String :=
  (@PropertyRepository.find .plain (@propertyOf .plain ("idealista", "1")) db).map
    (·.title)

theorem storedTitle_shuffled :
    storedTitle (((@RunAlertCycle.resolveCandidates .plain .plain forgetfulCycle idleQuery
        1).eval (titledOracle shuffledTitle 1) (started (titledOracle shuffledTitle) 1)
          (titledStore shuffledTitle)).session.view (titledStore shuffledTitle)) =
        some "\x7b'a': 1, 'b': 2\x7d" ∧
      storedTitle (((@RunAlertCycle.resolveAlways .plain .plain forgetfulCycle idleQuery
        1).eval (titledOracle shuffledTitle 1) (started (titledOracle shuffledTitle) 1)
          (titledStore shuffledTitle)).session.view (titledStore shuffledTitle)) =
        some "\x7b'b': 2, 'a': 1\x7d" :=
  ⟨rfl, rfl⟩

/-- The hash is the same, and the title that is kept is not the one that was scraped. -/
theorem skipping_is_not_an_optimization :
    ¬∀ (fieldMap : String → List (String × String)) (planned : Nat → PlannedQuery)
      (oracle : Oracle CycleCall CycleAnswer) (cycles : Nat → RunAlertCycle),
      (∀ i, Normalizes (@normalizers .plain fieldMap) (oracle i)) →
      ∀ (db : Store), db.listings = [] → ∀ (order : List Nat) (i : Nat),
      (order ++ [i]).Nodup →
      (∀ portalSlug listing, Shown planned oracle (order ++ [i]) portalSlug listing →
        ':' ∉ listing.portalSlug.toList) →
      let store := Sys.serialStore oracle (fun j =>
        @RunAlertCycle.runOne .plain .plain (cycles j) (planned j)) db order
      let now := oracle i 0 .clock
      @SameIngestion .plain store
        ((@RunAlertCycle.resolveCandidates .plain .plain (cycles i) (planned i) now).eval
          (oracle i) (started oracle i) store)
        ((@RunAlertCycle.resolveAlways .plain .plain (cycles i) (planned i) now).eval
          (oracle i) (started oracle i) store) := by
  intro h
  have hsame := h (fun _ => Infrastructure.idealistaFieldMap) (fun _ => idleQuery)
    (titledOracle shuffledTitle) (fun _ => forgetfulCycle) (fun _ _ _ _ => rfl) .empty rfl
    [0] 1 (by decide) fun portalSlug listing hshown => by
      obtain ⟨i, -, -, listings, hpage, hlisting⟩ := hshown
      obtain rfl := Except.ok.inj hpage
      rw [List.mem_singleton.mp hlisting]
      exact colon_notMem_titled (shuffledTitle i)
  have htitles := congrArg (Option.map PropertyRow.title)
    (@SameIngestion.properties .plain _ _ _ hsame (@propertyOf .plain ("idealista", "1")))
  simp only [Option.map_map] at htitles
  obtain ⟨hskipped, hsaved⟩ := storedTitle_shuffled
  exact absurd (hskipped.symm.trans (htitles.trans hsaved)) (by decide)

theorem shown_titled {title : Json} {portalSlug : String} {listing : RawListing}
    (h : Shown (fun _ => idleQuery) (titledOracle fun _ => title) [0, 1] portalSlug
      listing) : portalSlug = "idealista" ∧ listing = titledListing title := by
  obtain ⟨i, -, hslug, listings, hpage, hlisting⟩ := h
  obtain rfl := Except.ok.inj hpage
  exact ⟨hslug, List.mem_singleton.mp hlisting⟩

theorem skipping_is_an_optimization_flat :
    let oracle := titledOracle fun _ => .str "Flat"
    let store := titledStore fun _ => .str "Flat"
    @SameIngestion .plain store
      ((@RunAlertCycle.resolveCandidates .plain .plain forgetfulCycle idleQuery 1).eval
        (oracle 1) (started oracle 1) store)
      ((@RunAlertCycle.resolveAlways .plain .plain forgetfulCycle idleQuery 1).eval
        (oracle 1) (started oracle 1) store) := by
  refine @skipping_is_an_optimization .plain .plain
    (fun _ => Infrastructure.idealistaFieldMap) (fun _ => idleQuery)
    (titledOracle fun _ => .str "Flat") (fun _ _ h => h) (fun _ _ h => h) (fun _ _ => rfl)
    (fun _ => forgetfulCycle) (fun _ _ _ _ => rfl) .empty rfl [0] 1 (by decide) ?_ ?_
  · intro portalSlug listing hshown
    rw [(shown_titled hshown).2]
    exact colon_notMem_titled _
  · intro portalSlug listing portalSlug' listing' hshown hshown' _ _
    obtain ⟨rfl, rfl⟩ := shown_titled hshown
    obtain ⟨rfl, rfl⟩ := shown_titled hshown'
    rfl

end RealEstateTracker.Cycle
