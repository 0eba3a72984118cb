import RealEstateTracker.Cycle.CacheAge
import RealEstateTracker.Cycle.Ingestion
import RealEstateTracker.Foundation.Lockstep
import RealEstateTracker.Foundation.RelyGuarantee
import RealEstateTracker.Scraping.SharedQueries

/-!
# Transparency of the search cache

A cached search holds the identifiers of its properties, and the properties are
shared: another search that shows the same listing with other contents overwrites
them.  Where a listing has the same contents in every response, scraping again
finds every listing unchanged, and the matches are those of the cached search.
-/

namespace RealEstateTracker.Cycle

open Foundation Domain Application Persistence

/-! ## Portals with fixed responses -/

/-- Portals that answer a query with the same page each time, and their normalizers. -/
structure Portals where
  response : PortalQuery → List RawListing
  normalizer : String → RawListing → Except PyError NormalizationResult

namespace Portals

def Answers (portals : Portals) : (request : CycleCall) → CycleAnswer request → Prop
  | .clock, _ | .utcNow, _ => True
  | .scraperForPortal _, answer | .normalizerForPortal _, answer => answer = .ok ()
  | .fetch query, answer => answer = .ok (portals.response query)
  | .normalize portalSlug listing, answer =>
      answer = portals.normalizer portalSlug listing

def idOf (portals : Portals) (planned : PlannedQuery) (listing : RawListing) :
    Except PyError (Option PropertyId) :=
  (portals.normalizer planned.portalSlug listing).map fun result =>
    result.property.map (·.id)

def ids (portals : Portals) (planned : PlannedQuery) (listings : List RawListing) :
    List PropertyId :=
  listings.filterMap fun listing => (portals.idOf planned listing).toOption.join

/--
A listing has the same contents in every response that shows it, and is
normalized to the same property.
-/
def Steady [PythonRuntime] (portals : Portals) (planned : Nat → PlannedQuery) : Prop :=
  ∀ i, ∀ a ∈ portals.response (planned i).query,
    ∀ j, ∀ b ∈ portals.response (planned j).query,
      a.portalSlug = b.portalSlug → a.externalId = b.externalId →
        contentHash a.raw = contentHash b.raw ∧
          portals.idOf (planned i) a = portals.idOf (planned j) b

end Portals

/-- Planned queries with the same signature are the same search. -/
def SameSearches (planned : Nat → PlannedQuery) : Prop :=
  ∀ i j, (planned i).signature = (planned j).signature →
    (planned i).portalSlug = (planned j).portalSlug ∧
      (planned i).query = (planned j).query

/-! ## Listings in the store -/

def Listed (key : String × String) (db : Store) : Prop :=
  ∃ row ∈ db.listings, rowKey row = key

section Listed

variable {key : String × String} {write : Write} {writes : List Write} {db : Store}

theorem listed_apply : Listed key (write.apply db) ↔
    Listed key db ∨ ∃ row, write = .insertListing row ∧ rowKey row = key := by
  cases write with
  | insertListing row => simp [Listed, Write.apply, or_and_right, exists_or]
  | updateListing loaded model =>
      simp only [Listed, Write.apply, updateWhere, List.mem_map, reduceCtorEq,
        false_and, exists_false, or_false]
      constructor
      · rintro ⟨_, ⟨stored, hstored, rfl⟩, hkey⟩
        refine ⟨stored, hstored, ?_⟩
        split at hkey <;> exact hkey
      · rintro ⟨stored, hstored, hkey⟩
        refine ⟨_, ⟨stored, hstored, rfl⟩, ?_⟩
        split <;> exact hkey
  | _ => simp [Listed, Write.apply]

/-- Listings are there as soon as one is inserted, and they are never removed. -/
theorem listed_applyAll : Listed key (applyAll writes db) ↔
    Listed key db ∨ ∃ row, .insertListing row ∈ writes ∧ rowKey row = key := by
  induction writes generalizing db with
  | nil => simp
  | cons write writes ih =>
      rw [applyAll_cons, ih, apply_eq, listed_apply, or_assoc]
      refine or_congr_right ?_
      simp only [List.mem_cons, or_and_right, exists_or, eq_comm]

theorem exists_find_of_listed {portalSlug externalId : String}
    (h : Listed (portalSlug, externalId) db) :
    ∃ row, PortalListingRepository.find portalSlug externalId db = some row := by
  obtain ⟨row, hrow, hkey⟩ := h
  refine Option.isSome_iff_exists.mp (List.find?_isSome.mpr ⟨row, hrow, ?_⟩)
  simpa [rowKey] using hkey

end Listed

/-! ## What a search leaves behind -/

section Searches

variable [PythonRuntime] (portals : Portals) (planned : Nat → PlannedQuery)

/-- A row that stores a listing of some response. -/
def Stores (row : ListingRow) : Prop :=
  ∃ j, ∃ listing ∈ portals.response (planned j).query,
    rowKey row = listingKey listing ∧ row.contentHash = contentHash listing.raw ∧
      portals.idOf (planned j) listing = .ok (some row.propertyId)

/-- A listing that a search is done with. -/
def Settled (query : PlannedQuery) (db : Store) (listing : RawListing) : Prop :=
  ∃ found, portals.idOf query listing = .ok found ∧
    (found ≠ none → Listed (listingKey listing) db)

/-- A cached row that holds the properties of a response. -/
def Remembers (db : Store) (row : CacheRow) : Prop :=
  ∃ j, row.querySignature = (planned j).signature ∧
    row.propertyIds = portals.ids (planned j) (portals.response (planned j).query) ∧
    ∀ listing ∈ portals.response (planned j).query,
      Settled portals (planned j) db listing

/-- What a worker promises of a write; a statement inserts listings of one key. -/
def Promised (key : String × String) (s : CycleSession) (view : Store) : Write → Prop
  | .insertListing row => row.id = .uuid4 s.txn s.ops 0 ∧ rowKey row = key ∧
      Stores portals planned row
  | .updateListing loaded model => Stores portals planned model ∧
      ∃ row ∈ view.listings, row.id = loaded.id ∧ rowKey row = rowKey model
  | .insertCache row | .updateCache row => Remembers portals planned view row
  | _ => True

/-- The contract of a worker: it finds what the others promise. -/
def searchContract : Contract Store Write CycleCall CycleAnswer where
  finds s db := ∀ row ∈ (s.view db).listings, Stores portals planned row
  grows db db' := ∀ key, Listed key db → Listed key db'
  answers := portals.Answers
  promises s db writes := ∃ key, ∀ write ∈ writes,
    Promised portals planned key s (s.view db) write
  refl _ _ h := h
  trans _ _ _ h h' key hkey := h' key (h key hkey)

end Searches

/-! ## Workers keep the contract -/

def Grown (s : CycleSession) (db : Store) (s' : CycleSession) (db' : Store) : Prop :=
  ∀ key, Listed key (s.view db) → Listed key (s'.view db')

theorem Grown.refl (s : CycleSession) (db : Store) : Grown s db s db := fun _ h => h

theorem Grown.trans {s s' s'' : CycleSession} {db db' db'' : Store}
    (h : Grown s db s' db') (h' : Grown s' db' s'' db'') : Grown s db s'' db'' :=
  fun key hkey => h' key (h key hkey)

theorem Grown.later (s : CycleSession) {db db' : Store}
    (h : ∀ key, Listed key db → Listed key db') : Grown s db s db' := fun key hkey =>
  listed_applyAll.mpr ((listed_applyAll.mp hkey).imp_left (h key))

theorem Grown.wrote (s : CycleSession) (db : Store) (writes : List Write) :
    Grown s db (s.wrote writes) db := fun key hkey => by
  rw [Session.view_wrote]
  exact listed_applyAll.mpr (.inl hkey)

def Elsewhere (write : Write) : Prop :=
  write.table ≠ .listings ∧ write.table ≠ .caches

theorem elsewhere_of_inTables {tables : List Table} (hlistings : .listings ∉ tables)
    (hcaches : .caches ∉ tables) {write : Write} (h : InTables tables write) :
    Elsewhere write :=
  ⟨fun heq => hlistings (heq ▸ h), fun heq => hcaches (heq ▸ h)⟩

section Workers

variable [PythonRuntime] {portals : Portals} {planned : Nat → PlannedQuery}
  {s : CycleSession} {db : Store} {i : Nat}

theorem promised_of_elsewhere {key : String × String} {view : Store} {write : Write}
    (h : Elsewhere write) : Promised portals planned key s view write := by
  cases write <;>
    first
    | trivial
    | exact absurd rfl h.1
    | exact absurd rfl h.2

theorem promises_of_elsewhere (s : CycleSession) (db : Store) (writes : List Write)
    (h : ∀ write ∈ writes, Elsewhere write) :
    (searchContract portals planned).promises s db writes :=
  ⟨("", ""), fun write hwrite => promised_of_elsewhere (h write hwrite)⟩

theorem promised_of_portalWrites {key : String × String} {view db : Store}
    {slug : String} : ∀ write ∈ portalWrites slug db,
      Promised portals planned key s view write := fun _ hwrite =>
  promised_of_elsewhere (elsewhere_of_inTables
    (by decide : Table.listings ∉ [Table.portals]) (by decide)
    (allIn_portalWrites (.head _) slug db _ hwrite))

theorem idOf_of_unchanged (hsteady : portals.Steady planned)
    (hstores : ∀ row ∈ db.listings, Stores portals planned row) {listing : RawListing}
    (hlisting : listing ∈ portals.response (planned i).query) {row : ListingRow}
    (hfind : PortalListingRepository.find listing.portalSlug listing.externalId db =
      some row) :
    row.contentHash = contentHash listing.raw ∧
      portals.idOf (planned i) listing = .ok (some row.propertyId) := by
  obtain ⟨hrow, hkey⟩ := listed_of_find hfind
  obtain ⟨j, shown, hshown, hkey', hhash, hid⟩ := hstores row hrow
  have hsame := hkey'.symm.trans hkey
  obtain ⟨hhash', hid'⟩ := hsteady j shown hshown i listing hlisting
    (congrArg Prod.fst hsame) (congrArg Prod.snd hsame)
  exact ⟨hhash.trans hhash', hid'.symm.trans hid⟩

def Turned (portals : Portals) (query : PlannedQuery) (resolved : Resolved)
    (listing : RawListing) (s : CycleSession) (db : Store) (resolved' : Resolved)
    (s' : CycleSession) (db' : Store) : Prop :=
  resolved'.propertyIds = resolved.propertyIds ++ portals.ids query [listing] ∧
    Settled portals query (s'.view db') listing ∧ Grown s db s' db'

theorem promises_upsertWrites {listing : RawListing}
    (hlisting : listing ∈ portals.response (planned i).query) {propertyId : PropertyId}
    (hid : portals.idOf (planned i) listing = .ok (some propertyId)) :
    (searchContract portals planned).promises s db
      (PortalListingRepository.upsertWrites listing propertyId
        (contentHash listing.raw) s.stamp (s.view db)) := by
  refine ⟨listingKey listing, ?_⟩
  unfold PortalListingRepository.upsertWrites
  dsimp only
  split
  · next existing hfind =>
    obtain ⟨hexisting, hkey⟩ := listed_of_find hfind
    intro write hwrite
    rw [List.mem_singleton.mp hwrite]
    exact ⟨⟨i, listing, hlisting, rfl, rfl, hid⟩, existing, hexisting, rfl, hkey⟩
  · refine List.forall_mem_append.mpr ⟨promised_of_portalWrites, fun write hwrite => ?_⟩
    rw [List.mem_singleton.mp hwrite]
    exact ⟨rfl, rfl, i, listing, hlisting, rfl, rfl, hid⟩

omit [PythonRuntime] in
theorem listed_upsertWrites (listing : RawListing) (propertyId : PropertyId)
    (hash : String) : Listed (listingKey listing)
      ((s.wrote (PortalListingRepository.upsertWrites listing propertyId hash s.stamp
        (s.view db))).view db) := by
  rw [Session.view_wrote, listed_applyAll]
  unfold PortalListingRepository.upsertWrites
  dsimp only
  split
  · next existing hfind => exact .inl ⟨existing, listed_of_find hfind⟩
  · exact .inr ⟨_, List.mem_append_right _ (.head _), rfl⟩

variable [PersistenceRuntime]

omit [PythonRuntime] in
theorem only_addProperty (prop : Property) : (addProperty prop).Only Elsewhere := by
  refine Txn.only_bind (fun now => Txn.only_done now) fun now =>
    Txn.only_bind (Txn.only_ofExcept _) fun row =>
      Txn.only_exec fun stamp db write hwrite => ?_
  exact elsewhere_of_inTables (by decide) (by decide)
    (allIn_addWrites_property prop row now stamp db write hwrite)

theorem keeps_storeListing {resolved : Resolved} {listing : RawListing}
    (hlisting : listing ∈ portals.response (planned i).query)
    {result : NormalizationResult}
    (hresult : portals.normalizer (planned i).portalSlug listing = .ok result) :
    Txn.Keeps (searchContract portals planned) (storeListing listing resolved result)
      (Txn.keptOk (Turned portals (planned i) resolved listing s db)) s db := by
  have hid : portals.idOf (planned i) listing = .ok (result.property.map (·.id)) := by
    rw [Portals.idOf, hresult]
    rfl
  unfold storeListing
  dsimp only
  cases hproperty : result.property with
  | none =>
      rw [hproperty] at hid
      refine ⟨?_, ⟨none, hid, fun h => absurd rfl h⟩, .refl s db⟩
      simp [Portals.ids, hid, Except.toOption]
  | some prop =>
      rw [hproperty] at hid
      refine Txn.keeps_ok_bind (P := fun _ s' db' => Grown s db s' db') ?_ ?_
      · refine Txn.keeps_mono _ ?_ (Txn.keeps_of_only promises_of_elsewhere
          (I := fun s' db' => Grown s db s' db')
          (fun s' db' db'' hgrows hgrown => hgrown.trans (.later s' hgrows))
          (fun s' db' writes hgrown => hgrown.trans (.wrote s' db' writes))
          (fun _ _ _ _ hgrown => hgrown) (only_addProperty prop) (.refl s db))
        rintro (error | _) s' db' hgrown
        · trivial
        · exact hgrown
      · intro _ s' db' hgrown db'' hgrows _
        refine ⟨promises_upsertWrites hlisting hid, ?_, ⟨_, hid, fun _ =>
          listed_upsertWrites listing prop.id _⟩,
          (hgrown.trans (.later s' hgrows)).trans (.wrote s' db'' _)⟩
        simp [Portals.ids, hid, Except.toOption]

theorem keeps_resolveListing (hsteady : portals.Steady planned) {resolved : Resolved}
    {listing : RawListing} (hlisting : listing ∈ portals.response (planned i).query) :
    Txn.Keeps (searchContract portals planned)
      (resolveListing (planned i).portalSlug resolved listing)
      (Txn.keptOk (Turned portals (planned i) resolved listing s db)) s db := by
  intro db' hgrows hfinds
  have hgrown : Grown s db (s.wrote []) db' :=
    (Grown.later s hgrows).trans (.wrote s db' [])
  refine ⟨promises_of_elsewhere _ _ _ (by simp), ?_⟩
  cases hunchanged : PortalListingRepository.findUnchangedPropertyId listing.portalSlug
      listing.externalId (contentHash listing.raw) (s.view db') with
  | some propertyId =>
      simp only [hunchanged]
      unfold PortalListingRepository.findUnchangedPropertyId at hunchanged
      split at hunchanged
      · next row hfind =>
        obtain ⟨hhash, hid⟩ := idOf_of_unchanged hsteady hfinds hlisting hfind
        obtain rfl : row.propertyId = propertyId := by simpa [hhash] using hunchanged
        refine ⟨?_, ⟨_, hid, fun _ => ?_⟩, hgrown⟩
        · simp [Portals.ids, hid, Except.toOption]
        · exact Grown.wrote s db' [] _ ⟨row, listed_of_find hfind⟩
      · cases hunchanged
  | none =>
      simp only [hunchanged]
      rintro answer rfl
      cases hresult : portals.normalizer (planned i).portalSlug listing with
      | error error => trivial
      | ok result =>
          refine Txn.keeps_mono _ ?_ (keeps_storeListing hlisting hresult)
          rintro (error | resolved') s' db'' h
          · trivial
          · exact ⟨h.1, h.2.1, hgrown.trans h.2.2⟩

omit [PythonRuntime] [PersistenceRuntime] in
theorem ids_append (query : PlannedQuery) (first second : List RawListing) :
    portals.ids query (first ++ second) =
      portals.ids query first ++ portals.ids query second :=
  List.filterMap_append

omit [PythonRuntime] [PersistenceRuntime] in
theorem Settled.grown {query : PlannedQuery} {listing : RawListing} {s' : CycleSession}
    {db' : Store} (h : Settled portals query (s.view db) listing)
    (hgrown : Grown s db s' db') : Settled portals query (s'.view db') listing := by
  obtain ⟨found, hfound, hlisted⟩ := h
  exact ⟨found, hfound, fun hne => hgrown _ (hlisted hne)⟩

omit [PersistenceRuntime] in
theorem promises_putWrites {ids : List PropertyId} {now : DateTime} {ttl : Int}
    (hids : ids = portals.ids (planned i) (portals.response (planned i).query))
    (hsettled : ∀ listing ∈ portals.response (planned i).query,
      Settled portals (planned i) (s.view db) listing) :
    (searchContract portals planned).promises s db
      (SearchCacheRepository.putWrites (planned i).signature (planned i).portalSlug ids
        now ttl (s.view db)) := by
  refine ⟨("", ""), ?_⟩
  unfold SearchCacheRepository.putWrites
  dsimp only
  split
  · intro write hwrite
    rw [List.mem_singleton.mp hwrite]
    exact ⟨i, rfl, hids, hsettled⟩
  · refine List.forall_mem_append.mpr ⟨promised_of_portalWrites, fun write hwrite => ?_⟩
    rw [List.mem_singleton.mp hwrite]
    exact ⟨i, rfl, hids, hsettled⟩

omit [PythonRuntime] [PersistenceRuntime] in
theorem elsewhere_recordWrites (attempt : SearchExecutionRepository.Attempt)
    (stamp : Stamp) (db : Store) : ∀ write ∈
      SearchExecutionRepository.recordWrites attempt stamp db, Elsewhere write :=
  fun write hwrite => elsewhere_of_inTables (by decide) (by decide)
    (allIn_recordWrites attempt stamp db write hwrite)

theorem keeps_scrapeCandidates (hsteady : portals.Steady planned)
    (cycle : RunAlertCycle) (i : Nat) (now : DateTime) (s : CycleSession) (db : Store) :
    Txn.Keeps (searchContract portals planned) (cycle.scrapeCandidates (planned i) now)
      (Txn.keptOk fun _ _ _ => True) s db := by
  rintro _ rfl
  rintro _ rfl
  rintro _ rfl
  change Txn.Keeps _ ((Txn.foldEach _ _ _).bind _) _ _ _
  refine Txn.keeps_ok_bind (Txn.keeps_ok_foldEach
    (fun before (resolved : Resolved) s db => resolved.propertyIds =
        portals.ids (planned i) before ∧
      ∀ listing ∈ before, Settled portals (planned i) (s.view db) listing)
    ?_ ⟨rfl, by simp⟩) ?_
  · intro before listing after resolved s db hitems ⟨hids, hsettled⟩
    have hlisting : listing ∈ portals.response (planned i).query := by simp [hitems]
    refine Txn.keeps_mono _ ?_ (keeps_resolveListing hsteady hlisting)
    rintro (error | resolved') s' db' h
    · trivial
    · obtain ⟨hids', hdone, hgrown⟩ := h
      refine ⟨by rw [hids', hids, ids_append], ?_⟩
      intro shown hshown
      rcases List.mem_append.mp hshown with hshown | hshown
      · exact (hsettled shown hshown).grown hgrown
      · rw [List.mem_singleton.mp hshown]
        exact hdone
  · intro resolved s db ⟨hids, hsettled⟩ db' hgrows _
    refine ⟨promises_putWrites hids fun listing hlisting =>
      (hsettled listing hlisting).grown (.later s hgrows), ?_⟩
    intro finishedAt _ db'' _ _
    exact ⟨promises_of_elsewhere _ _ _ (elsewhere_recordWrites _ _ _), trivial⟩

theorem keeps_resolveCandidates (hsteady : portals.Steady planned)
    (cycle : RunAlertCycle) (i : Nat) (now : DateTime) (s : CycleSession) (db : Store) :
    Txn.Keeps (searchContract portals planned) (cycle.resolveCandidates (planned i) now)
      (Txn.keptOk fun _ _ _ => True) s db := by
  refine Txn.keeps_ok_bind (P := fun _ _ _ => True) ((Txn.keeps_query _).mpr
    fun db' _ _ => ⟨promises_of_elsewhere _ _ _ (by simp), trivial⟩) ?_
  intro cached s' db' _
  cases cached with
  | some propertyIds => trivial
  | none => exact keeps_scrapeCandidates hsteady cycle i now s' db'

theorem keeps_runOne (hsteady : portals.Steady planned) (cycle : RunAlertCycle)
    (i : Nat) (s : CycleSession) (db : Store) :
    Txn.Keeps (searchContract portals planned) (cycle.runOne (planned i))
      (fun _ _ _ => True) s db := by
  intro now _
  change Txn.Keeps _ ((cycle.resolveCandidates (planned i) now).attempt.bind _) _ _ _
  refine (Txn.keeps_bind _ _).mpr ((Txn.keeps_attempt _).mpr (Txn.keeps_mono _ ?_
    (keeps_resolveCandidates hsteady cycle i now _ db)))
  rintro (error | propertyIds) s' db' -
  · cases error with
    | scraperError error =>
        exact Txn.keeps_of_within (fun s db writes _ => promises_of_elsewhere s db writes)
          ((within_recordFailure (planned i) error now).mono
            (fun _ _ => elsewhere_of_inTables (by decide) (by decide)) fun _ h => h)
    | _ => trivial
  · exact Txn.keeps_of_within (fun s db writes _ => promises_of_elsewhere s db writes)
      ((within_persistMatches cycle (planned i) propertyIds now).mono
        (fun _ _ => elsewhere_of_inTables (by decide) (by decide)) fun _ h => h)

end Workers

/-! ## What every state of a run keeps -/

def Assigned (sys : CycleSys) (keys : Uuid → String × String) (id : Uuid)
    (key : String × String) : Prop :=
  keys id = key ∧ ∃ j op, id = .uuid4 j op 0 ∧ op < (sys.workers j).session.ops

theorem Assigned.step {sys : CycleSys} {keys : Uuid → String × String} {id : Uuid}
    {key : String × String} (h : Assigned sys keys id key)
    (oracle : Oracle CycleCall CycleAnswer) (i : Nat) (drawn : String × String) :
    Assigned (sys.step oracle i) (Function.update keys
      (.uuid4 i (sys.workers i).session.ops 0) drawn) id key := by
  obtain ⟨hkey, j, op, rfl, hop⟩ := h
  refine ⟨?_, j, op, rfl, hop.trans_le (Sys.ops_step oracle sys i j)⟩
  rw [Function.update_of_ne, hkey]
  intro heq
  obtain ⟨rfl, hops, -⟩ := Uuid.uuid4.inj heq
  exact hop.ne hops

section Runs

variable [PythonRuntime] {portals : Portals} {planned : Nat → PlannedQuery}
  {sys : CycleSys} {keys : Uuid → String × String} {i : Nat}

def RowFits (portals : Portals) (planned : Nat → PlannedQuery) (sys : CycleSys)
    (keys : Uuid → String × String) (row : ListingRow) : Prop :=
  Assigned sys keys row.id (rowKey row) ∧ Stores portals planned row

def WriteFits (portals : Portals) (planned : Nat → PlannedQuery) (sys : CycleSys)
    (keys : Uuid → String × String) : Write → Prop
  | .insertListing row => RowFits portals planned sys keys row
  | .updateListing loaded model =>
      Assigned sys keys loaded.id (rowKey model) ∧ Stores portals planned model
  | _ => True

def CacheFits (portals : Portals) (planned : Nat → PlannedQuery) (view : Store) :
    Write → Prop
  | .insertCache row | .updateCache row => Remembers portals planned view row
  | _ => True

theorem stores_update (hsteady : portals.Steady planned) {loaded model stored : ListingRow}
    (hmodel : Stores portals planned model) (hstored : Stores portals planned stored)
    (hkey : rowKey stored = rowKey model) :
    Stores portals planned (ListingRow.update loaded model stored) := by
  obtain ⟨i, shown, hshown, hshownKey, hshownHash, hshownId⟩ := hstored
  obtain ⟨j, listing, hlisting, hlistingKey, hhash, hid⟩ := hmodel
  have hsame := hshownKey.symm.trans (hkey.trans hlistingKey)
  obtain ⟨hslug, hexternal⟩ := Prod.mk.inj hsame
  obtain ⟨hhashes, hids⟩ := hsteady i shown hshown j listing hlisting hslug hexternal
  -- so a column has the same value whether it is written or kept
  have hcolumnHash : column loaded.contentHash model.contentHash stored.contentHash =
      contentHash listing.raw := by
    rcases column_cases loaded.contentHash model.contentHash stored.contentHash
      with hkept | hset
    · rw [hkept, hshownHash, hhashes]
    · rw [hset, hhash]
  have hcolumnId : column loaded.propertyId model.propertyId stored.propertyId =
      model.propertyId := by
    rcases column_cases loaded.propertyId model.propertyId stored.propertyId
      with hkept | hset
    · rw [hkept]
      exact Option.some.inj (Except.ok.inj (hshownId.symm.trans (hids.trans hid)))
    · exact hset
  refine ⟨j, listing, hlisting, hkey.trans hlistingKey, hcolumnHash, ?_⟩
  rw [hid, ListingRow.update, hcolumnId]

theorem rowFits_apply (hsteady : portals.Steady planned) {write : Write} {db : Store}
    (hwrite : WriteFits portals planned sys keys write)
    (h : ∀ row ∈ db.listings, RowFits portals planned sys keys row) :
    ∀ row ∈ (write.apply db).listings, RowFits portals planned sys keys row := by
  cases write with
  | insertListing row =>
      refine List.forall_mem_append.mpr ⟨h, fun stored hstored => ?_⟩
      rw [List.mem_singleton.mp hstored]
      exact hwrite
  | updateListing loaded model =>
      intro row hrow
      obtain ⟨stored, hstored, rfl⟩ := List.mem_map.mp hrow
      have hfits := h stored hstored
      split
      · next heq =>
        simp only [decide_eq_true_eq] at heq
        obtain ⟨⟨hkey, -⟩, hmodel⟩ := hwrite
        -- the stored row is the one that the update was made for
        have hsame : rowKey stored = rowKey model :=
          hfits.1.1.symm.trans ((congrArg keys heq).trans hkey)
        exact ⟨hfits.1, stores_update hsteady hmodel hfits.2 hsame⟩
      · exact hfits
  | _ => exact h

theorem rowFits_applyAll (hsteady : portals.Steady planned) {writes : List Write} {db : Store}
    (hwrites : ∀ write ∈ writes, WriteFits portals planned sys keys write)
    (h : ∀ row ∈ db.listings, RowFits portals planned sys keys row) :
    ∀ row ∈ (applyAll writes db).listings, RowFits portals planned sys keys row := by
  induction writes generalizing db with
  | nil => exact h
  | cons write writes ih =>
      obtain ⟨hwrite, hwrites⟩ := List.forall_mem_cons.mp hwrites
      exact ih hwrites (rowFits_apply hsteady hwrite h)

omit [PythonRuntime] in
theorem remembers_apply {write : Write} {db view : Store}
    (hwrite : CacheFits portals planned view write)
    (h : ∀ row ∈ db.caches, Remembers portals planned view row) :
    ∀ row ∈ (write.apply db).caches, Remembers portals planned view row := by
  cases write with
  | insertCache row =>
      refine List.forall_mem_append.mpr ⟨h, fun stored hstored => ?_⟩
      rw [List.mem_singleton.mp hstored]
      exact hwrite
  | updateCache model =>
      intro row hrow
      obtain ⟨stored, hstored, rfl⟩ := List.mem_map.mp hrow
      split
      · next heq =>
        simp only [decide_eq_true_eq] at heq
        obtain ⟨j, hsignature, hrest⟩ := hwrite
        exact ⟨j, heq.trans hsignature, hrest⟩
      · exact h stored hstored
  | _ => exact h

omit [PythonRuntime] in
theorem remembers_applyAll {writes : List Write} {db view : Store}
    (hwrites : ∀ write ∈ writes, CacheFits portals planned view write)
    (h : ∀ row ∈ db.caches, Remembers portals planned view row) :
    ∀ row ∈ (applyAll writes db).caches, Remembers portals planned view row := by
  induction writes generalizing db with
  | nil => exact h
  | cons write writes ih =>
      obtain ⟨hwrite, hwrites⟩ := List.forall_mem_cons.mp hwrites
      exact ih hwrites (remembers_apply hwrite h)

omit [PythonRuntime] in
theorem Remembers.grown {db db' : Store} {row : CacheRow}
    (h : Remembers portals planned db row)
    (hgrows : ∀ key, Listed key db → Listed key db') :
    Remembers portals planned db' row := by
  obtain ⟨j, hsignature, hids, hsettled⟩ := h
  refine ⟨j, hsignature, hids, fun listing hlisting => ?_⟩
  obtain ⟨found, hfound, hlisted⟩ := hsettled listing hlisting
  exact ⟨found, hfound, fun hne => hgrows _ (hlisted hne)⟩

omit [PythonRuntime] in
theorem CacheFits.grown {db db' : Store} {write : Write}
    (h : CacheFits portals planned db write)
    (hgrows : ∀ key, Listed key db → Listed key db') :
    CacheFits portals planned db' write := by
  cases write with
  | insertCache row => exact Remembers.grown h hgrows
  | updateCache row => exact Remembers.grown h hgrows
  | _ => trivial

/-- What the searches of a run have left in the store and in the sessions. -/
structure Searched (portals : Portals) (planned : Nat → PlannedQuery)
    (sys : CycleSys) : Prop where
  txn : ∀ j, (sys.workers j).session.txn = j
  fits : ∃ keys, (∀ row ∈ sys.store.listings, RowFits portals planned sys keys row) ∧
    ∀ j, ∀ write ∈ (sys.workers j).session.pending,
      WriteFits portals planned sys keys write
  caches : ∀ row ∈ sys.store.caches, Remembers portals planned sys.store row
  pending : ∀ j, ∀ write ∈ (sys.workers j).session.pending,
    CacheFits portals planned ((sys.workers j).session.view sys.store) write
  kept : ∀ j, Sys.Keeping (searchContract portals planned) (fun _ _ _ => True)
    (sys.workers j) sys.store

theorem Searched.finds (h : Searched portals planned sys) (hsteady : portals.Steady planned)
    (j : Nat) :
    (searchContract portals planned).finds (sys.workers j).session sys.store := by
  obtain ⟨keys, hrows, hwrites⟩ := h.fits
  exact fun row hrow => (rowFits_applyAll hsteady (hwrites j) hrows row hrow).2

theorem RowFits.step {row : ListingRow} (h : RowFits portals planned sys keys row)
    (oracle : Oracle CycleCall CycleAnswer) (i : Nat) (drawn : String × String) :
    RowFits portals planned (sys.step oracle i) (Function.update keys
      (.uuid4 i (sys.workers i).session.ops 0) drawn) row :=
  ⟨h.1.step oracle i drawn, h.2⟩

theorem WriteFits.step {write : Write} (h : WriteFits portals planned sys keys write)
    (oracle : Oracle CycleCall CycleAnswer) (i : Nat) (drawn : String × String) :
    WriteFits portals planned (sys.step oracle i) (Function.update keys
      (.uuid4 i (sys.workers i).session.ops 0) drawn) write := by
  cases write with
  | insertListing row => exact RowFits.step h oracle i drawn
  | updateListing loaded model => exact ⟨h.1.step oracle i drawn, h.2⟩
  | _ => trivial

theorem writeFits_of_promised {oracle : Oracle CycleCall CycleAnswer}
    {drawn : String × String} {write : Write} (htxn : (sys.workers i).session.txn = i)
    (hops : (sys.workers i).session.ops < ((sys.step oracle i).workers i).session.ops)
    (hrows : ∀ row ∈ ((sys.workers i).session.view sys.store).listings,
      RowFits portals planned sys keys row)
    (h : Promised portals planned drawn (sys.workers i).session
      ((sys.workers i).session.view sys.store) write) :
    WriteFits portals planned (sys.step oracle i) (Function.update keys
      (.uuid4 i (sys.workers i).session.ops 0) drawn) write := by
  cases write with
  | insertListing row =>
      obtain ⟨hid, hkey, hstores⟩ := h
      rw [htxn] at hid
      refine ⟨⟨?_, i, _, hid, hops⟩, hstores⟩
      rw [hid, Function.update_self, hkey]
  | updateListing loaded model =>
      obtain ⟨hstores, row, hrow, hid, hkey⟩ := h
      rw [WriteFits, ← hid, ← hkey]
      exact ⟨(hrows row hrow).1.step oracle i drawn, hstores⟩
  | _ => trivial

omit [PythonRuntime] in
theorem listed_step (oracle : Oracle CycleCall CycleAnswer) (sys : CycleSys) (i : Nat)
    {key : String × String} (h : Listed key sys.store) :
    Listed key (sys.step oracle i).store := by
  generalize hstep : sys.step oracle i = sys'
  cases Sys.stepped hstep with
  | accepted => exact listed_applyAll.mpr (.inl h)
  | _ => exact h

theorem Searched.fits_step (h : Searched portals planned sys)
    (hsteady : portals.Steady planned)
    (oracle : Oracle CycleCall CycleAnswer) (i : Nat) :
    ∃ keys, (∀ row ∈ (sys.step oracle i).store.listings,
        RowFits portals planned (sys.step oracle i) keys row) ∧
      ∀ j, ∀ write ∈ ((sys.step oracle i).workers j).session.pending,
        WriteFits portals planned (sys.step oracle i) keys write := by
  obtain ⟨keys, hrows, hwrites⟩ := h.fits
  have hview := rowFits_applyAll hsteady (hwrites i) hrows
  have hstored := fun drawn row hrow => (hrows row hrow).step oracle i drawn
  have hviewed := fun drawn row hrow => (hview row hrow).step oracle i drawn
  have hown := fun drawn write hwrite => (hwrites i write hwrite).step oracle i drawn
  have hpromised := fun drawn write hops => @writeFits_of_promised _ portals planned sys
    keys i oracle drawn write (h.txn i) hops hview
  have hall : ∀ drawn, (∀ write ∈ ((sys.step oracle i).workers i).session.pending,
      WriteFits portals planned (sys.step oracle i) (Function.update keys
        (.uuid4 i (sys.workers i).session.ops 0) drawn) write) →
      ∀ j, ∀ write ∈ ((sys.step oracle i).workers j).session.pending,
        WriteFits portals planned (sys.step oracle i) (Function.update keys
          (.uuid4 i (sys.workers i).session.ops 0) drawn) write := by
    intro drawn hi j write hwrite
    by_cases hj : j = i
    · exact hi write (hj ▸ hwrite)
    · rw [Sys.workers_step_of_ne oracle sys hj] at hwrite
      exact (hwrites j write hwrite).step oracle i drawn
  generalize hstep : sys.step oracle i = sys' at *
  cases Sys.stepped hstep with
  | returned => exact ⟨keys, hrows, hwrites⟩
  | raised => exact ⟨keys, hrows, hwrites⟩
  | stmt writes next hcode =>
      obtain ⟨drawn, hpromises⟩ := (h.kept i).promises (h.finds hsteady i) hcode
      refine ⟨_, hstored drawn, hall drawn ?_⟩
      rw [Sys.workers_setWorker_self]
      exact List.forall_mem_append.mpr ⟨hown drawn, fun write hwrite =>
        hpromised drawn write (by simp) (hpromises write hwrite)⟩
  | call request next hcode =>
      refine ⟨_, hstored ("", ""), hall ("", "") ?_⟩
      simpa using hown ("", "")
  | accepted next hcode hadmits =>
      refine ⟨_, hviewed ("", ""), hall ("", "") ?_⟩
      simp
  | refused next hcode hadmits =>
      refine ⟨_, hstored ("", ""), hall ("", "") ?_⟩
      simp

theorem Searched.caches_step (h : Searched portals planned sys)
    (oracle : Oracle CycleCall CycleAnswer) (i : Nat) :
    ∀ row ∈ (sys.step oracle i).store.caches,
      Remembers portals planned (sys.step oracle i).store row := by
  have hgrows := fun key => @listed_step oracle sys i key
  generalize hstep : sys.step oracle i = sys' at *
  cases Sys.stepped hstep with
  | accepted next hcode hadmits =>
      exact remembers_applyAll (h.pending i) fun row hrow => (h.caches row hrow).grown hgrows
  | _ => exact h.caches

theorem Searched.pending_step (h : Searched portals planned sys)
    (hsteady : portals.Steady planned)
    (oracle : Oracle CycleCall CycleAnswer) (i j : Nat) :
    ∀ write ∈ ((sys.step oracle i).workers j).session.pending, CacheFits portals planned
      (((sys.step oracle i).workers j).session.view (sys.step oracle i).store) write := by
  by_cases hj : j = i
  · subst hj
    have hpending := h.pending j
    generalize hstep : sys.step oracle j = sys'
    cases Sys.stepped hstep with
    | returned => exact hpending
    | raised => exact hpending
    | stmt writes next hcode =>
        obtain ⟨key, hpromises⟩ := (h.kept j).promises (h.finds hsteady j) hcode
        have hgrown := Grown.wrote (sys.workers j).session sys.store
          (writes (sys.workers j).session.stamp
            ((sys.workers j).session.view sys.store))
        rw [Sys.workers_setWorker_self]
        refine List.forall_mem_append.mpr ⟨fun write hwrite =>
          (hpending write hwrite).grown hgrown, fun write hwrite => ?_⟩
        have hpromise := hpromises write hwrite
        cases write with
        | insertCache row => exact Remembers.grown hpromise hgrown
        | updateCache row => exact Remembers.grown hpromise hgrown
        | _ => trivial
    | call request next hcode => simpa using hpending
    | accepted next hcode hadmits => simp
    | refused next hcode hadmits => simp
  · rw [Sys.workers_step_of_ne oracle sys hj]
    exact fun write hwrite => (h.pending j write hwrite).grown
      (Grown.later _ fun key => listed_step oracle sys i)

theorem searched_step {oracle : Oracle CycleCall CycleAnswer}
    (hsteady : portals.Steady planned)
    (hanswers : ∀ i op request, portals.Answers request (oracle i op request))
    (h : Searched portals planned sys) (i : Nat) :
    Searched portals planned (sys.step oracle i) where
  txn j := by rw [Sys.txn_step, h.txn]
  fits := h.fits_step hsteady oracle i
  caches := h.caches_step oracle i
  pending := h.pending_step hsteady oracle i
  kept j := by
    by_cases hj : j = i
    · subst hj
      exact Sys.keeping_step (h.kept j) (h.finds hsteady j) (hanswers j)
    · exact Sys.keeping_step_of_ne (h.kept j) hj fun key => listed_step oracle sys i

theorem searched_run [PersistenceRuntime] (hsteady : portals.Steady planned)
    {oracle : Oracle CycleCall CycleAnswer}
    (hanswers : ∀ i op request, portals.Answers request (oracle i op request))
    (cycles : Nat → RunAlertCycle) {db : Store} (hlistings : db.listings = [])
    (hcaches : db.caches = []) (schedule : List Nat) :
    Searched portals planned ((Sys.start db fun i =>
      (cycles i).runOne (planned i)).run oracle schedule) := by
  induction schedule using List.reverseRecOn with
  | nil =>
      refine ⟨fun j => rfl, ⟨fun _ => ("", ""), ?_, ?_⟩, ?_, ?_, fun j => ?_⟩
      · simp [Sys.start, hlistings]
      · simp [Sys.start]
      · simp [Sys.start, hcaches]
      · simp [Sys.start]
      · exact ⟨db, fun _ h => h, keeps_runOne hsteady (cycles j) j _ db⟩
  | append_singleton schedule i ih =>
      rw [Sys.run_concat]
      exact searched_step hsteady hanswers ih i

end Runs

/-! ## Scraping again -/

section Rescrape

variable [PythonRuntime] [PersistenceRuntime] {portals : Portals}
  {planned : Nat → PlannedQuery} {i : Nat} {db : Store} {s : CycleSession}
  {answers : Nat → (request : CycleCall) → CycleAnswer request}

omit [PythonRuntime] [PersistenceRuntime] in
theorem normalizer_of_idOf {query : PlannedQuery} {listing : RawListing}
    (h : portals.idOf query listing = .ok none) :
    ∃ result, portals.normalizer query.portalSlug listing = .ok result ∧
      result.property = none := by
  unfold Portals.idOf at h
  cases hresult : portals.normalizer query.portalSlug listing with
  | error error =>
      rw [hresult] at h
      cases h
  | ok result =>
      rw [hresult] at h
      exact ⟨result, rfl, by simpa [Except.map] using h⟩

theorem eval_resolveListing (hsteady : portals.Steady planned)
    (hanswers : ∀ op request, portals.Answers request (answers op request))
    (hstores : ∀ row ∈ db.listings, Stores portals planned row)
    {listing : RawListing} (hlisting : listing ∈ portals.response (planned i).query)
    (hsettled : Settled portals (planned i) db listing) (resolved : Resolved)
    (hpending : s.pending = []) :
    ∃ resolved' s', (resolveListing (planned i).portalSlug resolved listing).eval
        answers s db = ⟨.ok resolved', s', db⟩ ∧
      resolved'.propertyIds =
        resolved.propertyIds ++ portals.ids (planned i) [listing] ∧
      s'.pending = [] := by
  have hview : s.view db = db := by rw [Session.view, hpending, applyAll_nil]
  obtain ⟨found, hid, hlisted⟩ := hsettled
  unfold resolveListing
  simp only [Txn.bind_eq, Txn.query, Txn.bind, Txn.eval, hview]
  cases hunchanged : PortalListingRepository.findUnchangedPropertyId listing.portalSlug
      listing.externalId (contentHash listing.raw) db with
  | some propertyId =>
      refine ⟨_, _, rfl, ?_, by simp [hpending]⟩
      unfold PortalListingRepository.findUnchangedPropertyId at hunchanged
      split at hunchanged
      · next row hfind =>
        obtain ⟨hhash, hid'⟩ := idOf_of_unchanged hsteady hstores hlisting hfind
        obtain rfl : row.propertyId = propertyId := by simpa [hhash] using hunchanged
        simp [Portals.ids, hid', Except.toOption]
      · cases hunchanged
  | none =>
      have hnone : found = none := by
        by_contra hne
        obtain ⟨row, hfind⟩ := exists_find_of_listed (hlisted hne)
        obtain ⟨hhash, -⟩ := idOf_of_unchanged hsteady hstores hlisting hfind
        simp [PortalListingRepository.findUnchangedPropertyId, hfind, hhash] at hunchanged
      subst hnone
      obtain ⟨result, hresult, hproperty⟩ := normalizer_of_idOf hid
      have hanswer : ∀ op, answers op (.normalize (planned i).portalSlug listing) =
          .ok result := fun op =>
        (hanswers op (.normalize (planned i).portalSlug listing)).trans hresult
      simp only [normalize, Txn.bind, Txn.eval, hanswer, Txn.ofExcept, storeListing,
        hproperty]
      exact ⟨_, _, rfl, by simp [Portals.ids, hid, Except.toOption], by simp [hpending]⟩

theorem eval_resolveListings (hsteady : portals.Steady planned)
    (hanswers : ∀ op request, portals.Answers request (answers op request))
    (hstores : ∀ row ∈ db.listings, Stores portals planned row)
    {listings : List RawListing}
    (hlistings : ∀ listing ∈ listings, listing ∈ portals.response (planned i).query ∧
      Settled portals (planned i) db listing) (resolved : Resolved)
    (hpending : s.pending = []) :
    ∃ resolved' s', (Txn.foldEach listings resolved
        (resolveListing (planned i).portalSlug)).eval answers s db =
          ⟨.ok resolved', s', db⟩ ∧
      resolved'.propertyIds =
        resolved.propertyIds ++ portals.ids (planned i) listings ∧
      s'.pending = [] := by
  induction listings generalizing resolved s with
  | nil => exact ⟨resolved, s, rfl, by simp [Portals.ids], hpending⟩
  | cons listing listings ih =>
      obtain ⟨⟨hlisting, hsettled⟩, hrest⟩ := List.forall_mem_cons.mp hlistings
      obtain ⟨resolved₁, s₁, heval, hids, hpending₁⟩ :=
        eval_resolveListing hsteady hanswers hstores hlisting hsettled resolved hpending
      obtain ⟨resolved₂, s₂, heval', hids', hpending₂⟩ := ih hrest resolved₁ hpending₁
      refine ⟨resolved₂, s₂, ?_, ?_, hpending₂⟩
      · rw [Txn.foldEach, Txn.eval_bind, heval]
        exact heval'
      · rw [hids', hids, List.append_assoc, ← ids_append, List.singleton_append]

/-- Scraping again finds what is cached, and changes no property. -/
theorem eval_scrapeCandidates (hsteady : portals.Steady planned)
    (hanswers : ∀ op request, portals.Answers request (answers op request))
    (hstores : ∀ row ∈ db.listings, Stores portals planned row)
    (hsettled : ∀ listing ∈ portals.response (planned i).query,
      Settled portals (planned i) db listing)
    (cycle : RunAlertCycle) (now : DateTime) (hpending : s.pending = []) :
    ∃ s', (cycle.scrapeCandidates (planned i) now).eval answers s db =
        ⟨.ok (portals.ids (planned i) (portals.response (planned i).query)), s', db⟩ ∧
      AllIn [.portals, .caches, .executions] s'.pending := by
  have hscraper : ∀ op slug, answers op (.scraperForPortal slug) = .ok () :=
    fun op slug => hanswers op (.scraperForPortal slug)
  have hfetch : ∀ op query, answers op (.fetch query) = .ok (portals.response query) :=
    fun op query => hanswers op (.fetch query)
  have hnormalizer : ∀ op slug, answers op (.normalizerForPortal slug) = .ok () :=
    fun op slug => hanswers op (.normalizerForPortal slug)
  simp only [RunAlertCycle.scrapeCandidates, scraperForPortal, fetch,
    normalizerForPortal, Txn.bind_eq, Txn.bind, Txn.eval, hscraper, hfetch, hnormalizer,
    Txn.ofExcept]
  obtain ⟨resolved, s', heval, hids, hpending'⟩ := eval_resolveListings
    (s := ((s.answered (.scraperForPortal (planned i).portalSlug) (.ok ())).answered
      (.fetch (planned i).query) (.ok (portals.response (planned i).query))).answered
        (.normalizerForPortal (planned i).portalSlug) (.ok ())) hsteady hanswers hstores
    (fun listing hlisting => ⟨hlisting, hsettled listing hlisting⟩) ⟨[], 0, 0⟩ hpending
  rw [Txn.eval_bind, heval]
  simp only [Txn.andThen, Txn.exec, Txn.bind, Txn.eval, clock, recordExecution]
  rw [List.nil_append] at hids
  rw [hids]
  refine ⟨_, rfl, ?_⟩
  rw [Session.pending_wrote, Session.pending_answered, Session.pending_wrote,
    hpending', List.nil_append]
  exact allIn_append ((allIn_putWrites _ _ _ _ _ _).mono (by decide))
    (allIn_append (allIn_portalWrites (.head _) _ _) (allIn_singleton rfl))

end Rescrape

/-! ## Evaluating in lockstep -/

def matchOf (row : MatchRow) : AlertMatch := ⟨row.alertId, row.propertyId, row.matchedAt⟩

/-- Two stores with the same properties, the same matches and the same channels. -/
def sameMatches : Alignment Store Write where
  stores db db' := db.properties = db'.properties ∧ db.channels = db'.channels ∧
    db.alertMatches.map matchOf = db'.alertMatches.map matchOf
  writes batch batch' := AllIn (matchTables ++ alertTables) batch ∧
    AllIn (matchTables ++ alertTables) batch' ∧
    (insertedMatches batch).map matchOf = (insertedMatches batch').map matchOf
  nil := ⟨allIn_nil _, allIn_nil _, rfl⟩
  append first first' second second' h h' := by
    refine ⟨allIn_append h.1 h'.1, allIn_append h.2.1 h'.2.1, ?_⟩
    rw [insertedMatches_append, insertedMatches_append, List.map_append,
      List.map_append, h.2.2, h'.2.2]
  apply db db' batch batch' h hbatch := by
    obtain ⟨hproperties, hchannels, hmatches⟩ := h
    obtain ⟨hin, hin', hinserted⟩ := hbatch
    have hspares : ∀ batch, AllIn (matchTables ++ alertTables) batch →
        ∀ write ∈ batch, write.table ≠ .properties := fun batch h write hwrite heq => by
      have hmem := h write hwrite
      rw [InTables, heq] at hmem
      exact absurd hmem (by decide)
    refine ⟨?_, ?_, ?_⟩
    · rw [properties_applyAll (hspares batch hin), properties_applyAll (hspares _ hin'),
        hproperties]
    · rw [channels_applyAll, channels_applyAll, hchannels]
    · rw [alertMatches_eq, alertMatches_eq, List.map_append, List.map_append, hmatches,
        hinserted]

section Lockstep

variable [PythonRuntime] [PersistenceRuntime]

theorem lockstep_loadCandidates (propertyIds : List PropertyId) :
    Txn.Lockstep sameMatches (· = ·) (RunAlertCycle.loadCandidates propertyIds)
      (RunAlertCycle.loadCandidates propertyIds) := by
  refine Txn.lockstep_foldEach rfl ?_
  rintro candidates _ propertyId rfl
  refine Txn.lockstep_bind (Txn.lockstep_query fun db db' hdb => ?_) ?_
  · rw [PropertyRepository.get, PropertyRepository.get, PropertyRepository.find,
      PropertyRepository.find, hdb.1]
  · rintro found _ rfl
    refine Txn.lockstep_bind (Txn.lockstep_ofExcept found) ?_
    rintro prop _ rfl
    rfl

omit [PythonRuntime] [PersistenceRuntime] in
theorem find_match_eq_none_iff {alertId : AlertId} {propertyId : PropertyId} {db : Store} :
    MatchRepository.find alertId propertyId db = none ↔
      ∀ found ∈ db.alertMatches.map matchOf,
        ¬(found.alertId = alertId ∧ found.propertyId = propertyId) := by
  simp [MatchRepository.find, matchOf]

omit [PythonRuntime] [PersistenceRuntime] in
theorem lockstep_addIfNew (found : AlertMatch) :
    Txn.Lockstep sameMatches (fun id id' => id.isSome = id'.isSome)
      (MatchRepository.addIfNew found :
        Txn Store Write CycleCall CycleAnswer PyError (Option MatchId))
      (MatchRepository.addIfNew found) := by
  intro stamp stamp' db db' hdb
  have hiff : MatchRepository.find found.alertId found.propertyId db = none ↔
      MatchRepository.find found.alertId found.propertyId db' = none := by
    rw [find_match_eq_none_iff, find_match_eq_none_iff, hdb.2.2]
  unfold MatchRepository.addIfNewWrites
  cases hfind : MatchRepository.find found.alertId found.propertyId db with
  | none =>
      simp only [hfind, hiff.mp hfind]
      exact ⟨⟨allIn_singleton rfl, allIn_singleton rfl, rfl⟩, rfl⟩
  | some row =>
      cases hfind' : MatchRepository.find found.alertId found.propertyId db' with
      | none =>
          rw [hiff.mpr hfind'] at hfind
          cases hfind
      | some row' =>
          simp only [hfind, hfind']
          exact ⟨sameMatches.nil, rfl⟩

omit [PythonRuntime] [PersistenceRuntime] in
theorem lockstep_enqueue (matchId matchId' : MatchId) (channelId : ChannelId)
    (now : DateTime) :
    Txn.Lockstep sameMatches (· = ·)
      (Txn.exec (NotificationRepository.enqueueWrites matchId channelId now) :
        CycleTxn Unit)
      (Txn.exec (NotificationRepository.enqueueWrites matchId' channelId now)) := by
  have hwrites : ∀ matchId stamp db, AllIn (matchTables ++ alertTables)
      (NotificationRepository.enqueueWrites matchId channelId now stamp db) ∧
      insertedMatches (NotificationRepository.enqueueWrites matchId channelId now stamp
        db) = [] := by
    intro matchId stamp db
    unfold NotificationRepository.enqueueWrites
    split
    · exact ⟨allIn_nil _, rfl⟩
    · exact ⟨allIn_singleton rfl, rfl⟩
  refine Txn.lockstep_exec fun stamp stamp' db db' _ => ?_
  obtain ⟨hin, hinserted⟩ := hwrites matchId stamp db
  obtain ⟨hin', hinserted'⟩ := hwrites matchId' stamp' db'
  exact ⟨hin, hin', by rw [hinserted, hinserted']⟩

omit [PythonRuntime] in
theorem lockstep_persistMatch (userId : UserId) (now : DateTime) (created : Nat)
    (found : AlertMatch) :
    Txn.Lockstep sameMatches (· = ·)
      (RunAlertCycle.persistMatch userId now created found)
      (RunAlertCycle.persistMatch userId now created found) := by
  refine Txn.lockstep_bind (lockstep_addIfNew found) fun matchId matchId' hsame => ?_
  cases matchId with
  | none =>
      cases matchId' with
      | none => rfl
      | some matchId' => cases hsame
  | some matchId =>
      cases matchId' with
      | none => cases hsame
      | some matchId' =>
          refine Txn.lockstep_bind (Txn.lockstep_query fun db db' hdb => ?_) ?_
          · rw [NotificationChannelRepository.listEnabledForUser,
              enabledRows_congr hdb.2.1]
            rfl
          rintro listed _ rfl
          refine Txn.lockstep_bind (Txn.lockstep_ofExcept listed) ?_
          rintro channels _ rfl
          refine Txn.lockstep_bind (Txn.lockstep_forEach fun channel =>
            lockstep_enqueue matchId matchId' channel.id now) ?_
          rintro _ _ rfl
          rfl

theorem lockstep_evaluateAndPersist (cycle : RunAlertCycle) (alerts : List SearchAlert)
    (candidates : List Property) (now : DateTime) :
    Txn.Lockstep sameMatches (· = ·) (cycle.evaluateAndPersist alerts candidates now)
      (cycle.evaluateAndPersist alerts candidates now) := by
  refine Txn.lockstep_foldEach rfl ?_
  rintro created _ alert rfl
  refine Txn.lockstep_bind (Txn.lockstep_ofExcept _) ?_
  rintro found _ rfl
  refine Txn.lockstep_bind (Txn.lockstep_foldEach rfl ?_) ?_
  · rintro created _ found rfl
    exact lockstep_persistMatch alert.userId now created found
  rintro created _ rfl
  refine Txn.lockstep_bind (Txn.lockstep_exec fun stamp stamp' db db' _ => ?_) ?_
  · have hin := fun stamp db => allIn_addWrites_alert (alert.markRun now) stamp db
    have hnone : ∀ stamp db, insertedMatches
        (AlertRepository.addWrites (alert.markRun now) stamp db) = [] := fun stamp db =>
      (inserted_of_table ((hin stamp db).not_mem (by decide))).1
    refine ⟨fun write hwrite => List.mem_append_right _ (hin stamp db write hwrite),
      fun write hwrite => List.mem_append_right _ (hin stamp' db' write hwrite), ?_⟩
    rw [hnone, hnone]
  · rintro _ _ rfl
    rfl

end Lockstep

/-! ## The law -/

section Law

variable [PythonRuntime] [PersistenceRuntime]

def RunAlertCycle.evaluateCached (cycle : RunAlertCycle) (planned : PlannedQuery)
    (propertyIds : List PropertyId) (now : DateTime) : CycleTxn Nat := do
  let candidates ← loadCandidates propertyIds
  evaluateAndPersist cycle planned.alerts candidates now

def RunAlertCycle.evaluateScraped (cycle : RunAlertCycle) (planned : PlannedQuery)
    (now : DateTime) : CycleTxn Nat := do
  let propertyIds ← scrapeCandidates cycle planned now
  cycle.evaluateCached planned propertyIds now

/-- The same number of matches or the same exception, and the same inserted matches. -/
structure SameMatches (ended ended' : Ended Store Write CycleCall CycleAnswer PyError Nat) :
    Prop where
  outcome : ended.outcome = ended'.outcome
  inserted : (insertedMatches ended.session.pending).map matchOf =
    (insertedMatches ended'.session.pending).map matchOf

/-- Whenever a search is cached at `now`, scraping it again creates the same matches. -/
def Transparent (cycle : RunAlertCycle) (planned : PlannedQuery)
    (answers : Nat → (request : CycleCall) → CycleAnswer request) (i : Nat)
    (store : Store) (now : DateTime) : Prop :=
  ∀ propertyIds, SearchCacheRepository.get planned.signature now store =
      some propertyIds →
    SameMatches ((cycle.evaluateCached planned propertyIds now).eval answers (.start i) store)
      ((cycle.evaluateScraped planned now).eval answers (.start i) store)

theorem lockstep_evaluateCached (cycle : RunAlertCycle) (planned : PlannedQuery)
    (propertyIds : List PropertyId) (now : DateTime) :
    Txn.Lockstep sameMatches (· = ·) (cycle.evaluateCached planned propertyIds now)
      (cycle.evaluateCached planned propertyIds now) := by
  refine Txn.lockstep_bind (lockstep_loadCandidates propertyIds) ?_
  rintro candidates _ rfl
  exact lockstep_evaluateAndPersist cycle planned.alerts candidates now

omit [PythonRuntime] [PersistenceRuntime] in
theorem Remembers.of_signature {portals : Portals} {planned : Nat → PlannedQuery}
    {i : Nat} {db : Store} {row : CacheRow} (h : Remembers portals planned db row)
    (hsame : SameSearches planned) (hsignature : row.querySignature = (planned i).signature) :
    row.propertyIds = portals.ids (planned i) (portals.response (planned i).query) ∧
      ∀ listing ∈ portals.response (planned i).query,
        Settled portals (planned i) db listing := by
  obtain ⟨j, hsignature', hids, hsettled⟩ := h
  obtain ⟨hslug, hquery⟩ := hsame j i (hsignature'.symm.trans hsignature)
  have hidOf : portals.idOf (planned j) = portals.idOf (planned i) := by
    funext listing
    rw [Portals.idOf, Portals.idOf, hslug]
  simp only [Portals.ids, Settled, hidOf, hquery] at hids hsettled ⊢
  exact ⟨hids, hsettled⟩

omit [PythonRuntime] [PersistenceRuntime] in
theorem sameMatches_of_lockstep {p : CycleTxn Nat}
    (h : Txn.Lockstep sameMatches (· = ·) p p)
    {answers : Nat → (request : CycleCall) → CycleAnswer request} {i : Nat}
    {s' : CycleSession} {db : Store}
    (hin : AllIn [.portals, .caches, .executions] s'.pending) :
    SameMatches (p.eval answers (.start i) db) (p.eval answers s' db) := by
  have hview : sameMatches.stores ((Session.start i : CycleSession).view db)
      (s'.view db) := by
    refine ⟨?_, (channels_applyAll _ _).symm, ?_⟩
    · exact (properties_applyAll (hin.spares (by decide)) db).symm
    · rw [Session.view, Session.view, alertMatches_applyAll (hin.spares (by decide))]
      rfl
  obtain ⟨hagree, batch, batch', hpending, hpending', hbatch⟩ :=
    Txn.eval_of_lockstep h hview
  refine ⟨eq_of_agree hagree, ?_⟩
  have hnone := (inserted_of_table (hin.not_mem (by decide))).1
  rw [hpending, hpending', insertedMatches_append s'.pending, hnone]
  exact hbatch.2.2

/--
Where the listings have the same contents in every response, the search cache is
transparent in every state of every run.
-/
theorem cache_is_transparent (cycles : Nat → RunAlertCycle)
    (planned : Nat → PlannedQuery) (portals : Portals) (hsame : SameSearches planned)
    (hsteady : portals.Steady planned) {db : Store} (hlistings : db.listings = [])
    (hcaches : db.caches = []) (oracle : Oracle CycleCall CycleAnswer)
    (hanswers : ∀ i op request, portals.Answers request (oracle i op request))
    (schedule : List Nat) (i : Nat) (now : DateTime) :
    Transparent (cycles i) (planned i) (oracle i) i
      ((Sys.start db fun i => (cycles i).runOne (planned i)).run oracle schedule).store
      now := by
  intro propertyIds hcached
  have hsearched := searched_run hsteady hanswers cycles hlistings hcaches schedule
  generalize (Sys.start db fun i => (cycles i).runOne (planned i)).run oracle schedule =
    sys at *
  have hstores : ∀ row ∈ sys.store.listings, Stores portals planned row := by
    obtain ⟨keys, hrows, -⟩ := hsearched.fits
    exact fun row hrow => (hrows row hrow).2
  unfold SearchCacheRepository.get at hcached
  cases hfind : SearchCacheRepository.find (planned i).signature sys.store with
  | none => simp [hfind] at hcached
  | some row =>
      simp only [hfind, Option.ite_none_left_eq_some, Option.some.injEq] at hcached
      have hsignature : row.querySignature = (planned i).signature := by
        simpa using List.find?_some hfind
      obtain ⟨hids, hsettled⟩ := (hsearched.caches row
        (List.mem_of_find?_eq_some hfind)).of_signature hsame hsignature
      obtain ⟨s', heval, hin⟩ := eval_scrapeCandidates hsteady (hanswers i) hstores
        hsettled (cycles i) now (Session.pending_start i)
      have hscraped : ((cycles i).evaluateScraped (planned i) now).eval (oracle i)
          (.start i) sys.store = ((cycles i).evaluateCached (planned i) propertyIds
            now).eval (oracle i) s' sys.store := by
        rw [RunAlertCycle.evaluateScraped, Txn.bind_eq, Txn.eval_bind, heval, ← hids,
          hcached.2]
        rfl
      rw [hscraped]
      exact sameMatches_of_lockstep (lockstep_evaluateCached _ _ _ now) hin

end Law

/-! ## Two searches that show one listing -/

def portalOracle (portals : Portals) : Oracle CycleCall CycleAnswer := fun _ _ request =>
  match request with
  | .clock | .utcNow => (0 : Int)
  | .scraperForPortal _ | .normalizerForPortal _ => .ok ()
  | .fetch query => .ok (portals.response query)
  | .normalize portalSlug listing => portals.normalizer portalSlug listing

theorem answers_portalOracle (portals : Portals) (i op : Nat) (request : CycleCall) :
    portals.Answers request (portalOracle portals i op request) := by
  cases request <;> trivial

def portalRun (portals : Portals) (planned : Nat → PlannedQuery) (schedule : List Nat) :
    CycleSys :=
  (Sys.start Alerts.salesStore fun i =>
    @RunAlertCycle.runOne .plain .plain defaultCycle (planned i)).run
      (portalOracle portals) schedule

/-- A search for the province shows the flat for sale, and other searches for rent. -/
def changingPortals : Portals where
  response query :=
    [flatListing (if query.params.get "province" = none then "RENT" else "SALE")]
  normalizer _ := normalizeFlat

def provinceQuery : PlannedQuery :=
  ⟨"idealista", "idealista|province=36",
    ⟨"idealista", Dict.empty.set "province" "36"⟩, []⟩

/-- The sales query, and then the one for the province. -/
def salesThenProvince (i : Nat) : PlannedQuery :=
  if i = 0 then salesQuery else provinceQuery

/-- Only a search for the province shows the flat. -/
def filteringPortals : Portals where
  response query := if query.params.get "province" = none then [] else [flatListing "SALE"]
  normalizer _ := normalizeFlat

open Scraping in
/-- The query of an alert whose value spells out the parameters of another. -/
def unescapedThenEscaped (i : Nat) : PlannedQuery :=
  ((@plan .plain Infrastructure.portalCapabilities
    [if i = 0 then unescaped else flatsInPontevedra]).head?).getD salesQuery

/--
A cached search answers for a property that another search has overwritten, and
for a search that only shares its signature.
-/
theorem cache_is_not_transparent :
    ¬@Transparent .plain .plain defaultCycle salesQuery (portalOracle changingPortals 2) 2
        (portalRun changingPortals salesThenProvince
          (List.replicate 16 0 ++ List.replicate 15 1)).store 1 ∧
      (unescapedThenEscaped 0).signature = (unescapedThenEscaped 1).signature ∧
      ¬@Transparent .plain .plain defaultCycle (unescapedThenEscaped 1)
        (portalOracle filteringPortals 1) 1
        (portalRun filteringPortals unescapedThenEscaped (List.replicate 10 0)).store 1 := by
  refine ⟨fun h => ?_, Scraping.alertSignature_unescaped, fun h => ?_⟩
  · have houtcome : (Except.ok 1 : Except PyError Nat) = .ok 0 := (h ["flat"] rfl).outcome
    cases houtcome
  · have houtcome : (Except.ok 0 : Except PyError Nat) = .ok 1 := (h [] rfl).outcome
    cases houtcome

def steadyPortals : Portals where
  response _ := [flatListing "SALE"]
  normalizer _ := normalizeFlat

theorem cache_is_transparent_sales :
    let store := (portalRun steadyPortals (fun _ => salesQuery) (List.replicate 20 0)).store
    SearchCacheRepository.get "idealista|" 1 store = some ["flat"] ∧
      @Transparent .plain .plain defaultCycle salesQuery (portalOracle steadyPortals 1) 1
        store 1 := by
  refine ⟨rfl, @cache_is_transparent .plain .plain (fun _ => defaultCycle)
    (fun _ => salesQuery) steadyPortals (fun _ _ _ => ⟨rfl, rfl⟩) ?_ Alerts.salesStore rfl
    rfl (portalOracle steadyPortals) (answers_portalOracle steadyPortals) _ 1 1⟩
  intro i a ha j b hb _ _
  rw [List.mem_singleton.mp ha, List.mem_singleton.mp hb]
  exact ⟨rfl, rfl⟩

end RealEstateTracker.Cycle
