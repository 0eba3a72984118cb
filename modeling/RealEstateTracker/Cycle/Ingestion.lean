import RealEstateTracker.Cycle.Footprints
import RealEstateTracker.Foundation.ChangeDetection
import RealEstateTracker.Persistence.PropertyRoundTrip

/-!
# Ingestion

The listings of the store, by portal and external identifier, and the rows of
their properties are a catalogue.  The loop over a fetched page refreshes it one
listing at a time, and a loop that normalizes every listing saves them all.
-/

namespace RealEstateTracker.Cycle

open Foundation Domain Application Persistence

/-! ## Listing rows -/

def listingKey (listing : RawListing) : String × String :=
  (listing.portalSlug, listing.externalId)

def rowKey (row : ListingRow) : String × String := (row.portalSlug, row.externalId)

theorem listed_of_find {portalSlug externalId : String} {row : ListingRow} {db : Store}
    (h : PortalListingRepository.find portalSlug externalId db = some row) :
    row ∈ db.listings ∧ rowKey row = (portalSlug, externalId) := by
  have hkey := List.find?_some h
  simp only [decide_eq_true_eq] at hkey
  exact ⟨List.mem_of_find?_eq_some h, by rw [rowKey, hkey.1, hkey.2]⟩

/--
Listing rows have distinct identifiers; neither the session from its operation `op`
on nor an unused session draws one of them.
-/
structure ListingIds (unused : Nat → Prop) (txn op : Nat) (db : Store) : Prop where
  nodup : (db.listings.map (·.id)).Nodup
  used : ¬unused txn
  fresh : ∀ row ∈ db.listings, ∀ later, op ≤ later → row.id ≠ .uuid4 txn later 0
  unused : ∀ row ∈ db.listings, ∀ other, unused other → ∀ op, row.id ≠ .uuid4 other op 0

section Rows

variable {db : Store} {unused : Nat → Prop} {txn op : Nat}

theorem ListingIds.later {op' : Nat} (h : ListingIds unused txn op db) (hop : op ≤ op') :
    ListingIds unused txn op' db :=
  { h with fresh := fun row hrow later hlater => h.fresh row hrow later (hop.trans hlater) }

theorem ListingIds.congr {db' : Store} (h : ListingIds unused txn op db)
    (hlistings : db'.listings = db.listings) : ListingIds unused txn op db' where
  nodup := hlistings ▸ h.nodup
  used := h.used
  fresh := hlistings ▸ h.fresh
  unused := hlistings ▸ h.unused

theorem listings_portalWrites (slug : String) (db : Store) :
    (applyAll (portalWrites slug db) db).listings = db.listings :=
  listings_applyAll ((allIn_portalWrites (.head []) slug db).spares (by decide)) db

theorem find_updateListing (loaded model : ListingRow)
    (portalSlug externalId : String) :
    PortalListingRepository.find portalSlug externalId
        ((Write.updateListing loaded model).apply db) =
      (PortalListingRepository.find portalSlug externalId db).map fun row =>
        if row.id = loaded.id then ListingRow.update loaded model row else row := by
  have hkept : ∀ row, decide ((ListingRow.update loaded model row).portalSlug =
        portalSlug ∧ (ListingRow.update loaded model row).externalId = externalId) =
      decide (row.portalSlug = portalSlug ∧ row.externalId = externalId) :=
    fun _ => rfl
  rw [PortalListingRepository.find, Write.apply, find?_updateWhere hkept]
  simp only [decide_eq_true_eq]
  rfl

variable (listing : RawListing) (propertyId : PropertyId) (hash : String) (stamp : Stamp)

theorem find_upsertWrites : ∃ row, PortalListingRepository.find listing.portalSlug
      listing.externalId (applyAll (PortalListingRepository.upsertWrites listing
        propertyId hash stamp db) db) = some row ∧
    row.contentHash = hash ∧ row.url = listing.url ∧ row.propertyId = propertyId := by
  unfold PortalListingRepository.upsertWrites
  dsimp only
  split
  · next existing hexisting =>
    rw [applyAll_cons, applyAll_nil, apply_eq, find_updateListing, hexisting]
    exact ⟨_, rfl, by simp [ListingRow.update]⟩
  · next hnone =>
    rw [applyAll_append, applyAll_cons, applyAll_nil, apply_eq, Write.apply,
      PortalListingRepository.find, listings_portalWrites, List.find?_append]
    unfold PortalListingRepository.find at hnone
    rw [hnone, Option.none_or, List.find?_cons_of_pos (by simp)]
    exact ⟨_, rfl, rfl, rfl, rfl⟩

theorem find_upsertWrites_of_ne (hids : (db.listings.map (·.id)).Nodup)
    {portalSlug externalId : String} (hne : (portalSlug, externalId) ≠ listingKey listing) :
    PortalListingRepository.find portalSlug externalId (applyAll
        (PortalListingRepository.upsertWrites listing propertyId hash stamp db) db) =
      PortalListingRepository.find portalSlug externalId db := by
  unfold PortalListingRepository.upsertWrites
  dsimp only
  split
  · next existing hexisting =>
    rw [applyAll_cons, applyAll_nil, apply_eq, find_updateListing]
    cases hfind : PortalListingRepository.find portalSlug externalId db with
    | none => rfl
    | some row =>
        obtain ⟨hrow, hkey⟩ := listed_of_find hfind
        obtain ⟨hmem, hkey'⟩ := listed_of_find hexisting
        have hid : row.id ≠ existing.id := by
          intro hid
          have hsame := List.inj_on_of_nodup_map hids hrow hmem hid
          exact hne (hkey.symm.trans ((congrArg rowKey hsame).trans hkey'))
        rw [Option.map_some, if_neg hid]
  · rw [applyAll_append, applyAll_cons, applyAll_nil, apply_eq, Write.apply,
      PortalListingRepository.find, listings_portalWrites, List.find?_append,
      PortalListingRepository.find]
    have hother : ¬(listing.portalSlug = portalSlug ∧
        listing.externalId = externalId) := by
      rintro ⟨hslug, hid⟩
      exact hne (by rw [listingKey, hslug, hid])
    simp [hother]

theorem listingIds_upsertWrites (h : ListingIds unused stamp.txn stamp.op db) :
    ListingIds unused stamp.txn (stamp.op + 1) (applyAll
      (PortalListingRepository.upsertWrites listing propertyId hash stamp db) db) := by
  have hlater := h.later (Nat.le_succ stamp.op)
  unfold PortalListingRepository.upsertWrites
  dsimp only
  split
  · next existing hexisting =>
    rw [applyAll_cons, applyAll_nil, apply_eq, Write.apply, updateWhere]
    have hid : ∀ model row : ListingRow, (if row.id = existing.id then
        ListingRow.update existing model row else row).id = row.id := by
      intro model row
      split <;> rfl
    constructor
    · simp only [List.map_map, Function.comp_def, decide_eq_true_eq, hid]
      exact h.nodup
    · exact h.used
    · simp only [List.forall_mem_map, decide_eq_true_eq, hid]
      exact hlater.fresh
    · simp only [List.forall_mem_map, decide_eq_true_eq, hid]
      exact h.unused
  · rw [applyAll_append, applyAll_cons, applyAll_nil, apply_eq, Write.apply]
    constructor
    · rw [listings_portalWrites]
      refine nodup_map_concat h.nodup fun row hrow => ?_
      exact h.fresh row hrow stamp.op le_rfl
    · exact h.used
    · rw [listings_portalWrites]
      refine List.forall_mem_append.mpr ⟨hlater.fresh, ?_⟩
      intro row hrow later hop hid
      rw [List.mem_singleton.mp hrow] at hid
      obtain ⟨-, heq, -⟩ := Uuid.uuid4.inj hid
      exact absurd heq (Nat.ne_of_lt hop)
    · rw [listings_portalWrites]
      refine List.forall_mem_append.mpr ⟨h.unused, ?_⟩
      intro row hrow other hother op hid
      rw [List.mem_singleton.mp hrow] at hid
      obtain ⟨rfl, -, -⟩ := Uuid.uuid4.inj hid
      exact h.used hother

end Rows

/-! ## The catalogue of a store -/

section Catalogues

variable [PersistenceRuntime] {D : Type} {unused : Nat → Prop}

abbrev ListingCatalogue (D : Type) :=
  Catalogue (String × String) String String PropertyId D

abbrev ListingSighting (D : Type) :=
  Sighting (String × String) String String PropertyId D PyError

/-- What is observed of the property rows is a parameter. -/
def catalogue (observe : PropertyRow → D) (db : Store) : ListingCatalogue D where
  entries key := (PortalListingRepository.find key.1 key.2 db).map fun row =>
    ⟨row.contentHash, row.url, row.propertyId⟩
  items id := (PropertyRepository.find id db).map observe

/-- Storing a property leaves what is observed of the row that is stored. -/
def Observes (observe : PropertyRow → D) : Prop :=
  ∀ prop now row stamp db, PropertyRepository.toModel prop now = .ok row →
    (PropertyRepository.find prop.id (applyAll (PropertyRepository.addWrites prop row now
      stamp db) db)).map observe = some (observe row)

theorem catalogue_congr (observe : PropertyRow → D) {db db' : Store}
    (hlistings : db'.listings = db.listings) (hproperties : db'.properties = db.properties) :
    catalogue observe db' = catalogue observe db := by
  simp only [catalogue, PortalListingRepository.find, PropertyRepository.find, hlistings,
    hproperties]

theorem catalogue_applyAll (observe : PropertyRow → D) {tables : List Table}
    {writes : List Write} (h : AllIn tables writes) (hlistings : .listings ∉ tables)
    (hproperties : .properties ∉ tables) (db : Store) :
    catalogue observe (applyAll writes db) = catalogue observe db :=
  catalogue_congr observe
    (listings_applyAll (h.spares hlistings) db)
    (properties_applyAll (h.spares hproperties) db)

variable [PythonRuntime] (normalizer : String → RawListing → Except PyError NormalizationResult)
  (observe : PropertyRow → D)

def made (portalSlug : String) (listing : RawListing) (time : DateTime) :
    Except PyError (Option (PropertyId × Except PyError D)) := do
  let result ← normalizer portalSlug listing
  return result.property.map fun prop =>
    (prop.id, (PropertyRepository.toModel prop time).map observe)

def sightingOf (portalSlug : String) (listing : RawListing) (time : DateTime) :
    ListingSighting D where
  key := listingKey listing
  hash := contentHash listing.raw
  url := listing.url
  found := made normalizer observe portalSlug listing time

variable {normalizer} {observe} {portalSlug : String} {listing : RawListing}
  {time : DateTime}

omit [PersistenceRuntime] [PythonRuntime] in
theorem made_eq {result : NormalizationResult}
    (hresult : normalizer portalSlug listing = .ok result) :
    made normalizer observe portalSlug listing time =
      .ok (result.property.map fun prop =>
        (prop.id, (PropertyRepository.toModel prop time).map observe)) := by
  rw [made, hresult]
  rfl

variable {db : Store}

theorem catalogue_saved (hobserve : Observes observe) (x : ListingSighting D)
    (listing : RawListing) (hkey : x.key = listingKey listing)
    (hhash : x.hash = contentHash listing.raw) (hurl : x.url = listing.url)
    {prop : Property} {row : PropertyRow}
    (hrow : PropertyRepository.toModel prop time = .ok row) (stamp stamp' : Stamp)
    (hids : ListingIds unused stamp'.txn stamp'.op db) :
    let db' := applyAll (PropertyRepository.addWrites prop row time stamp db) db
    let db'' := applyAll (PortalListingRepository.upsertWrites listing prop.id
      (contentHash listing.raw) stamp' db') db'
    catalogue observe db'' = (catalogue observe db).put x prop.id (observe row) ∧
      ListingIds unused stamp'.txn (stamp'.op + 1) db'' := by
  intro db' db''
  have hlistings : db'.listings = db.listings :=
    listings_applyAll
      ((allIn_addWrites_property prop row time stamp db).spares (by decide)) db
  have hproperties : db''.properties = db'.properties :=
    properties_applyAll
      ((allIn_upsertWrites listing prop.id _ stamp' db').spares (by decide)) db'
  have hids' := hids.congr hlistings
  refine ⟨Catalogue.ext (funext fun key => ?_) (funext fun id => ?_),
    listingIds_upsertWrites listing prop.id _ stamp' hids'⟩
  · by_cases heq : key = x.key
    · obtain ⟨stored, hfind, hhash', hurl', hid⟩ := @find_upsertWrites db' listing prop.id
        (contentHash listing.raw) stamp'
      rw [heq, Catalogue.entries_put_self, hhash, hurl, hkey, ← hhash', ← hurl', ← hid]
      exact congrArg (Option.map _) hfind
    · rw [Catalogue.entries_put_of_ne heq]
      rw [hkey] at heq
      have hfind := find_upsertWrites_of_ne listing prop.id (contentHash listing.raw)
        stamp' hids'.nodup heq
      simp only [catalogue]
      rw [hfind, PortalListingRepository.find, hlistings]
      rfl
  · have hsame : PropertyRepository.find id db'' = PropertyRepository.find id db' := by
      rw [PropertyRepository.find, hproperties, PropertyRepository.find]
    simp only [catalogue, hsame, Catalogue.put]
    by_cases hid : id = prop.id
    · rw [hid, Function.update_self]
      exact hobserve prop time row stamp db hrow
    · rw [Function.update_of_ne hid, find_addWrites (PropertyRepository.id_toModel hrow),
        if_neg hid]

/-! ## One listing after the other -/

def normalizeListing (portalSlug : String) (resolved : Resolved) (listing : RawListing) :
    CycleTxn Resolved := do
  let result ← normalize portalSlug listing
  storeListing listing resolved result

structure Ingests {α : Type} (found : α → List PropertyId) (observe : PropertyRow → D)
    (unused : Nat → Prop) (s : CycleSession) (db : Store)
    (ended : Ended Store Write CycleCall CycleAnswer PyError α)
    (result : Except PyError (List PropertyId) × ListingCatalogue D) : Prop where
  store : ended.store = db
  txn : ended.session.txn = s.txn
  ids : ListingIds unused s.txn ended.session.ops (ended.session.view db)
  outcome : ended.outcome.map found = result.1
  catalogue : catalogue observe (ended.session.view db) = result.2

variable {answers : Nat → (request : CycleCall) → CycleAnswer request} {s : CycleSession}

def Normalizes (normalizer : String → RawListing → Except PyError NormalizationResult)
    (answers : Nat → (request : CycleCall) → CycleAnswer request) : Prop :=
  ∀ op portalSlug listing,
    answers op (.normalize portalSlug listing) = normalizer portalSlug listing

omit [PythonRuntime] in
/-- A property whose row cannot be computed is not stored. -/
theorem eval_addProperty (prop : Property) (f : Unit → CycleTxn Resolved) :
    ((addProperty prop).bind f).eval answers s db =
      match PropertyRepository.toModel prop (answers s.ops .utcNow) with
      | .error error =>
          ⟨.error error, s.answered .utcNow (answers s.ops .utcNow), db⟩
      | .ok row =>
          (f ()).eval answers ((s.answered .utcNow (answers s.ops .utcNow)).wrote
            (PropertyRepository.addWrites prop row (answers s.ops .utcNow)
              ⟨s.txn, s.ops + 1⟩ (s.view db))) db := by
  simp only [addProperty, utcNow, Txn.bind_eq, Txn.bind, Txn.eval]
  cases PropertyRepository.toModel prop (answers s.ops .utcNow) <;> rfl

theorem ingests_storeListing
    (answers : Nat → (request : CycleCall) → CycleAnswer request)
    (hobserve : Observes observe)
    (hids : ListingIds unused s.txn s.ops (s.view db)) {result : NormalizationResult}
    (hresult : normalizer portalSlug listing = .ok result) (resolved : Resolved) :
    Ingests Resolved.propertyIds observe unused s db
      ((storeListing listing resolved result).eval answers s db)
      (Catalogue.run Catalogue.save (catalogue observe (s.view db))
        [sightingOf normalizer observe portalSlug listing (answers s.ops .utcNow)]
        resolved.propertyIds) := by
  generalize hx : sightingOf normalizer observe portalSlug listing
    (answers s.ops .utcNow) = x
  have hfound : x.found = made normalizer observe portalSlug listing
      (answers s.ops .utcNow) := by rw [← hx, sightingOf]
  unfold storeListing
  dsimp only
  rw [Catalogue.run, Catalogue.save, hfound, made_eq hresult]
  cases result.property with
  | none =>
      exact ⟨rfl, rfl, hids, by simp [Txn.eval, Except.map, Catalogue.run], rfl⟩
  | some prop =>
      dsimp only [Option.map_some]
      rw [Txn.bind_eq, eval_addProperty]
      cases hrow : PropertyRepository.toModel prop (answers s.ops .utcNow) with
      | error error => exact ⟨rfl, rfl, hids.later (Nat.le_succ _), rfl, rfl⟩
      | ok row =>
          obtain ⟨hcatalogue, hids'⟩ := catalogue_saved hobserve x listing
            (by rw [← hx, sightingOf]) (by rw [← hx, sightingOf])
            (by rw [← hx, sightingOf]) hrow
            ⟨s.txn, s.ops + 1⟩ ⟨s.txn, s.ops + 2⟩ (hids.later (Nat.le_add_right _ 2))
          simp only [Txn.exec, Txn.bind_eq, Txn.bind, Txn.eval, Txn.pure_eq]
          refine ⟨rfl, rfl, ?_, rfl, ?_⟩
          · simp only [Session.view_wrote, Session.view_answered]
            exact hids'
          · simp only [Session.view_wrote, Session.view_answered]
            exact hcatalogue

theorem ingests_normalizeListing (hobserve : Observes observe)
    (hnormalizes : Normalizes normalizer answers)
    (hids : ListingIds unused s.txn s.ops (s.view db)) (portalSlug : String)
    (listing : RawListing) (resolved : Resolved) :
    Ingests Resolved.propertyIds observe unused s db
      ((normalizeListing portalSlug resolved listing).eval answers s db)
      (Catalogue.run Catalogue.save (catalogue observe (s.view db))
        [sightingOf normalizer observe portalSlug listing (answers (s.ops + 1) .utcNow)]
        resolved.propertyIds) := by
  have hanswered : ListingIds unused s.txn (s.ops + 1) (s.view db) := hids.later (Nat.le_succ _)
  simp only [normalizeListing, normalize, Txn.bind_eq, Txn.bind, Txn.eval,
    hnormalizes s.ops portalSlug listing]
  cases hresult : normalizer portalSlug listing with
  | error error =>
      rw [Catalogue.run, Catalogue.save, sightingOf, made, hresult]
      exact ⟨rfl, rfl, hanswered, rfl, rfl⟩
  | ok result =>
      have hstored := ingests_storeListing (s := s.answered
        (.normalize portalSlug listing) (.ok result)) answers hobserve hanswered hresult
        resolved
      exact ⟨hstored.store, hstored.txn, hstored.ids, hstored.outcome, hstored.catalogue⟩

omit [PythonRuntime] in
theorem findUnchanged_eq_some (observe : PropertyRow → D) {propertyId : PropertyId}
    {hash : String} :
    PortalListingRepository.findUnchangedPropertyId listing.portalSlug listing.externalId
        hash db = some propertyId ↔
      ∃ entry, (catalogue observe db).entries (listingKey listing) = some entry ∧
        entry.hash = hash ∧ entry.item = propertyId := by
  unfold PortalListingRepository.findUnchangedPropertyId
  simp only [catalogue, listingKey]
  cases PortalListingRepository.find listing.portalSlug listing.externalId db with
  | none => simp
  | some row => simp

theorem ingests_resolveListing (hobserve : Observes observe)
    (hnormalizes : Normalizes normalizer answers)
    (hids : ListingIds unused s.txn s.ops (s.view db)) (portalSlug : String)
    (listing : RawListing) (resolved : Resolved) :
    Ingests Resolved.propertyIds observe unused s db
      ((resolveListing portalSlug resolved listing).eval answers s db)
      (Catalogue.run Catalogue.refresh (catalogue observe (s.view db))
        [sightingOf normalizer observe portalSlug listing (answers (s.ops + 2) .utcNow)]
        resolved.propertyIds) := by
  have hqueried : ListingIds unused s.txn (s.ops + 1) (s.view db) := hids.later (Nat.le_succ _)
  have hview : (s.wrote []).view db = s.view db := by
    rw [Session.view_wrote, applyAll_nil]
  unfold resolveListing
  simp only [Txn.query, Txn.bind_eq, Txn.bind, Txn.eval]
  cases hunchanged : PortalListingRepository.findUnchangedPropertyId listing.portalSlug
      listing.externalId (contentHash listing.raw) (s.view db) with
  | some propertyId =>
      obtain ⟨entry, hentry, hhash, rfl⟩ :=
        (findUnchanged_eq_some observe).mp hunchanged
      rw [Catalogue.run, Catalogue.refresh_of_unchanged hentry hhash]
      refine ⟨rfl, rfl, ?_, rfl, ?_⟩
      · simpa [Txn.eval, hview] using hqueried
      · simp [Txn.eval, hview, Catalogue.run]
  | none =>
      have hchanged : ¬(catalogue observe (s.view db)).Unchanged
          (sightingOf normalizer observe portalSlug listing
            (answers (s.ops + 2) .utcNow)) := by
        intro hsame
        obtain ⟨entry, hentry, hhash⟩ := Option.map_eq_some_iff.mp hsame
        have hfound := (findUnchanged_eq_some observe).mpr ⟨entry, hentry, hhash, rfl⟩
        cases hunchanged.symm.trans hfound
      have hnormalized := ingests_normalizeListing (s := s.wrote []) hobserve hnormalizes
        (by rw [hview]; exact hqueried) portalSlug listing resolved
      rw [hview, Catalogue.run] at hnormalized
      rw [Catalogue.run, Catalogue.refresh_of_changed hchanged]
      exact ⟨hnormalized.store, hnormalized.txn, hnormalized.ids, hnormalized.outcome,
        hnormalized.catalogue⟩

def SeenAs (normalizer : String → RawListing → Except PyError NormalizationResult)
    (observe : PropertyRow → D)
    (answers : Nat → (request : CycleCall) → CycleAnswer request) (portalSlug : String)
    (listings : List RawListing) (xs : List (ListingSighting D)) : Prop :=
  List.Forall₂ (fun listing x => ∃ op,
    x = sightingOf normalizer observe portalSlug listing (answers op .utcNow)) listings xs

omit [PersistenceRuntime] in
theorem exists_seenAs (listings : List RawListing) :
    ∃ xs, SeenAs normalizer observe answers portalSlug listings xs := by
  induction listings with
  | nil => exact ⟨[], .nil⟩
  | cons listing listings ih =>
      obtain ⟨xs, hxs⟩ := ih
      exact ⟨_ :: xs, .cons ⟨0, rfl⟩ hxs⟩

omit [PersistenceRuntime] in
theorem SeenAs.forall_mem_iff {listings : List RawListing} {xs : List (ListingSighting D)}
    (h : SeenAs normalizer observe answers portalSlug listings xs)
    {P : ListingSighting D → Prop} {Q : RawListing → Prop}
    (hiff : ∀ listing op,
      P (sightingOf normalizer observe portalSlug listing (answers op .utcNow)) ↔
        Q listing) :
    (∀ x ∈ xs, P x) ↔ ∀ listing ∈ listings, Q listing := by
  induction h with
  | nil => simp
  | cons hx _ ih =>
      obtain ⟨op, rfl⟩ := hx
      rw [List.forall_mem_cons, List.forall_mem_cons, hiff, ih]

omit [PersistenceRuntime] in
theorem SeenAs.exists_mem_iff {listings : List RawListing} {xs : List (ListingSighting D)}
    (h : SeenAs normalizer observe answers portalSlug listings xs)
    {P : ListingSighting D → Prop} {Q : RawListing → Prop}
    (hiff : ∀ listing op,
      P (sightingOf normalizer observe portalSlug listing (answers op .utcNow)) ↔
        Q listing) :
    (∃ x ∈ xs, P x) ↔ ∃ listing ∈ listings, Q listing := by
  have hnot : (∀ x ∈ xs, ¬P x) ↔ ∀ listing ∈ listings, ¬Q listing :=
    h.forall_mem_iff fun listing op => not_congr (hiff listing op)
  simpa using not_congr hnot

theorem ingests_foldEach {body : Resolved → RawListing → CycleTxn Resolved}
    {step : ListingCatalogue D → ListingSighting D →
      Except PyError (Option PropertyId × ListingCatalogue D)}
    (hbody : ∀ (s : CycleSession) resolved listing, ListingIds unused s.txn s.ops (s.view db) →
      ∃ op, Ingests Resolved.propertyIds observe unused s db
        ((body resolved listing).eval answers s db)
        (Catalogue.run step (catalogue observe (s.view db))
          [sightingOf normalizer observe portalSlug listing (answers op .utcNow)]
          resolved.propertyIds))
    (listings : List RawListing) (resolved : Resolved)
    (hids : ListingIds unused s.txn s.ops (s.view db)) :
    ∃ xs, SeenAs normalizer observe answers portalSlug listings xs ∧
      Ingests Resolved.propertyIds observe unused s db
        ((Txn.foldEach listings resolved body).eval answers s db)
        (Catalogue.run step (catalogue observe (s.view db)) xs resolved.propertyIds) := by
  induction listings generalizing s resolved with
  | nil => exact ⟨[], .nil, rfl, rfl, hids, rfl, rfl⟩
  | cons listing listings ih =>
      obtain ⟨op, hturn⟩ := hbody s resolved listing hids
      generalize hx : sightingOf normalizer observe portalSlug listing
        (answers op .utcNow) = x at hturn
      rw [Txn.foldEach, Txn.eval_bind, Txn.andThen]
      generalize (body resolved listing).eval answers s db = ended at hturn ⊢
      obtain ⟨outcome, s', db'⟩ := ended
      obtain ⟨rfl, htxn, hids', houtcome, hcatalogue⟩ := hturn
      cases outcome with
      | error error =>
          obtain ⟨xs, hxs⟩ := @exists_seenAs D _ normalizer observe portalSlug answers
            listings
          refine ⟨x :: xs, .cons ⟨op, hx.symm⟩ hxs, ?_⟩
          rw [Catalogue.run_cons, Catalogue.continued, ← houtcome]
          exact ⟨rfl, htxn, hids', rfl, hcatalogue⟩
      | ok resolved' =>
          rw [← htxn] at hids'
          obtain ⟨xs, hxs, hrest⟩ := ih resolved' hids'
          refine ⟨x :: xs, .cons ⟨op, hx.symm⟩ hxs, ?_⟩
          rw [Catalogue.run_cons, Catalogue.continued, ← houtcome, ← hcatalogue]
          exact ⟨hrest.store, hrest.txn.trans htxn, htxn ▸ hrest.ids, hrest.outcome,
            hrest.catalogue⟩

/-! ## A whole scrape -/

def RunAlertCycle.remember (cycle : RunAlertCycle) (planned : PlannedQuery)
    (now : DateTime) (listings : List RawListing) (resolved : Resolved) :
    CycleTxn (List PropertyId) := do
  Txn.exec fun _ => SearchCacheRepository.putWrites planned.signature
    planned.portalSlug resolved.propertyIds now cycle.cacheTtlSeconds
  let finishedAt ← clock
  recordExecution (successAttempt planned listings resolved now finishedAt)
  return resolved.propertyIds

def RunAlertCycle.scrapeWith (cycle : RunAlertCycle)
    (body : Resolved → RawListing → CycleTxn Resolved) (planned : PlannedQuery)
    (now : DateTime) : CycleTxn (List PropertyId) := do
  scraperForPortal planned.portalSlug
  let listings ← fetch planned.query
  normalizerForPortal planned.portalSlug
  let resolved ← Txn.foldEach listings ⟨[], 0, 0⟩ body
  cycle.remember planned now listings resolved

theorem scrapeCandidates_eq (cycle : RunAlertCycle) (planned : PlannedQuery)
    (now : DateTime) : cycle.scrapeCandidates planned now =
      cycle.scrapeWith (resolveListing planned.portalSlug) planned now := rfl

/-- The page that a scrape is given, or the exception that ends it. -/
def fetched (answers : Nat → (request : CycleCall) → CycleAnswer request)
    (planned : PlannedQuery) (op : Nat) : Except PyError (List RawListing) := do
  answers op (.scraperForPortal planned.portalSlug)
  let listings ← answers (op + 1) (.fetch planned.query)
  answers (op + 2) (.normalizerForPortal planned.portalSlug)
  return listings

def runFetched (step : ListingCatalogue D → ListingSighting D →
      Except PyError (Option PropertyId × ListingCatalogue D))
    (page : Except PyError (List RawListing)) (c : ListingCatalogue D)
    (xs : List (ListingSighting D)) :
    Except PyError (List PropertyId) × ListingCatalogue D :=
  match page with
  | .error error => (.error error, c)
  | .ok _ => Catalogue.run step c xs []

omit [PythonRuntime] in
theorem ingests_remember (observe : PropertyRow → D)
    (answers : Nat → (request : CycleCall) → CycleAnswer request) (cycle : RunAlertCycle)
    (planned : PlannedQuery) (now : DateTime) (listings : List RawListing)
    (resolved : Resolved) (hids : ListingIds unused s.txn s.ops (s.view db)) :
    Ingests id observe unused s db
      ((cycle.remember planned now listings resolved).eval answers s db)
      (.ok resolved.propertyIds, catalogue observe (s.view db)) := by
  have hput := allIn_putWrites planned.signature planned.portalSlug resolved.propertyIds
    now cycle.cacheTtlSeconds (s.view db)
  have hrecord := fun attempt stamp db => allIn_recordWrites attempt stamp db
  simp only [RunAlertCycle.remember, Txn.exec, clock, recordExecution, Txn.bind_eq,
    Txn.bind, Txn.eval, Txn.pure_eq]
  refine ⟨rfl, rfl, ?_, rfl, ?_⟩
  · simp only [Session.view_wrote, Session.view_answered]
    refine (hids.later (Nat.le_add_right _ 3)).congr ?_
    rw [listings_applyAll ((hrecord _ _ _).spares (by decide)),
      listings_applyAll (hput.spares (by decide))]
  · simp only [Session.view_wrote, Session.view_answered]
    rw [catalogue_applyAll observe (hrecord _ _ _) (by decide) (by decide),
      catalogue_applyAll observe hput (by decide) (by decide)]

theorem ingests_scrapeWith {body : Resolved → RawListing → CycleTxn Resolved}
    {step : ListingCatalogue D → ListingSighting D →
      Except PyError (Option PropertyId × ListingCatalogue D)} {planned : PlannedQuery}
    (hbody : ∀ (s : CycleSession) resolved listing, ListingIds unused s.txn s.ops (s.view db) →
      ∃ op, Ingests Resolved.propertyIds observe unused s db
        ((body resolved listing).eval answers s db)
        (Catalogue.run step (catalogue observe (s.view db))
          [sightingOf normalizer observe planned.portalSlug listing (answers op .utcNow)]
          resolved.propertyIds))
    (cycle : RunAlertCycle) (now : DateTime) (hids : ListingIds unused s.txn s.ops (s.view db)) :
    ∃ xs, (∀ listings, fetched answers planned s.ops = .ok listings →
        SeenAs normalizer observe answers planned.portalSlug listings xs) ∧
      Ingests id observe unused s db ((cycle.scrapeWith body planned now).eval answers s db)
        (runFetched step (fetched answers planned s.ops) (catalogue observe (s.view db))
          xs) := by
  have hlater : ∀ n, ListingIds unused s.txn (s.ops + n) (s.view db) := fun n =>
    hids.later (Nat.le_add_right _ n)
  simp only [RunAlertCycle.scrapeWith, scraperForPortal, fetch, normalizerForPortal,
    Txn.bind_eq, Txn.bind, Txn.eval, fetched]
  cases answers s.ops (.scraperForPortal planned.portalSlug) with
  | error error => exact ⟨[], fun _ h => (by cases h), rfl, rfl, hlater 1, rfl, rfl⟩
  | ok scraper =>
      simp only [Txn.ofExcept, Txn.bind, Txn.eval, Session.ops_answered]
      cases answers (s.ops + 1) (.fetch planned.query) with
      | error error => exact ⟨[], fun _ h => (by cases h), rfl, rfl, hlater 2, rfl, rfl⟩
      | ok listings =>
          simp only [Txn.bind, Txn.eval, Session.ops_answered]
          cases answers (s.ops + 1 + 1) (.normalizerForPortal planned.portalSlug) with
          | error error => exact ⟨[], fun _ h => (by cases h), rfl, rfl, hlater 3, rfl, rfl⟩
          | ok _ =>
              obtain ⟨xs, hxs, hloop⟩ := ingests_foldEach
                (s := ((s.answered (.scraperForPortal planned.portalSlug)
                  (.ok scraper)).answered (.fetch planned.query) (.ok listings)).answered
                    (.normalizerForPortal planned.portalSlug) (.ok ())) hbody listings
                ⟨[], 0, 0⟩ (hlater 3)
              refine ⟨xs, fun page hpage => ?_, ?_⟩
              · obtain rfl := pure_eq_ok.mp hpage
                exact hxs
              · simp only [Txn.bind]
                rw [Txn.eval_bind, Txn.andThen]
                generalize (Txn.foldEach listings _ body).eval answers _ db = ended
                  at hloop ⊢
                obtain ⟨outcome, s', db'⟩ := ended
                obtain ⟨rfl, htxn, hids', houtcome, hcatalogue⟩ := hloop
                cases outcome with
                | error error =>
                    exact ⟨rfl, htxn, hids', houtcome, hcatalogue⟩
                | ok resolved =>
                    rw [← htxn] at hids'
                    have hend := ingests_remember observe answers cycle planned now
                      listings resolved hids'
                    exact ⟨hend.store, hend.txn.trans htxn, htxn ▸ hend.ids,
                      hend.outcome.trans houtcome, hend.catalogue.trans hcatalogue⟩

variable (s db) in
theorem ingests_scrapeCandidates (hobserve : Observes observe)
    (hnormalizes : Normalizes normalizer answers) (cycle : RunAlertCycle)
    (planned : PlannedQuery) (now : DateTime) (hids : ListingIds unused s.txn s.ops (s.view db)) :
    ∃ xs, (∀ listings, fetched answers planned s.ops = .ok listings →
        SeenAs normalizer observe answers planned.portalSlug listings xs) ∧
      Ingests id observe unused s db ((cycle.scrapeCandidates planned now).eval answers s db)
        (runFetched Catalogue.refresh (fetched answers planned s.ops)
          (catalogue observe (s.view db)) xs) := by
  rw [scrapeCandidates_eq]
  exact ingests_scrapeWith (fun s resolved listing hids => ⟨_, ingests_resolveListing
    hobserve hnormalizes hids planned.portalSlug listing resolved⟩) cycle now hids

end Catalogues

end RealEstateTracker.Cycle
