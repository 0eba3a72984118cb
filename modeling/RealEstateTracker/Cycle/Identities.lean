import RealEstateTracker.Alerts.CreateAlert
import RealEstateTracker.Cycle.CacheTransparency
import RealEstateTracker.Cycle.SkippedListings
import RealEstateTracker.Foundation.Facts

/-!
# Identities of listings and properties

A property is named after the portal and the external identifier of its listing.
Listings, properties, cached searches and matches refer to each other, partly in ways
that the database does not check, and whatever the workers, creations and edits that
run at once, no reference is left dangling and every property has one listing.
-/

namespace RealEstateTracker.Cycle

open Foundation Domain Application Persistence

/-! ## References -/

inductive StoreFact where
  | listing (id : Uuid) (key : String × String)
  | property (id : PropertyId)

def StoreFact.Holds (db : Store) : StoreFact → Prop
  | listing id key => ∃ row ∈ db.listings, row.id = id ∧ rowKey row = key
  | property id => ∃ row ∈ db.properties, row.id = id

def StoreFact.AddedBy : Write → StoreFact → Prop
  | .insertListing row, listing id key => row.id = id ∧ rowKey row = key
  | .insertProperty row, property id => row.id = id
  | _, _ => False

section Facts

variable [PythonRuntime]

/-- The row has the property that is named after it, and the property is known. -/
def NamesKnown (known : StoreFact → Prop) (row : ListingRow) : Prop :=
  row.propertyId = propertyOf (rowKey row) ∧ known (.property row.propertyId)

def SafeWrite (known : StoreFact → Prop) : Write → Prop
  | .insertListing row => NamesKnown known row
  | .updateListing loaded model =>
      NamesKnown known model ∧ known (.listing loaded.id (rowKey model))
  | .insertCache row | .updateCache row => ∀ id ∈ row.propertyIds, known (.property id)
  | _ => True

/-- The properties that listings and cached searches refer to exist. -/
structure References (db : Store) : Prop where
  listed : ∀ row ∈ db.listings, StoreFact.Holds db (.property row.propertyId)
  cached : ∀ row ∈ db.caches, ∀ id ∈ row.propertyIds, StoreFact.Holds db (.property id)

omit [PythonRuntime] in
theorem holds_apply (write : Write) (db : Store) (fact : StoreFact) :
    fact.Holds (Database.apply write db) ↔ fact.Holds db ∨ fact.AddedBy write := by
  cases fact with
  | listing id key =>
      cases write with
      | insertListing row =>
          simp [apply_eq, Write.apply, StoreFact.Holds, StoreFact.AddedBy, or_and_right,
            exists_or]
      | updateListing loaded model =>
          simp only [apply_eq, Write.apply, updateWhere, StoreFact.Holds, List.mem_map,
            StoreFact.AddedBy, or_false]
          constructor
          · rintro ⟨_, ⟨stored, hstored, rfl⟩, hid, hkey⟩
            refine ⟨stored, hstored, ?_⟩
            split at hid <;> split at hkey <;> exact ⟨hid, hkey⟩
          · rintro ⟨stored, hstored, hid, hkey⟩
            refine ⟨_, ⟨stored, hstored, rfl⟩, ?_⟩
            split <;> exact ⟨hid, hkey⟩
      | _ => simp [apply_eq, Write.apply, StoreFact.Holds, StoreFact.AddedBy]
  | property id =>
      cases write with
      | insertProperty row =>
          simp [apply_eq, Write.apply, StoreFact.Holds, StoreFact.AddedBy, or_and_right,
            exists_or]
      | updateProperty loaded model =>
          simp only [apply_eq, Write.apply, updateWhere, StoreFact.Holds, List.mem_map,
            StoreFact.AddedBy, or_false]
          constructor
          · rintro ⟨_, ⟨stored, hstored, rfl⟩, hid⟩
            refine ⟨stored, hstored, ?_⟩
            split at hid <;> exact hid
          · rintro ⟨stored, hstored, hid⟩
            refine ⟨_, ⟨stored, hstored, rfl⟩, ?_⟩
            split <;> exact hid
      | _ => simp [apply_eq, Write.apply, StoreFact.Holds, StoreFact.AddedBy]

theorem safeWrite_mono {known known' : StoreFact → Prop} {write : Write}
    (hknown : ∀ fact, known fact → known' fact) (h : SafeWrite known write) :
    SafeWrite known' write := by
  cases write with
  | insertListing row => exact ⟨h.1, hknown _ h.2⟩
  | updateListing loaded model => exact ⟨⟨h.1.1, hknown _ h.1.2⟩, hknown _ h.2⟩
  | insertCache row => exact fun id hid => hknown _ (h id hid)
  | updateCache model => exact fun id hid => hknown _ (h id hid)
  | _ => trivial

theorem references_apply {write : Write} {db : Store}
    (hsafe : SafeWrite (StoreFact.Holds db) write) (h : References db) :
    References (Database.apply write db) := by
  have hgrows : ∀ id, StoreFact.Holds db (.property id) →
      StoreFact.Holds (Database.apply write db) (.property id) :=
    fun id hid => (holds_apply write db _).mpr (.inl hid)
  cases write with
  | insertListing row =>
      exact ⟨List.forall_mem_append.mpr ⟨fun stored hstored =>
        hgrows _ (h.listed stored hstored), List.forall_mem_singleton.mpr
          (hgrows _ hsafe.2)⟩, h.cached⟩
  | updateListing loaded model =>
      refine ⟨fun row hrow => ?_, h.cached⟩
      obtain ⟨stored, hstored, rfl⟩ := List.mem_map.mp hrow
      split
      · rcases column_cases loaded.propertyId model.propertyId stored.propertyId
          with hkept | hset
        · rw [ListingRow.update, hkept]
          exact hgrows _ (h.listed stored hstored)
        · rw [ListingRow.update, hset]
          exact hgrows _ hsafe.1.2
      · exact hgrows _ (h.listed stored hstored)
  | insertCache row =>
      exact ⟨h.listed, List.forall_mem_append.mpr ⟨fun stored hstored id hid =>
        h.cached stored hstored id hid, List.forall_mem_singleton.mpr hsafe⟩⟩
  | updateCache model =>
      refine ⟨h.listed, fun row hrow id hid => ?_⟩
      obtain ⟨stored, hstored, rfl⟩ := List.mem_map.mp hrow
      split at hid
      · exact hsafe id hid
      · exact h.cached stored hstored id hid
  | insertProperty row =>
      exact ⟨fun stored hstored => hgrows _ (h.listed stored hstored),
        fun stored hstored id hid => hgrows _ (h.cached stored hstored id hid)⟩
  | updateProperty loaded model =>
      exact ⟨fun stored hstored => hgrows _ (h.listed stored hstored),
        fun stored hstored id hid => hgrows _ (h.cached stored hstored id hid)⟩
  | _ => exact ⟨h.listed, h.cached⟩

def storeFacts : GuardedFacts Store Write where
  Fact := StoreFact
  holds := StoreFact.Holds
  adds write fact := fact.AddedBy write
  safe := SafeWrite
  found := References
  holds_apply := holds_apply
  safe_mono _ _ _ := safeWrite_mono
  found_apply _ _ := references_apply

theorem safe_of_elsewhere (known : StoreFact → Prop) (write : Write)
    (h : Elsewhere write) : storeFacts.safe known write := by
  cases write <;>
    first
    | trivial
    | exact absurd rfl h.1
    | exact absurd rfl h.2

end Facts

/-! ## The invariant -/

section Invariant

variable [PythonRuntime]

/--
Listings have identifiers and keys of their own and the property that is named after
them, and the properties that anything refers to exist.
-/
structure Consistent (db : Store) : Prop where
  references : References db
  ids : (db.listings.map (·.id)).Nodup
  keys : (db.listings.map rowKey).Nodup
  named : ∀ row ∈ db.listings, row.propertyId = propertyOf (rowKey row)
  matched : ∀ row ∈ db.alertMatches, StoreFact.Holds db (.property row.propertyId)

/-- Moreover every property has a listing, which only whole batches keep. -/
structure Identified (db : Store) : Prop extends Consistent db where
  listed : ∀ row ∈ db.properties, ∃ listing ∈ db.listings, listing.propertyId = row.id

/-- Before anything is found. -/
theorem identified_of_nil {db : Store} (hlistings : db.listings = [])
    (hproperties : db.properties = []) (hcaches : db.caches = [])
    (hmatches : db.alertMatches = []) : Identified db where
  references := ⟨by simp [hlistings], by simp [hcaches]⟩
  ids := by simp [hlistings]
  keys := by simp [hlistings]
  named := by simp [hlistings]
  matched := by simp [hmatches]
  listed := by simp [hproperties]

/-- A property that is inserted gets a listing that it is named after. -/
def PairedWith (writes : List Write) (id : PropertyId) : Prop :=
  ∃ row : ListingRow, propertyOf (rowKey row) = id ∧
    (.insertListing row ∈ writes ∨ ∃ stored, .updateListing stored row ∈ writes)

def Paired (writes : List Write) : Prop :=
  ∀ row, .insertProperty row ∈ writes → PairedWith writes row.id

variable {write : Write} {writes : List Write} {db : Store}

omit [PythonRuntime] in
theorem rowKey_update (loaded model stored : ListingRow) :
    rowKey (ListingRow.update loaded model stored) = rowKey stored := rfl

theorem Consistent.apply (h : Consistent db) (hsafe : SafeWrite (StoreFact.Holds db) write)
    (hadmitted : write.admitted db = true) : Consistent (Database.apply write db) := by
  have hreferences := references_apply hsafe h.references
  have hgrows : ∀ id, StoreFact.Holds db (.property id) →
      StoreFact.Holds (Database.apply write db) (.property id) :=
    fun id hid => (holds_apply write db _).mpr (.inl hid)
  have hmatched : ∀ row ∈ db.alertMatches,
      StoreFact.Holds (Database.apply write db) (.property row.propertyId) :=
    fun row hrow => hgrows _ (h.matched row hrow)
  cases write with
  | insertListing row =>
      simp only [Write.admitted, Bool.and_eq_true, Bool.not_eq_true', List.any_eq_false,
        decide_eq_true_eq, not_or, not_and] at hadmitted
      obtain ⟨⟨hnew, -⟩, -⟩ := hadmitted
      refine ⟨hreferences, ?_, ?_, ?_, hmatched⟩
      · exact nodup_map_concat h.ids fun stored hstored => (hnew stored hstored).1
      · refine nodup_map_concat h.keys fun stored hstored hkey => ?_
        obtain ⟨hslug, hid⟩ := Prod.mk.inj hkey
        exact (hnew stored hstored).2 hslug hid
      · exact List.forall_mem_append.mpr ⟨h.named, List.forall_mem_singleton.mpr hsafe.1⟩
  | updateListing loaded model =>
      have hids : ((updateWhere (fun row : ListingRow => decide (row.id = loaded.id))
          (ListingRow.update loaded model) db.listings).map (·.id)) =
            db.listings.map (·.id) := by
        rw [updateWhere, List.map_map]
        refine List.map_congr_left fun row _ => ?_
        simp only [Function.comp]
        split <;> rfl
      have hkeys : ((updateWhere (fun row : ListingRow => decide (row.id = loaded.id))
          (ListingRow.update loaded model) db.listings).map rowKey) =
            db.listings.map rowKey := by
        rw [updateWhere, List.map_map]
        refine List.map_congr_left fun row _ => ?_
        simp only [Function.comp]
        split <;> rfl
      refine ⟨hreferences, hids ▸ h.ids, hkeys ▸ h.keys, fun row hrow => ?_, hmatched⟩
      obtain ⟨stored, hstored, rfl⟩ := List.mem_map.mp hrow
      split
      · next heq =>
        rw [rowKey_update]
        rcases column_cases loaded.propertyId model.propertyId stored.propertyId
          with hkept | hset
        · rw [ListingRow.update, hkept]
          exact h.named stored hstored
        · -- the row that the update was meant for has this identifier and that key
          obtain ⟨seen, hseen, hid, hkey⟩ := hsafe.2
          obtain rfl : seen = stored := List.inj_on_of_nodup_map h.ids hseen hstored
            (hid.trans (of_decide_eq_true heq).symm)
          rw [ListingRow.update, hset, hkey]
          exact hsafe.1.1
      · exact h.named stored hstored
  | insertMatch row =>
      simp only [Write.admitted, Bool.and_eq_true, List.any_eq_true,
        decide_eq_true_eq] at hadmitted
      exact ⟨hreferences, h.ids, h.keys, h.named,
        List.forall_mem_append.mpr ⟨hmatched, List.forall_mem_singleton.mpr
          hadmitted.2⟩⟩
  | _ => exact ⟨hreferences, h.ids, h.keys, h.named, hmatched⟩

theorem Consistent.applyAll (h : Consistent db)
    (hsafe : storeFacts.SafeAll (StoreFact.Holds db) writes)
    (hadmits : Database.admits db writes = true) : Consistent (applyAll writes db) := by
  rw [admits_eq] at hadmits
  induction writes generalizing db with
  | nil => exact h
  | cons write writes ih =>
      rw [admitsAll, Bool.and_eq_true] at hadmits
      exact ih (h.apply hsafe.1 hadmits.1)
        (hsafe.2.mono fun fact => (holds_apply write db fact).mpr) hadmits.2

/-- A batch that gives every new property its listing leaves no property without one. -/
theorem Identified.applyAll (h : Identified db)
    (hsafe : storeFacts.SafeAll (StoreFact.Holds db) writes) (hpaired : Paired writes)
    (hadmits : Database.admits db writes = true) : Identified (applyAll writes db) := by
  have hconsistent := h.toConsistent.applyAll hsafe hadmits
  refine ⟨hconsistent, fun row hrow => ?_⟩
  suffices hlisted : ∃ key, Listed key (Foundation.applyAll writes db) ∧
      propertyOf key = row.id by
    obtain ⟨_, ⟨listing, hlisting, rfl⟩, hname⟩ := hlisted
    exact ⟨listing, hlisting, (hconsistent.named listing hlisting).trans hname⟩
  have hholds : storeFacts.holds (Foundation.applyAll writes db) (.property row.id) :=
    ⟨row, hrow, rfl⟩
  rcases (Facts.holds_applyAll _).mp hholds with
    ⟨stored, hstored, hid⟩ | ⟨write, hwrite, hadds⟩
  · obtain ⟨listing, hlisting, hproperty⟩ := h.listed stored hstored
    refine ⟨rowKey listing, listed_applyAll.mpr (.inl ⟨listing, hlisting, rfl⟩), ?_⟩
    rw [← h.named listing hlisting, hproperty, hid]
  · cases write with
    | insertProperty inserted =>
        obtain ⟨listing, hname, hlisting⟩ := hpaired inserted hwrite
        refine ⟨rowKey listing, ?_, hname.trans hadds⟩
        rcases hlisting with hinserted | ⟨stored, hupdated⟩
        · exact listed_applyAll.mpr (.inr ⟨listing, hinserted, rfl⟩)
        · rcases (hsafe.of_mem hupdated).2 with ⟨seen, hseen, -, hkey⟩ |
            ⟨write, hwrite, hadds⟩
          · exact listed_applyAll.mpr (.inl ⟨seen, hseen, hkey⟩)
          · cases write with
            | insertListing seen =>
                exact listed_applyAll.mpr (.inr ⟨seen, hwrite, hadds.2⟩)
            | _ => exact hadds.elim
    | _ => exact hadds.elim

end Invariant

/-! ## Workers -/

section Workers

variable [PythonRuntime] [PersistenceRuntime] (fieldMap : String → List (String × String))

/-- Every portal is normalized by the base normalizer with fields of its own. -/
def NormalizedBy : (request : CycleCall) → CycleAnswer request → Prop
  | .normalize portalSlug listing, answer => answer = normalizers fieldMap portalSlug listing
  | _, _ => True

abbrev identityContract : Contract Store Write CycleCall CycleAnswer :=
  storeFacts.contract (NormalizedBy fieldMap)

def AllKnown (ids : List PropertyId) (s : CycleSession) (db : Store) : Prop :=
  ∀ id ∈ ids, storeFacts.Known s db (.property id)

variable {fieldMap} {s : CycleSession} {db : Store} {ids : List PropertyId}

omit [PersistenceRuntime] in
theorem AllKnown.grows {db' : Store} (h : AllKnown ids s db)
    (hgrows : (identityContract fieldMap).grows db db') : AllKnown ids s db' :=
  fun id hid => (h id hid).grows hgrows

omit [PersistenceRuntime] in
theorem AllKnown.wrote (h : AllKnown ids s db) (writes : List Write) :
    AllKnown ids (s.wrote writes) db :=
  fun id hid => (h id hid).wrote writes

omit [PersistenceRuntime] in
theorem AllKnown.concat {id : PropertyId} (h : AllKnown ids s db)
    (hid : storeFacts.Known s db (.property id)) : AllKnown (ids ++ [id]) s db :=
  List.forall_mem_append.mpr ⟨h, List.forall_mem_singleton.mpr hid⟩

omit [PersistenceRuntime] in
theorem keeps_elsewhere {α : Type} {p : CycleTxn α} (hp : p.Only Elsewhere)
    (h : AllKnown ids s db) :
    p.Keeps (identityContract fieldMap) (Txn.keptOk fun _ s db => AllKnown ids s db)
      s db := by
  refine Txn.keeps_mono p ?_ (GuardedFacts.keeps_of_only safe_of_elsewhere hp
    (K := fun fact => ∃ id ∈ ids, fact = StoreFact.property id) ?_)
  · rintro (error | value) s db h
    · trivial
    · exact fun id hid => h _ ⟨id, hid, rfl⟩
  · rintro _ ⟨id, hid, rfl⟩
    exact h id hid

theorem keeps_addProperty (prop : Property) (h : AllKnown ids s db) :
    (addProperty prop).Keeps (identityContract fieldMap)
      (Txn.keptOk fun _ s db => AllKnown (ids ++ [prop.id]) s db) s db := by
  intro now _
  change Txn.Keeps _ ((Txn.ofExcept (PropertyRepository.toModel prop now)).bind _) _ _ _
  refine Txn.keeps_ok_bind (P := fun row s db => row.id = prop.id ∧ AllKnown ids s db) ?_ ?_
  · cases hrow : PropertyRepository.toModel prop now with
    | error error => trivial
    | ok row => exact ⟨PropertyRepository.id_toModel hrow, h⟩
  rintro row s db ⟨hid, h⟩ db' hgrows _
  refine ⟨fun write hwrite => safe_of_elsewhere _ _ (elsewhere_of_inTables (by decide)
    (by decide) (allIn_addWrites_property prop row now _ _ write hwrite)), ?_⟩
  refine ((h.grows hgrows).wrote _).concat ?_
  cases hfind : PropertyRepository.find prop.id (s.view db') with
  | none =>
      have hinserted : .insertProperty row ∈ PropertyRepository.addWrites prop row now
          s.stamp (s.view db') := by
        rw [PropertyRepository.addWrites, hfind]
        exact .head _
      exact Facts.known_of_wrote hinserted hid
  | some stored =>
      obtain ⟨found, hfound, -⟩ := Option.map_eq_some_iff.mp hfind
      refine Facts.Known.wrote (Facts.known_iff.mpr ?_) _
      exact ⟨found, List.mem_of_find?_eq_some hfound,
        by simpa using List.find?_some hfound⟩

omit [PersistenceRuntime] in
theorem safe_upsertWrites {listing : RawListing} {prop : Property}
    (hname : prop.id = propertyOf (listingKey listing))
    (h : storeFacts.Known s db (.property prop.id)) :
    ∀ write ∈ PortalListingRepository.upsertWrites listing prop.id
        (contentHash listing.raw) s.stamp (s.view db),
      SafeWrite (storeFacts.Known s db) write := by
  unfold PortalListingRepository.upsertWrites
  dsimp only
  split
  · next existing hfind =>
    obtain ⟨hexisting, hkey⟩ := listed_of_find hfind
    exact List.forall_mem_singleton.mpr ⟨⟨hname, h⟩,
      Facts.known_iff.mpr ⟨existing, hexisting, rfl, hkey⟩⟩
  · refine List.forall_mem_append.mpr ⟨fun write hwrite => ?_,
      List.forall_mem_singleton.mpr ⟨hname, h⟩⟩
    exact safe_of_elsewhere _ _ (elsewhere_of_inTables (by decide) (by decide)
      (allIn_portalWrites (.head []) listing.portalSlug _ write hwrite))

theorem keeps_storeListing_known {listing : RawListing} {resolved : Resolved}
    {result : NormalizationResult}
    (hname : ∀ prop, result.property = some prop → prop.id = propertyOf (listingKey listing))
    (h : AllKnown resolved.propertyIds s db) :
    (storeListing listing resolved result).Keeps (identityContract fieldMap)
      (Txn.keptOk fun resolved s db => AllKnown resolved.propertyIds s db) s db := by
  unfold storeListing
  dsimp only
  split
  · exact h
  · next prop hproperty =>
    refine Txn.keeps_ok_bind (keeps_addProperty prop h) fun _ s db h db' hgrows _ => ?_
    have hknown := h.grows hgrows
    exact ⟨safe_upsertWrites (hname prop hproperty) (hknown prop.id (by simp)),
      hknown.wrote _⟩

theorem keeps_resolveListing_known (portalSlug : String) {resolved : Resolved}
    {listing : RawListing} (h : AllKnown resolved.propertyIds s db) :
    (resolveListing portalSlug resolved listing).Keeps (identityContract fieldMap)
      (Txn.keptOk fun resolved s db => AllKnown resolved.propertyIds s db) s db := by
  intro db' hgrows hfinds
  refine ⟨fun write hwrite => absurd hwrite List.not_mem_nil, ?_⟩
  have hknown := (h.grows hgrows).wrote []
  cases hunchanged : PortalListingRepository.findUnchangedPropertyId listing.portalSlug
      listing.externalId (contentHash listing.raw) (s.view db') with
  | some propertyId =>
      simp only [hunchanged]
      refine hknown.concat (Facts.Known.wrote (Facts.known_iff.mpr ?_) _)
      unfold PortalListingRepository.findUnchangedPropertyId at hunchanged
      split at hunchanged
      · next row hfind =>
        split at hunchanged
        · obtain rfl := Option.some.inj hunchanged
          exact hfinds.listed row (listed_of_find hfind).1
        · cases hunchanged
      · cases hunchanged
  | none =>
      simp only [hunchanged]
      rintro answer rfl
      cases hresult : normalizers fieldMap portalSlug listing with
      | error error => trivial
      | ok result =>
          exact keeps_storeListing_known (fun prop hproperty =>
            Infrastructure.id_of_normalize hresult hproperty) hknown

omit [PersistenceRuntime] in
theorem safe_putWrites {signature portalSlug : String} {now : DateTime} {ttl : Int}
    (h : AllKnown ids s db) (view : Store) :
    ∀ write ∈ SearchCacheRepository.putWrites signature portalSlug ids now ttl view,
      SafeWrite (storeFacts.Known s db) write := by
  unfold SearchCacheRepository.putWrites
  dsimp only
  split
  · exact List.forall_mem_singleton.mpr h
  · refine List.forall_mem_append.mpr ⟨fun write hwrite => ?_,
      List.forall_mem_singleton.mpr h⟩
    exact safe_of_elsewhere _ _ (elsewhere_of_inTables (by decide) (by decide)
      (allIn_portalWrites (.head []) portalSlug _ write hwrite))

theorem keeps_scrapeCandidates_known (cycle : RunAlertCycle) (planned : PlannedQuery)
    (now : DateTime) : (cycle.scrapeCandidates planned now).Keeps (identityContract fieldMap)
      (Txn.keptOk fun _ _ _ => True) s db := by
  intro scraper _
  refine Txn.keeps_ok_bind (P := fun _ _ _ => True) (by cases scraper <;> trivial)
    fun _ s db _ => ?_
  intro page _
  refine Txn.keeps_ok_bind (P := fun _ _ _ => True) (by cases page <;> trivial)
    fun listings s db _ => ?_
  intro normalizer _
  refine Txn.keeps_ok_bind (P := fun _ _ _ => True) (by cases normalizer <;> trivial)
    fun _ s db _ => ?_
  refine Txn.keeps_ok_bind (Txn.keeps_ok_foldEach
    (fun _ (resolved : Resolved) s db => AllKnown resolved.propertyIds s db)
    (fun before listing after resolved s db _ h =>
      keeps_resolveListing_known planned.portalSlug h)
    (fun id hid => absurd hid List.not_mem_nil)) fun resolved s db h => ?_
  intro db' hgrows _
  have hrecord := Txn.only_bind (Txn.only_done ()) fun _ =>
    Txn.only_bind (p := clock) (fun finishedAt => Txn.only_done finishedAt)
      fun finishedAt => Txn.only_bind (Txn.only_exec fun stamp db =>
        elsewhere_recordWrites (successAttempt planned listings resolved now finishedAt)
          stamp db) fun _ => Txn.only_done resolved.propertyIds
  refine ⟨safe_putWrites (h.grows hgrows) _, Txn.keeps_mono _ ?_
    (keeps_elsewhere hrecord ((h.grows hgrows).wrote _))⟩
  rintro (error | _) s db - <;> trivial

theorem keeps_runOne_known (cycle : RunAlertCycle) (planned : PlannedQuery) :
    (cycle.runOne planned).Keeps (identityContract fieldMap) (fun _ _ _ => True) s db := by
  intro now _
  have hresolve : (cycle.resolveCandidates planned now).Keeps (identityContract fieldMap)
      (Txn.keptOk fun _ _ _ => True) (s.answered .clock now) db := by
    refine Txn.keeps_ok_bind (P := fun _ _ _ => True) ?_ fun cached s db _ => ?_
    · exact fun db' _ _ => ⟨fun write hwrite => absurd hwrite List.not_mem_nil, trivial⟩
    · cases cached with
      | some propertyIds => trivial
      | none => exact keeps_scrapeCandidates_known cycle planned now
  change Txn.Keeps _ ((cycle.resolveCandidates planned now).attempt.bind _) _ _ _
  refine (Txn.keeps_bind _ _).mpr ((Txn.keeps_attempt _).mpr (Txn.keeps_mono _ ?_ hresolve))
  rintro (error | propertyIds) s' db' -
  · cases error with
    | scraperError error =>
        exact Txn.keeps_of_within (fun _ _ _ _ hwrites write hwrite =>
            safe_of_elsewhere _ write (hwrites write hwrite))
          ((within_recordFailure planned error now).mono
            (fun _ _ => elsewhere_of_inTables (by decide) (by decide)) fun _ h => h)
    | _ => trivial
  · exact Txn.keeps_of_within (fun _ _ _ _ hwrites write hwrite =>
        safe_of_elsewhere _ write (hwrites write hwrite))
      ((within_persistMatches cycle planned propertyIds now).mono
        (fun _ _ => elsewhere_of_inTables (by decide) (by decide)) fun _ h => h)

end Workers

/-! ## Every new property gets its listing before the commit -/

section Pairing

variable [PythonRuntime] {writes writes' : List Write}

theorem PairedWith.mono {id : PropertyId} (h : PairedWith writes id)
    (hsub : writes ⊆ writes') : PairedWith writes' id := by
  obtain ⟨row, hname, hinserted | ⟨stored, hupdated⟩⟩ := h
  · exact ⟨row, hname, .inl (hsub hinserted)⟩
  · exact ⟨row, hname, .inr ⟨stored, hsub hupdated⟩⟩

theorem Paired.nil : Paired [] := fun _ h => absurd h List.not_mem_nil

theorem Paired.append (h : Paired writes)
    (h' : ∀ row, .insertProperty row ∈ writes' → PairedWith (writes ++ writes') row.id) :
    Paired (writes ++ writes') := by
  intro row hrow
  rcases List.mem_append.mp hrow with hrow | hrow
  · exact (h row hrow).mono (List.subset_append_left _ _)
  · exact h' row hrow

def SparesProperties (write : Write) : Prop := write.table ≠ .properties

theorem Paired.append_of_spares (h : Paired writes)
    (hspares : ∀ write ∈ writes', SparesProperties write) : Paired (writes ++ writes') :=
  h.append fun _ hrow => absurd rfl (hspares _ hrow)

theorem pairedWith_upsertWrites {listing : RawListing} {id : PropertyId}
    (hname : id = propertyOf (listingKey listing)) (hash : String) (stamp : Stamp)
    (db : Store) : PairedWith
      (PortalListingRepository.upsertWrites listing id hash stamp db) id := by
  let row : ListingRow := ⟨Uuid.drawn stamp 0, listing.portalSlug, id, listing.externalId,
    listing.url, listing.raw, hash, listing.scrapedAt⟩
  have hkey : rowKey row = listingKey listing := rfl
  refine ⟨row, by rw [hkey, hname], ?_⟩
  unfold PortalListingRepository.upsertWrites
  dsimp only
  split
  · next existing _ => exact .inr ⟨existing, .head _⟩
  · exact .inl (List.mem_append_right _ (.head _))

omit [PythonRuntime] in
theorem id_of_inserted [PersistenceRuntime] {prop : Property} {row inserted : PropertyRow}
    {now : DateTime} {stamp : Stamp} {db : Store} (hid : row.id = prop.id)
    (h : .insertProperty inserted ∈ PropertyRepository.addWrites prop row now stamp db) :
    inserted.id = prop.id := by
  rcases List.mem_cons.mp h with hwrite | hprice
  · unfold PropertyRepository.rowWrite at hwrite
    split at hwrite
    · obtain rfl := Write.insertProperty.inj hwrite
      exact hid
    · cases hwrite
  · unfold PropertyRepository.priceWrites at hprice
    split at hprice
    · cases hprice
    · split at hprice
      · cases List.mem_singleton.mp hprice
      · cases hprice

/-- A property and then its listing. -/
theorem Paired.ingest [PersistenceRuntime] (h : Paired writes) {listing : RawListing}
    {prop : Property} {row : PropertyRow} (hid : row.id = prop.id)
    (hname : prop.id = propertyOf (listingKey listing)) (now : DateTime) (hash : String)
    (stamp stamp' : Stamp) (db db' : Store) :
    Paired (writes ++ (PropertyRepository.addWrites prop row now stamp db ++
      PortalListingRepository.upsertWrites listing prop.id hash stamp' db')) := by
  refine h.append fun inserted hinserted => ?_
  rcases List.mem_append.mp hinserted with hadded | hupserted
  · rw [id_of_inserted hid hadded]
    exact (pairedWith_upsertWrites hname hash stamp' db').mono fun write hwrite =>
      List.mem_append_right _ (List.mem_append_right _ hwrite)
  · have htable := allIn_upsertWrites listing prop.id hash stamp' db' _ hupserted
    exact absurd htable (by decide : Table.properties ∉ [Table.portals, .listings])

omit [PythonRuntime] in
theorem sparesProperties_of_inTables {tables : List Table} (htables : .properties ∉ tables)
    {write : Write} (h : InTables tables write) : SparesProperties write :=
  fun heq => htables (heq ▸ h)

/-- Only a `ScraperError` is caught, so nothing is committed after any other. -/
def PairedAtEnd {α : Type} (outcome : Except PyError α) (s : CycleSession) : Prop :=
  (∃ error, outcome = .error error ∧ ∀ message, error ≠ .scraperError message) ∨
    Paired s.pending

abbrev identityRely (fieldMap : String → List (String × String)) :
    Rely Store CycleCall CycleAnswer :=
  ⟨fun _ _ _ => True, NormalizedBy fieldMap, True⟩

def PairedSession (s : CycleSession) : Prop := Paired s.pending

variable [PersistenceRuntime] {fieldMap : String → List (String × String)}
  {s : CycleSession} {α β : Type}

omit [PersistenceRuntime] in
theorem wp_paired_bind {p : CycleTxn α} {f : α → CycleTxn β}
    (hp : p.wp (identityRely fieldMap) PairedSession PairedAtEnd s)
    (hf : ∀ value s, Paired s.pending →
      (f value).wp (identityRely fieldMap) PairedSession PairedAtEnd s) :
    (p.bind f).wp (identityRely fieldMap) PairedSession PairedAtEnd s := by
  refine (Txn.wp_bind _ _).mpr (Txn.wp_mono _ ?_ hp)
  rintro (error | value) s h
  · rcases h with ⟨_, ⟨⟩, hother⟩ | hpaired
    · exact .inl ⟨error, rfl, hother⟩
    · exact .inr hpaired
  · rcases h with ⟨_, ⟨⟩, -⟩ | hpaired
    exact hf value s hpaired

omit [PersistenceRuntime] in
theorem paired_wrote (h : Paired s.pending) {writes : List Write}
    (hwrites : ∀ write ∈ writes, SparesProperties write) :
    Paired (s.wrote writes).pending := by
  rw [Session.pending_wrote]
  exact h.append_of_spares hwrites

omit [PersistenceRuntime] in
theorem wp_paired_of_only {p : CycleTxn α} (hp : p.Only SparesProperties)
    (h : Paired s.pending) :
    p.wp (identityRely fieldMap) PairedSession PairedAtEnd s := by
  have hends : p.wp (identityRely fieldMap) PairedSession
      (fun _ s => Paired s.pending) s := by
    refine Txn.wp_of_only (I := fun s : CycleSession => Paired s.pending) ?_ ?_ hp h
    · intro s writes hwrites hpaired
      exact paired_wrote hpaired hwrites
    · intro s request answer hpaired
      exact hpaired
  refine Txn.wp_mono p ?_ hends
  intro outcome s hpaired
  exact .inr hpaired

omit [PersistenceRuntime] in
theorem wp_paired_answer {answer : Except PyError α} (h : Paired s.pending) :
    (Txn.ofExcept answer : CycleTxn α).wp (identityRely fieldMap) PairedSession PairedAtEnd
      s := by
  rw [Txn.wp_ofExcept]
  exact .inr h

/-- The listing of a new property is written right after the property. -/
theorem wp_paired_storeListing {listing : RawListing} {resolved : Resolved}
    {result : NormalizationResult}
    (hname : ∀ prop, result.property = some prop → prop.id = propertyOf (listingKey listing))
    (h : Paired s.pending) :
    (storeListing listing resolved result).wp (identityRely fieldMap) PairedSession
      PairedAtEnd s := by
  unfold storeListing
  dsimp only
  split
  · exact .inr h
  · next prop hproperty =>
    intro now _
    change Txn.wp _ _ (((Txn.ofExcept (PropertyRepository.toModel prop now)).bind _).bind _)
      _ _
    cases hrow : PropertyRepository.toModel prop now with
    | error error =>
        refine .inl ⟨error, rfl, fun message heq => ?_⟩
        exact PropertyRepository.toModel_ne_scraperError prop now message (heq ▸ hrow)
    | ok row =>
        intro db _ db' _
        refine .inr ?_
        rw [Session.pending_wrote, Session.pending_wrote, List.append_assoc]
        exact h.ingest (PropertyRepository.id_toModel hrow) (hname prop hproperty) _ _ _ _ _
          _

theorem wp_paired_resolveListing (portalSlug : String) {listing : RawListing}
    {resolved : Resolved} (h : Paired s.pending) :
    (resolveListing portalSlug resolved listing).wp (identityRely fieldMap) PairedSession
      PairedAtEnd s := by
  intro db _
  have hpaired : Paired (s.wrote []).pending := by simpa using h
  cases hunchanged : PortalListingRepository.findUnchangedPropertyId listing.portalSlug
      listing.externalId (contentHash listing.raw) (s.view db) with
  | some propertyId =>
      simp only [hunchanged]
      exact .inr hpaired
  | none =>
      simp only [hunchanged]
      rintro answer rfl
      cases hresult : normalizers fieldMap portalSlug listing with
      | error error => exact .inr hpaired
      | ok result =>
          exact wp_paired_storeListing (fun prop hproperty =>
            Infrastructure.id_of_normalize hresult hproperty) hpaired

theorem wp_paired_foldEach (portalSlug : String) (listings : List RawListing)
    (h : Paired s.pending) :
    (Txn.foldEach listings ⟨[], 0, 0⟩ (resolveListing portalSlug)).wp
      (identityRely fieldMap) PairedSession PairedAtEnd s := by
  refine Txn.wp_foldEach (fun _ _ s => Paired s.pending) ?_ ?_ h
  · intro before listing after resolved s _ hpaired
    refine Txn.wp_mono _ ?_ (wp_paired_resolveListing portalSlug hpaired)
    rintro (error | resolved) s (⟨_, ⟨⟩, hother⟩ | hpaired)
    · exact .inl ⟨error, rfl, hother⟩
    · exact .inr hpaired
    · exact hpaired
  · intro resolved s hpaired
    exact .inr hpaired

theorem wp_paired_scrapeCandidates (cycle : RunAlertCycle) (planned : PlannedQuery)
    (now : DateTime) (h : Paired s.pending) :
    (cycle.scrapeCandidates planned now).wp (identityRely fieldMap) PairedSession
      PairedAtEnd s := by
  intro scraper _
  refine wp_paired_bind (wp_paired_answer h) ?_
  intro _ s h page _
  refine wp_paired_bind (wp_paired_answer h) ?_
  intro listings s h normalizer _
  refine wp_paired_bind (wp_paired_answer h) ?_
  intro _ s h
  refine wp_paired_bind (wp_paired_foldEach planned.portalSlug listings h) ?_
  intro resolved s h
  refine wp_paired_of_only ?_ h
  have hput : (Txn.exec fun _ => SearchCacheRepository.putWrites planned.signature
      planned.portalSlug resolved.propertyIds now cycle.cacheTtlSeconds :
        CycleTxn Unit).Only SparesProperties := by
    refine Txn.only_exec fun stamp db write hwrite => ?_
    have htables := allIn_putWrites planned.signature planned.portalSlug
      resolved.propertyIds now cycle.cacheTtlSeconds db write hwrite
    exact sparesProperties_of_inTables (by decide) htables
  have hrecorded : ∀ attempt, (recordExecution attempt).Only SparesProperties := by
    intro attempt
    refine Txn.only_exec fun stamp db write hwrite => ?_
    have htables := allIn_recordWrites attempt stamp db write hwrite
    exact sparesProperties_of_inTables (by decide) htables
  refine Txn.only_bind hput fun _ => ?_
  refine Txn.only_bind (fun finishedAt => Txn.only_done finishedAt) fun finishedAt => ?_
  exact Txn.only_bind (hrecorded _) fun _ => Txn.only_done _

omit [PersistenceRuntime] in
theorem wp_paired_of_within {tables : List Table} (htables : .properties ∉ tables)
    {p : CycleTxn α} (hp : p.Within (fun _ => InTables tables) fun _ => True)
    (h : Paired s.pending) :
    p.wp (identityRely fieldMap) PairedSession (fun _ _ => True) s := by
  have hends : p.wp (identityRely fieldMap) PairedSession
      (fun _ s => Paired s.pending) s := by
    refine Txn.wp_of_within (I := fun s : CycleSession => Paired s.pending) ?_ ?_ ?_ hp h
    · intro s db writes hwrites hpaired
      refine paired_wrote hpaired fun write hwrite => ?_
      exact sparesProperties_of_inTables htables (hwrites write hwrite)
    · intro s request answer _ hpaired
      exact hpaired
    · intro s hpaired
      exact ⟨hpaired, .nil, .nil⟩
  refine Txn.wp_mono p ?_ hends
  intro outcome s _
  trivial

theorem wp_paired_runOne (cycle : RunAlertCycle) (planned : PlannedQuery)
    (h : Paired s.pending) :
    (cycle.runOne planned).wp (identityRely fieldMap) PairedSession (fun _ _ => True) s := by
  intro now _
  have hresolve : (cycle.resolveCandidates planned now).wp (identityRely fieldMap)
      PairedSession PairedAtEnd (s.answered .clock now) := by
    refine wp_paired_bind (wp_paired_of_only (Txn.only_query _) h) ?_
    intro cached s h
    cases cached with
    | some propertyIds => exact .inr h
    | none => exact wp_paired_scrapeCandidates cycle planned now h
  change Txn.wp _ _ ((cycle.resolveCandidates planned now).attempt.bind _) _ _
  rw [Txn.wp_bind, Txn.wp_attempt]
  refine Txn.wp_mono _ ?_ hresolve
  rintro (error | propertyIds) s (⟨_, ⟨⟩, hother⟩ | hpaired)
  · cases error with
    | scraperError message => exact absurd rfl (hother message)
    | _ => trivial
  · cases error with
    | scraperError message =>
        have hwithin := within_recordFailure planned message now
        exact wp_paired_of_within (by decide) hwithin hpaired
    | _ => trivial
  · have hwithin := within_persistMatches cycle planned propertyIds now
    exact wp_paired_of_within (by decide) hwithin hpaired

end Pairing

/-! ## Any mix of use cases -/

section UseCases

variable [PythonRuntime]

theorem within_createAlert (create : Alerts.CreateAlert) (id : AlertId)
    (request : Alerts.CreateRequest) : (create.run id request).Within
      (fun _ => InTables alertTables) fun _ => True :=
  Txn.within_bind (Txn.within_ofExcept _) fun _ =>
    Txn.within_bind ⟨trivial, fun _ => trivial⟩ fun _ =>
      Txn.within_bind (Txn.within_ofExcept _) fun alert =>
        Txn.within_bind (Txn.within_exec fun stamp db =>
          allIn_addWrites_alert alert stamp db) fun _ =>
            Txn.within_bind (Txn.within_commitOr _) fun _ => trivial

theorem within_updateAlert (update : Alerts.UpdateAlert) (request : Alerts.UpdateRequest) :
    (update.run request).Within (fun _ => InTables alertTables) fun _ => True := by
  refine Txn.within_bind ⟨trivial, fun _ => trivial⟩ fun now =>
    Txn.within_bind (Txn.within_query _) fun stored =>
      Txn.within_bind (Txn.within_ofExcept _) fun found => ?_
  cases found with
  | none => trivial
  | some alert =>
      exact Txn.within_bind (Txn.within_ofExcept _) fun edited =>
        Txn.within_bind (Txn.within_exec fun stamp db =>
          allIn_addWrites_alert edited stamp db) fun _ =>
            Txn.within_bind (Txn.within_commitOr _) fun _ => trivial

variable [PersistenceRuntime]

/-- What may run at any time: a worker of a cycle, a new alert, an edit. -/
inductive UseCase where
  | search (cycle : RunAlertCycle) (planned : PlannedQuery)
  | createAlert (create : Alerts.CreateAlert) (id : AlertId) (request : Alerts.CreateRequest)
  | updateAlert (update : Alerts.UpdateAlert) (request : Alerts.UpdateRequest)

/-- The result is what a search has to report. -/
def UseCase.program : UseCase → CycleTxn (Option (Bool × Nat))
  | search cycle planned => (cycle.runOne planned).bind fun result => .done (some result)
  | createAlert create id request => (create.run id request).bind fun _ => .done none
  | updateAlert update request => (update.run request).bind fun _ => .done none

variable {fieldMap : String → List (String × String)} {s : CycleSession} {db : Store}

theorem keeps_program (useCase : UseCase) : useCase.program.Keeps (identityContract fieldMap)
    (fun _ _ _ => True) s db := by
  have halerts : ∀ {α : Type} (p : CycleTxn α),
      p.Within (fun _ => InTables alertTables) (fun _ => True) →
        (p.bind fun _ => .done none : CycleTxn (Option (Bool × Nat))).Keeps
          (identityContract fieldMap) (fun _ _ _ => True) s db := by
    intro α p hp
    refine (Txn.keeps_bind _ _).mpr (Txn.keeps_mono _ ?_ (Txn.keeps_of_within
      (fun _ _ _ _ hwrites write hwrite => safe_of_elsewhere _ write (hwrites write hwrite))
      (hp.mono (fun _ _ => elsewhere_of_inTables (by decide) (by decide)) fun _ h => h)))
    rintro (error | value) s db - <;> trivial
  cases useCase with
  | search cycle planned =>
      refine (Txn.keeps_bind _ _).mpr (Txn.keeps_mono _ ?_ (keeps_runOne_known cycle planned))
      rintro (error | value) s db - <;> trivial
  | createAlert create id request => exact halerts _ (within_createAlert create id request)
  | updateAlert update request => exact halerts _ (within_updateAlert update request)

theorem wp_paired_program (useCase : UseCase) (h : Paired s.pending) :
    useCase.program.wp (identityRely fieldMap) PairedSession (fun _ _ => True) s := by
  have hends : ∀ {α : Type} {p : CycleTxn α} (f : α → Option (Bool × Nat)),
      p.wp (identityRely fieldMap) PairedSession (fun _ _ => True) s →
        (p.bind fun value => .done (f value)).wp (identityRely fieldMap) PairedSession
          (fun _ _ => True) s := by
    intro α p f hp
    refine (Txn.wp_bind _ _).mpr (Txn.wp_mono _ ?_ hp)
    rintro (error | value) s - <;> trivial
  cases useCase with
  | search cycle planned => exact hends _ (wp_paired_runOne cycle planned h)
  | createAlert create id request =>
      exact hends _ (wp_paired_of_within (by decide) (within_createAlert create id request) h)
  | updateAlert update request =>
      exact hends _ (wp_paired_of_within (by decide) (within_updateAlert update request) h)

omit [PersistenceRuntime] in
theorem preserved_identified :
    storeFacts.Preserved Identified (PairedSession : CycleSession → Prop) where
  found _ h := h.references
  commit _ _ h hsafe hpaired hadmits := h.applyAll hsafe hpaired hadmits

/--
Whatever searches, creations and edits run at once and in whatever order they take
their steps, every listing keeps the property that is named after it, every property
has a listing, and no listing, cached search or match refers to a property that is
not there.
-/
theorem identities_are_kept (useCases : Nat → UseCase) (oracle : Oracle CycleCall CycleAnswer)
    (hnormalized : ∀ i op request, NormalizedBy fieldMap request (oracle i op request))
    (db : Store) (hdb : Identified db) (schedule : List Nat) :
    Identified ((Sys.start db fun i => (useCases i).program).run oracle schedule).store :=
  GuardedFacts.store_run preserved_identified hdb (fun i => keeps_program (useCases i))
    (fun i => wp_paired_program (useCases i) .nil) hnormalized schedule

omit [PythonRuntime] [PersistenceRuntime] in
/-- Two workers find the same listing, and the second does so before the first commits. -/
theorem identities_are_kept_titled : @Identified .plain
    ((Sys.start .empty fun _ : Nat => @UseCase.program .plain .plain
      (.search forgetfulCycle idleQuery)).run (titledOracle fun _ => .str "Flat")
        [0, 1, 0, 1, 0, 1, 0, 1, 0, 1, 0, 1, 0, 1, 0, 1, 0, 1, 0, 1]).store :=
  @identities_are_kept .plain .plain (fun _ => Infrastructure.idealistaFieldMap)
    (fun _ => .search forgetfulCycle idleQuery) (titledOracle fun _ => .str "Flat")
    (fun _ _ request => by cases request <;> trivial) .empty
    (@identified_of_nil .plain _ rfl rfl rfl rfl) _

end UseCases

end RealEstateTracker.Cycle
