import RealEstateTracker.Cycle.ContentHash
import RealEstateTracker.Cycle.SkippedListings
import RealEstateTracker.Foundation.RelyGuarantee

/-!
# Changed listings

A listing row keeps its payload next to the hash of it.  So in every state that
workers reach, whatever the order of their steps, a scraped listing is skipped
exactly when its payload is the stored one up to the order of keys.

A stored payload is kept where Python finds the new one equal to it.  The payloads that
occur must therefore be told apart by Python as they are by their hashes: `True` does not
become `1`.
-/

namespace RealEstateTracker.Cycle

open Foundation Domain Application Persistence

/-! ## Equal payloads -/

theorem itemsEq_of_zip {items others : List Json} (hlength : items.length = others.length)
    (h : ∀ pair ∈ items.zip others, pyEq pair.1 pair.2 = true) :
    itemsEq items others = true := by
  induction items generalizing others with
  | nil =>
      obtain rfl := List.length_eq_zero_iff.mp hlength.symm
      rfl
  | cons item items ih =>
      cases others with
      | nil => cases hlength
      | cons other others =>
          obtain ⟨hfirst, hrest⟩ := List.forall_mem_cons.mp h
          rw [itemsEq, hfirst, ih (Nat.succ.inj hlength) hrest]
          rfl

theorem fieldsEq_of_lookup {fields others : List (String × Json)}
    (h : ∀ field ∈ fields, ∃ other, others.lookup field.1 = some other ∧
      pyEq field.2 other = true) : fieldsEq fields others = true := by
  induction fields with
  | nil => rfl
  | cons field fields ih =>
      obtain ⟨⟨other, hlookup, hfirst⟩, hrest⟩ := List.forall_mem_cons.mp h
      rw [fieldsEq, hlookup, ih hrest]
      exact (Bool.and_true _).trans hfirst

theorem pyEq_of_same {value other : Json} (hsame : SameJson value other)
    (h : WellFormed value) (h' : WellFormed other) : pyEq value other = true := by
  induction hsame with
  | null => rfl
  | bool b => simp [pyEq, jsonNumber]
  | int n => simp [pyEq, jsonNumber]
  | float text =>
      have hnumber : text ≠ "nan" := by
        rintro rfl
        cases h with
        | float htext => exact absurd (htext.2.1 'n' (.head _)) (by decide)
      simp [pyEq, jsonNumber, hnumber]
  | str s => simp [pyEq]
  | @list items others hlength hitems ih =>
      cases h with
      | list h =>
          cases h' with
          | list h' =>
              refine itemsEq_of_zip hlength fun pair hpair => ?_
              obtain ⟨hitem, hother⟩ := List.of_mem_zip hpair
              exact ih pair hpair (h _ hitem) (h' _ hother)
  | @obj fields others hkeys hfields ih =>
      cases h with
      | obj hnodup h =>
          cases h' with
          | obj hnodup' h' =>
              have hlength : fields.length = others.length := by
                have hperm := (List.perm_ext_iff_of_nodup hnodup hnodup').mpr hkeys
                simpa using hperm.length_eq
              rw [pyEq, hlength, decide_eq_true rfl, Bool.true_and]
              refine fieldsEq_of_lookup fun field hfield => ?_
              obtain ⟨found, hfound, hkey⟩ :=
                List.mem_map.mp ((hkeys field.1).mp (List.mem_map_of_mem hfield))
              have hsome : (others.lookup field.1).isSome :=
                List.lookup_isSome_iff.mpr ⟨found, hfound, beq_iff_eq.mpr hkey.symm⟩
              obtain ⟨other, hother⟩ := Option.isSome_iff_exists.mp hsome
              refine ⟨other, hother, ?_⟩
              have hmem : (field.1, other) ∈ others := by
                obtain ⟨before, after, rfl, -⟩ := List.lookup_eq_some_iff.mp hother
                exact List.mem_append_right _ (.head _)
              exact ih field.1 field.2 other hfield hmem (h _ hfield) (h' _ hmem)

/-- What Python finds equal among these payloads is the same up to the order of keys. -/
def ToldApart (Occurs : RawPayload → Prop) : Prop :=
  ∀ raw raw', Occurs raw → Occurs raw' → payloadEq raw raw' = true → SamePayload raw raw'

section Rows

variable [runtime : PythonRuntime] (Occurs : RawPayload → Prop)

structure HashedRow (row : ListingRow) : Prop where
  hash : row.contentHash = contentHash row.rawPayload
  payload : WellFormedPayload row.rawPayload
  occurs : Occurs row.rawPayload

/-- What a write may put into the table of listings. -/
def HashedWrite : Write → Prop
  | .insertListing row => HashedRow Occurs row
  | .updateListing loaded model => HashedRow Occurs loaded ∧ HashedRow Occurs model
  | _ => True

def Hashed (db : Store) : Prop := ∀ row ∈ db.listings, HashedRow Occurs row

/-- The same of a write that goes by what the session sees. -/
def HashedAt (view : Store) : Write → Prop
  | .insertListing row => HashedRow Occurs row
  | .updateListing loaded model => loaded ∈ view.listings ∧ HashedRow Occurs model
  | _ => True

variable {Occurs} {write : Write} {db : Store}

theorem hashedWrite_of_hashedAt (h : HashedAt Occurs db write) (hdb : Hashed Occurs db) :
    HashedWrite Occurs write := by
  cases write with
  | insertListing row => exact h
  | updateListing loaded model => exact ⟨hdb loaded h.1, h.2⟩
  | _ => trivial

theorem hashedAt_of_inTables {tables : List Table} (htables : .listings ∉ tables)
    (h : InTables tables write) : HashedAt Occurs db write := by
  have hspares : write.table ≠ .listings := fun heq => htables (heq ▸ h)
  cases write with
  | insertListing row => exact absurd rfl hspares
  | updateListing loaded model => exact absurd rfl hspares
  | _ => trivial

/-- An update writes hash and payload both, or none of them. -/
theorem hashedRow_update (hsha : Function.Injective runtime.sha256)
    (hapart : ToldApart Occurs) {loaded model stored : ListingRow}
    (hloaded : HashedRow Occurs loaded) (hmodel : HashedRow Occurs model)
    (hstored : HashedRow Occurs stored) :
    HashedRow Occurs (ListingRow.update loaded model stored) := by
  have hboth : loaded.contentHash = model.contentHash ↔
      payloadEq loaded.rawPayload model.rawPayload = true := by
    rw [hloaded.hash, hmodel.hash, contentHash_inj hsha,
      ← samePayload_iff hloaded.payload hmodel.payload]
    exact ⟨fun hsame => pyEq_of_same hsame hloaded.payload hmodel.payload,
      hapart _ _ hloaded.occurs hmodel.occurs⟩
  by_cases hkept : loaded.contentHash = model.contentHash
  · have hhash : (ListingRow.update loaded model stored).contentHash =
        stored.contentHash := if_pos hkept
    have hpayload : (ListingRow.update loaded model stored).rawPayload =
        stored.rawPayload := if_pos (hboth.mp hkept)
    exact ⟨by rw [hhash, hpayload, hstored.hash], hpayload ▸ hstored.payload,
      hpayload ▸ hstored.occurs⟩
  · have hhash : (ListingRow.update loaded model stored).contentHash =
        model.contentHash := if_neg hkept
    have hpayload : (ListingRow.update loaded model stored).rawPayload =
        model.rawPayload := if_neg fun heq => hkept (hboth.mpr heq)
    exact ⟨by rw [hhash, hpayload, hmodel.hash], hpayload ▸ hmodel.payload,
      hpayload ▸ hmodel.occurs⟩

theorem hashed_apply (hsha : Function.Injective runtime.sha256) (hapart : ToldApart Occurs)
    (write : Write) (db : Store) (hwrite : HashedWrite Occurs write)
    (h : Hashed Occurs db) : Hashed Occurs (Database.apply write db) := by
  cases write with
  | insertListing row =>
      exact List.forall_mem_append.mpr ⟨h, List.forall_mem_singleton.mpr hwrite⟩
  | updateListing loaded model =>
      intro row hrow
      obtain ⟨stored, hstored, rfl⟩ := List.mem_map.mp hrow
      split
      · exact hashedRow_update hsha hapart hwrite.1 hwrite.2 (h stored hstored)
      · exact h stored hstored
  | _ => exact h

theorem hashedAt_upsertWrites {listing : RawListing} (h : WellFormedPayload listing.raw)
    (hoccurs : Occurs listing.raw) (propertyId : PropertyId) (stamp : Stamp)
    (db : Store) : ∀ write ∈ PortalListingRepository.upsertWrites listing propertyId
      (contentHash listing.raw) stamp db, HashedAt Occurs db write := by
  unfold PortalListingRepository.upsertWrites
  dsimp only
  split
  · next existing hexisting =>
    exact List.forall_mem_singleton.mpr
      ⟨List.mem_of_find?_eq_some hexisting, rfl, h, hoccurs⟩
  · refine List.forall_mem_append.mpr ⟨fun write hwrite => ?_,
      List.forall_mem_singleton.mpr ⟨rfl, h, hoccurs⟩⟩
    exact hashedAt_of_inTables (by decide)
      (allIn_portalWrites (.head []) listing.portalSlug db write hwrite)

end Rows

/-! ## Workers -/

section Workers

variable [PythonRuntime] [PersistenceRuntime] (Occurs : RawPayload → Prop)

/-- A page is JSON, and its payloads are among those that occur. -/
def FetchesJson : (request : CycleCall) → CycleAnswer request → Prop
  | .fetch _, answer => ∀ listings, answer = .ok listings →
      ∀ listing ∈ listings, WellFormedPayload listing.raw ∧ Occurs listing.raw
  | _, _ => True

abbrev hashing : Contract Store Write CycleCall CycleAnswer :=
  Sys.promising (FetchesJson Occurs) (Hashed Occurs) (HashedWrite Occurs)

variable {Occurs} {s : CycleSession} {db : Store}

omit [PersistenceRuntime] in
theorem promises_of_hashedAt (s : CycleSession) (db : Store) (writes : List Write)
    (hfinds : (hashing Occurs).finds s db)
    (h : ∀ write ∈ writes, HashedAt Occurs (s.view db) write) :
    (hashing Occurs).promises s db writes :=
  fun write hwrite => hashedWrite_of_hashedAt (h write hwrite) hfinds

theorem within_storeListing_hashed {listing : RawListing}
    (h : WellFormedPayload listing.raw) (hoccurs : Occurs listing.raw) (resolved : Resolved)
    (result : NormalizationResult) :
    (storeListing listing resolved result).Within (HashedAt Occurs) fun _ => True := by
  unfold storeListing
  dsimp only
  split
  · exact Txn.within_done _
  · next prop _ =>
    refine Txn.within_bind (Txn.within_bind ⟨trivial, fun now => Txn.within_done now⟩
      fun now => Txn.within_bind (Txn.within_ofExcept _) fun row =>
        Txn.within_exec fun stamp db write hwrite => hashedAt_of_inTables (by decide)
          (allIn_addWrites_property prop row now stamp db write hwrite)) fun _ => ?_
    exact Txn.within_bind (Txn.within_exec fun stamp db =>
      hashedAt_upsertWrites h hoccurs prop.id stamp db) fun _ => Txn.within_done _

theorem within_resolveListing_hashed {listing : RawListing}
    (h : WellFormedPayload listing.raw) (hoccurs : Occurs listing.raw)
    (portalSlug : String) (resolved : Resolved) :
    (resolveListing portalSlug resolved listing).Within (HashedAt Occurs)
      fun _ => True := by
  refine Txn.within_bind (Txn.within_query _) fun unchanged => ?_
  cases unchanged with
  | some propertyId => exact Txn.within_done _
  | none =>
      exact Txn.within_bind ⟨trivial, fun answer => Txn.within_ofExcept answer⟩
        fun result => within_storeListing_hashed h hoccurs resolved result

omit [PersistenceRuntime] in
theorem keeps_of_within_hashed {α : Type} {p : CycleTxn α}
    (h : p.Within (HashedAt Occurs) fun _ => True) :
    p.Keeps (hashing Occurs) (Txn.keptOk fun _ _ _ => True) s db := by
  refine Txn.keeps_mono _ (fun outcome _ _ _ => ?_)
    (Txn.keeps_of_within promises_of_hashedAt h)
  cases outcome <;> trivial

/-- After the page is fetched, every write of a scrape stores what was fetched. -/
theorem keeps_scrapeCandidates_hashed (cycle : RunAlertCycle) (planned : PlannedQuery)
    (now : DateTime) : (cycle.scrapeCandidates planned now).Keeps (hashing Occurs)
      (Txn.keptOk fun _ _ _ => True) s db := by
  intro scraper _
  refine Txn.keeps_ok_bind (keeps_of_within_hashed (Txn.within_ofExcept scraper))
    fun _ s db _ => ?_
  intro page hpage
  refine Txn.keeps_ok_bind (P := fun (listings : List RawListing) _ _ =>
    ∀ listing ∈ listings, WellFormedPayload listing.raw ∧ Occurs listing.raw)
    ?_ fun listings s db hjson => ?_
  · cases page with
    | error error => trivial
    | ok listings => exact hpage listings rfl
  refine keeps_of_within_hashed (Txn.within_bind
    ⟨trivial, fun answer => Txn.within_ofExcept answer⟩ fun _ => ?_)
  refine Txn.within_bind (Txn.within_foldEach fun resolved listing hlisting =>
    within_resolveListing_hashed (hjson listing hlisting).1 (hjson listing hlisting).2 _
      resolved) fun resolved => ?_
  refine Txn.within_bind (Txn.within_exec fun _ db write hwrite =>
    hashedAt_of_inTables (by decide) (allIn_putWrites _ _ _ _ _ db write hwrite))
    fun _ => ?_
  refine Txn.within_bind ⟨trivial, fun finishedAt => Txn.within_done finishedAt⟩
    fun finishedAt => ?_
  exact Txn.within_bind (Txn.within_exec fun stamp db write hwrite =>
    hashedAt_of_inTables (by decide) (allIn_recordWrites _ stamp db write hwrite))
    fun _ => Txn.within_done _

theorem keeps_runOne_hashed (cycle : RunAlertCycle) (planned : PlannedQuery) :
    (cycle.runOne planned).Keeps (hashing Occurs) (fun _ _ _ => True) s db := by
  intro now _
  have hresolve : (cycle.resolveCandidates planned now).Keeps (hashing Occurs)
      (Txn.keptOk fun _ _ _ => True) (s.answered .clock now) db := by
    refine Txn.keeps_ok_bind (keeps_of_within_hashed (Txn.within_query _))
      fun cached s db _ => ?_
    cases cached with
    | some propertyIds => trivial
    | none => exact keeps_scrapeCandidates_hashed cycle planned now
  change Txn.Keeps _ ((cycle.resolveCandidates planned now).attempt.bind _) _ _ _
  refine (Txn.keeps_bind _ _).mpr ((Txn.keeps_attempt _).mpr (Txn.keeps_mono _ ?_ hresolve))
  rintro (error | propertyIds) s' db' -
  · cases error with
    | scraperError error =>
        exact Txn.keeps_of_within promises_of_hashedAt
          ((within_recordFailure planned error now).mono
            (fun _ _ => hashedAt_of_inTables (by decide)) fun _ h => h)
    | _ => trivial
  · exact Txn.keeps_of_within promises_of_hashedAt
      ((within_persistMatches cycle planned propertyIds now).mono
        (fun _ _ => hashedAt_of_inTables (by decide)) fun _ h => h)

end Workers

/-! ## Skipping a listing -/

section Skipping

variable [runtime : PythonRuntime] {Occurs : RawPayload → Prop}

theorem findUnchangedPropertyId_iff (hsha : Function.Injective runtime.sha256) {db : Store}
    (hdb : Hashed Occurs db) {listing : RawListing}
    (hlisting : WellFormedPayload listing.raw) (propertyId : PropertyId) :
    PortalListingRepository.findUnchangedPropertyId listing.portalSlug
        listing.externalId (contentHash listing.raw) db = some propertyId ↔
      ∃ row, PortalListingRepository.find listing.portalSlug listing.externalId db =
        some row ∧ SamePayload row.rawPayload listing.raw ∧ row.propertyId = propertyId := by
  unfold PortalListingRepository.findUnchangedPropertyId
  cases hfind : PortalListingRepository.find listing.portalSlug listing.externalId db with
  | none => simp
  | some row =>
      have hrow := hdb row (List.mem_of_find?_eq_some hfind)
      have hsame : row.contentHash = contentHash listing.raw ↔
          SamePayload row.rawPayload listing.raw := by
        rw [hrow.hash, contentHash_inj hsha, samePayload_iff hrow.payload hlisting]
      by_cases hpayload : SamePayload row.rawPayload listing.raw
      · simp [hsame, hpayload]
      · simp [hsame, hpayload]

/--
In every state of every interleaving of workers, a worker that looks a scraped listing
up finds it unchanged exactly when the payload stored for it is the scraped one up to
the order of keys, at any depth; as long as Python tells apart the payloads that are
stored at first or fetched.
-/
theorem unchanged_iff_same_payload [PersistenceRuntime]
    (hsha : Function.Injective runtime.sha256) (hapart : ToldApart Occurs)
    (cycles : Nat → RunAlertCycle) (planned : Nat → PlannedQuery)
    (oracle : Oracle CycleCall CycleAnswer)
    (hjson : ∀ i op request, FetchesJson Occurs request (oracle i op request)) (db : Store)
    (hdb : Hashed Occurs db) (schedule : List Nat) (i : Nat) (listing : RawListing)
    (hlisting : WellFormedPayload listing.raw) (propertyId : PropertyId) :
    let sys := (Sys.start db fun i => (cycles i).runOne (planned i)).run oracle schedule
    let view := (sys.workers i).session.view sys.store
    PortalListingRepository.findUnchangedPropertyId listing.portalSlug
        listing.externalId (contentHash listing.raw) view = some propertyId ↔
      ∃ row, PortalListingRepository.find listing.portalSlug listing.externalId view =
        some row ∧ SamePayload row.rawPayload listing.raw ∧ row.propertyId = propertyId := by
  intro sys view
  have hview := (Sys.view_run_of_promising (hashed_apply hsha hapart) hjson
    (fun i => keeps_runOne_hashed (cycles i) (planned i)) hdb schedule).2 i
  exact findUnchangedPropertyId_iff hsha hview hlisting propertyId

end Skipping

/-! ## Payloads with a title -/

/-- Titles that are texts are equal in Python only if they are the same. -/
def IsTitled (raw : RawPayload) : Prop := ∃ title, raw = titledPayload (.str title)

theorem toldApart_titled : ToldApart IsTitled := by
  rintro _ _ ⟨title, rfl⟩ ⟨title', rfl⟩ heq
  have htitle : title = title' := by
    simpa [payloadEq, titledPayload, Dict.set, Dict.empty, Dict.keys, pyEq, fieldsEq]
      using heq
  subst htitle
  exact (samePayload_iff (wellFormed_titledPayload (.str title))
    (wellFormed_titledPayload (.str title))).mpr rfl

/-- A flag that becomes a count is not written: the stored payload stays `True`. -/
example (loaded model : ListingRow)
    (hloaded : loaded.rawPayload = titledPayload (.bool true))
    (hmodel : model.rawPayload = titledPayload (.int 1)) :
    (ListingRow.update loaded model loaded).rawPayload = titledPayload (.bool true) := by
  have heq : payloadEq loaded.rawPayload model.rawPayload = true := by
    rw [hloaded, hmodel]
    decide
  exact (if_pos heq).trans hloaded

theorem fetchesJson_titled (i op : Nat) (request : CycleCall) :
    FetchesJson IsTitled request (titledOracle (fun _ => .str "Flat") i op request) := by
  cases request with
  | fetch query =>
      intro listings hpage listing hlisting
      obtain rfl := Except.ok.inj hpage
      rw [List.mem_singleton.mp hlisting]
      exact ⟨wellFormed_titledPayload (.str "Flat"), "Flat", rfl⟩
  | _ => trivial

theorem unchanged_iff_same_payload_titled :
    let sys := (Sys.start .empty fun _ =>
      @RunAlertCycle.runOne .plain .plain forgetfulCycle idleQuery).run
        (titledOracle fun _ => .str "Flat") (List.replicate 40 0)
    let view := (sys.workers 1).session.view sys.store
    let raw := titledPayload (.str "House")
    PortalListingRepository.findUnchangedPropertyId "idealista" "1"
        (@contentHash .plain raw) view = some "flat" ↔
      ∃ row, PortalListingRepository.find "idealista" "1" view = some row ∧
        SamePayload row.rawPayload raw ∧ row.propertyId = "flat" :=
  @unchanged_iff_same_payload .plain IsTitled .plain (fun _ _ h => h) toldApart_titled
    (fun _ => forgetfulCycle) (fun _ => idleQuery) (titledOracle fun _ => .str "Flat")
    fetchesJson_titled .empty (fun _ hrow => absurd hrow List.not_mem_nil)
    (List.replicate 40 0) 1 (titledListing (.str "House"))
    (wellFormed_titledPayload (.str "House")) "flat"

end RealEstateTracker.Cycle
