import RealEstateTracker.Service.Messages

/-!
# What a list of matches shows

The list is read in one statement and then two more for each match, while cycles go on
overwriting properties and listings.  It shows the newest matches of the time when it was
read, and each of them with its property and its link.
-/

namespace RealEstateTracker.Service

open Foundation Domain Application Persistence RealEstateTracker.Cycle Notifications
  Presentation

section Viewers

variable [PythonRuntime] [PersistenceRuntime] (found : Nat → Store)

/-- The property and the page of the `k`-th match of the list, as the viewer read them. -/
def Complete (k : Nat) (view : MatchView) : Prop :=
  ∃ prop listing, view.property = some prop ∧ view.listingUrl = some listing.url ∧
    PropertyRepository.get view.found.propertyId (found (2 * k + 1)) = .ok (some prop) ∧
    listing ∈ (found (2 * k + 2)).listings ∧ listing.propertyId = prop.id

/-- Complete views of the matches, or the error of a property that cannot be read back. -/
def Views (rows : List MatchRow) : Except PyError (List MatchView) → Prop
  | .ok views => views.map (·.found) = rows ∧
      ∀ k view, views[k]? = some view → Complete found k view
  | .error error => ∃ k row, rows[k]? = some row ∧
      PropertyRepository.get row.propertyId (found (2 * k + 1)) = .error error

/-- The newest matches of the first operation, each as it was read later. -/
def Shows (userId : UserId) (limit : Nat) (outcome : Except PyError (List MatchView)) :
    Prop :=
  ∃ rows, Newest limit ((found 0).alertMatches.filter (OwnedBy userId (found 0))) rows ∧
    Views found rows outcome

variable {found} {C : Type} {R : C → Type} {env : Surroundings Store C R}
  {s : Session Write C R}

theorem Complete.concat {views : List MatchView}
    (hviews : ∀ k view, views[k]? = some view → Complete found k view) {view : MatchView}
    (hview : Complete found views.length view) :
    ∀ k other, (views ++ [view])[k]? = some other → Complete found k other := by
  intro k other hother
  rcases Nat.lt_or_ge k views.length with hk | hk
  · exact hviews k other (by rwa [List.getElem?_append_left hk] at hother)
  · rw [List.getElem?_append_right hk] at hother
    obtain ⟨hlt, rfl⟩ := List.getElem?_eq_some_iff.mp hother
    have hlast : k = views.length := by
      simp only [List.length_singleton] at hlt
      omega
    subst hlast
    simpa using hview

theorem views_runIn (hsound : Sound env.found) {rows : List MatchRow}
    (views : List MatchView)
    (hviews : ∀ k view, views[k]? = some view → Complete env.found k view)
    (hpending : s.pending = []) (hops : s.ops = 2 * views.length + 1)
    (hrows : ∀ row ∈ rows, rowFacts.holds (env.found 0) (.property row.propertyId)) :
    Views env.found (views.map (·.found) ++ rows)
      ((Txn.foldEach rows views fun views row => (viewMatch row).bind fun view =>
        .done (views ++ [view])).runIn env s).1 := by
  induction rows generalizing views s with
  | nil => exact ⟨by simp, hviews⟩
  | cons row rows ih =>
      obtain ⟨hrow, hrest⟩ := List.forall_mem_cons.mp hrows
      have hread : ∀ k, rowFacts.holds (env.found k) (.property row.propertyId) :=
        fun k => hsound.grows 0 k (Nat.zero_le _) _ hrow
      change Views _ _ (Txn.runIn env (Txn.bind (Txn.bind (Txn.bind (Txn.ofExcept
        (PropertyRepository.get row.propertyId (s.view (env.found s.ops)))) _) _) _)
          (s.wrote [])).1
      rw [view_of_idle hpending, hops]
      cases hloaded : PropertyRepository.get row.propertyId
          (env.found (2 * views.length + 1)) with
      | error error => exact ⟨views.length, row, by simp, hloaded⟩
      | ok loaded =>
          obtain ⟨prop, rfl, hid⟩ := get_property_of_holds (hread _) hloaded
          obtain ⟨listing, hlisting, hlisted, hurl⟩ :=
            url_of_holds (hsound.identified (2 * views.length + 2)) (hread _)
          have hview : Complete env.found views.length ⟨row, some prop, some listing.url⟩ :=
            ⟨prop, listing, rfl, rfl, hloaded, hlisting, hlisted.trans hid.symm⟩
          have hlater := ih (views ++ [⟨row, some prop, some listing.url⟩])
            (Complete.concat hviews hview) (s := (s.wrote []).wrote [])
            (by simpa using hpending) (by simp [hops]; omega) hrest
          rw [List.map_append, List.append_assoc] at hlater
          change Views _ _ (Txn.runIn env (Txn.foldEach rows (views ++ [⟨row, some prop,
            PortalListingRepository.getUrlForProperty row.propertyId
              ((s.wrote []).view (env.found (s.ops + 1)))⟩]) _) ((s.wrote []).wrote [])).1
          rw [view_of_idle (by simpa using hpending), hops, hurl]
          exact hlater

theorem shows_runIn (hsound : Sound env.found) (userId : UserId) (limit i : Nat) :
    Shows env.found userId limit ((listMatches userId limit).runIn env (.start i)).1 := by
  refine ⟨_, newest_take limit _, ?_⟩
  refine views_runIn (s := (Session.start i).wrote []) hsound []
    (fun k view h => by simp at h) rfl rfl fun row hrow => ?_
  have hmem := (List.mem_insertionSort _).mp (List.mem_of_mem_take hrow)
  exact (hsound.identified 0).matched row (List.mem_of_mem_filter hmem)

end Viewers

/-! ## Runs -/

section Runs

variable [PythonRuntime] [PersistenceRuntime]
  {fieldMap : String → List (String × String)}

/--
Whatever runs at once and in whatever order, a viewer that ends was shown the newest
matches that the user had at its first operation, newest first, each with the property
that was matched and the address of one of its listings, as its own two operations read
them, or it failed on a property that cannot be read back.
-/
theorem shown_matches_are_complete (parties : Nat → Party)
    (oracle : Oracle ServiceCall ServiceAnswer)
    (hnormalizes : ∀ i op request, ServiceNormalizes fieldMap request (oracle i op request))
    (db : Store) (hidentified : Identified db) (hlinked : Linked db) (schedule : List Nat)
    (i : Nat) (userId : UserId) (limit : Nat) (hviewer : parties i = .viewer userId limit) :
    (∀ views, ((service parties db).run oracle schedule).Finished i (.ok (some views)) →
      Shows (met oracle parties db schedule i).found userId limit (.ok views)) ∧
    ∀ error, ((service parties db).run oracle schedule).Finished i (.error error) →
      Shows (met oracle parties db schedule i).found userId limit (.error error) := by
  have hsound := sound_met parties hnormalizes hidentified hlinked schedule i
  have hshows := shows_runIn hsound userId limit i
  have hended : ∀ outcome, ((service parties db).run oracle schedule).Finished i outcome →
      ((listMatches userId limit).runIn (met oracle parties db schedule i)
        (.start i)).1.map some = outcome := by
    intro outcome hfinished
    have hrun := Sys.runIn_of_finished hfinished
    rw [hviewer, Party.program, Txn.runIn_bind] at hrun
    rw [← show _ = outcome from congrArg Prod.fst hrun]
    generalize (listMatches userId limit).runIn (met oracle parties db schedule i)
      (.start i) = ended
    obtain ⟨outcome, s⟩ := ended
    cases outcome <;> rfl
  generalize ((listMatches userId limit).runIn (met oracle parties db schedule i)
    (.start i)).1 = outcome at hshows hended
  refine ⟨fun views hfinished => ?_, fun error hfinished => ?_⟩
  · have hviews := hended _ hfinished
    cases outcome with
    | ok shown =>
        rw [← Option.some.inj (Except.ok.inj hviews)]
        exact hshows
    | error error => cases hviews
  · have herror := hended _ hfinished
    cases outcome with
    | ok shown => cases herror
    | error error' =>
        rw [← Except.error.inj herror]
        exact hshows

omit [PythonRuntime] [PersistenceRuntime] in
theorem shown_matches_are_complete_flat :
    ∃ views, ((@service .plain .plain flatParties unsearchedStore).run flatOracle
        (List.replicate 19 0 ++ List.replicate 3 2)).Finished 2 (.ok (some views)) ∧
      views.map (·.listingUrl) = [some "/inmueble/1/"] ∧
      @Shows .plain .plain (@met .plain .plain flatOracle flatParties unsearchedStore
        (List.replicate 19 0 ++ List.replicate 3 2) 2).found (.given 0) 20 (.ok views) :=
  ⟨_, rfl, rfl, (@shown_matches_are_complete .plain .plain
    (fun _ => Infrastructure.idealistaFieldMap) flatParties flatOracle normalizes_flatOracle
    unsearchedStore (@identified_of_nil .plain _ rfl rfl rfl rfl) linked_unsearchedStore
    (List.replicate 19 0 ++ List.replicate 3 2) 2 (.given 0) 20 rfl).1 _ rfl⟩

end Runs

end RealEstateTracker.Service
