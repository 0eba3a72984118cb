import RealEstateTracker.Service.Parties

/-!
# What users are told

A message is made of five reads at five times, and a list of matches of two reads for
each match, while cycles overwrite what they read.  No message falls back on a default,
and nothing that is shown lacks its property or its link.
-/

namespace RealEstateTracker.Service

open Foundation Domain Application Persistence RealEstateTracker.Cycle Notifications
  Presentation

/-! ## Rows that stay -/

inductive RowFact where
  | alertMatch (id : MatchId)
  | alert (id : AlertId)
  | property (id : PropertyId)
  | channel (id : ChannelId)

def RowFact.Holds (db : Store) : RowFact → Prop
  | alertMatch id => ∃ row ∈ db.alertMatches, row.id = id
  | alert id => ∃ row ∈ db.alerts, row.id = id
  | property id => ∃ row ∈ db.properties, row.id = id
  | channel id => ∃ row ∈ db.channels, row.id = id

def RowFact.AddedBy : Write → RowFact → Prop
  | .insertMatch row, alertMatch id => row.id = id
  | .insertAlert row, alert id => row.id = id
  | .insertProperty row, property id => row.id = id
  | _, _ => False

theorem exists_mem_updateWhere {α : Type} {selects : α → Bool} {P : α → Prop}
    (change : α → α) (hchange : ∀ row, P (change row) ↔ P row) (rows : List α) :
    (∃ row ∈ updateWhere selects change rows, P row) ↔ ∃ row ∈ rows, P row := by
  simp only [updateWhere, List.mem_map, exists_exists_and_eq_and]
  refine exists_congr fun row => and_congr_right fun _ => ?_
  split
  · exact hchange row
  · rfl

theorem rowFact_holds_apply (write : Write) (db : Store) (fact : RowFact) :
    fact.Holds (Database.apply write db) ↔ fact.Holds db ∨ fact.AddedBy write := by
  cases fact with
  | alertMatch id =>
      cases write <;>
        simp [apply_eq, Write.apply, RowFact.Holds, RowFact.AddedBy, or_and_right, exists_or]
  | alert id =>
      cases write with
      | updateAlert loaded model =>
          simp only [RowFact.AddedBy, or_false]
          exact exists_mem_updateWhere (AlertRow.update loaded model) (fun _ => Iff.rfl) _
      | _ =>
          simp [apply_eq, Write.apply, RowFact.Holds, RowFact.AddedBy, or_and_right,
            exists_or]
  | property id =>
      cases write with
      | updateProperty loaded model =>
          simp only [RowFact.AddedBy, or_false]
          exact exists_mem_updateWhere (PropertyRow.update loaded model) (fun _ => Iff.rfl) _
      | _ =>
          simp [apply_eq, Write.apply, RowFact.Holds, RowFact.AddedBy, or_and_right,
            exists_or]
  | channel id => cases write <;> simp [apply_eq, Write.apply, RowFact.Holds, RowFact.AddedBy]

def rowFacts : Facts Store Write where
  Fact := RowFact
  holds := RowFact.Holds
  adds write fact := fact.AddedBy write
  holds_apply := rowFact_holds_apply

theorem exists_find?_of_mem {α β : Type} [DecidableEq β] {rows : List α} {key : α → β}
    {id : β} (h : ∃ row ∈ rows, key row = id) :
    ∃ row ∈ rows, key row = id ∧ rows.find? (fun row => key row = id) = some row := by
  obtain ⟨row, hrow, hid⟩ := h
  cases hfind : rows.find? (fun row => key row = id) with
  | none => exact absurd hid (by simpa using List.find?_eq_none.mp hfind row hrow)
  | some found =>
      exact ⟨found, List.mem_of_find?_eq_some hfind, by simpa using List.find?_some hfind,
        rfl⟩

/-! ## Messages -/

section Dispatchers

variable [PythonRuntime] [PersistenceRuntime] (found : Nat → Store)

/--
What a dispatcher reads from its operation `m` on, `found` being the committed data at
each of its operations: the message names the alert, describes the property that was
matched and links to a listing of it.
-/
structure Informed (n : NotificationRow) (m : Nat) (channel : NotificationChannel)
    (message : NotificationMessage) : Prop where
  enabled : channel.isEnabled = true
  channel_read : NotificationChannelRepository.get n.channelId (found m) = .ok (some channel)
  exists_parts : ∃ row prop alert listing,
    MatchRepository.get n.matchId (found (m + 1)) = some row ∧
    PropertyRepository.get row.propertyId (found (m + 2)) = .ok (some prop) ∧
    AlertRepository.get row.alertId (found (m + 3)) = .ok (some alert) ∧
    (listing ∈ (found (m + 4)).listings ∧ listing.propertyId = prop.id) ∧
    message = formatMatchMessage alert.name prop (some listing.url)

/-- The dispatcher listed the notification first of all, and the message is about it. -/
def Tells (dispatch : DispatchNotifications) (m : Nat) (id : NotificationId)
    (target : String) (message : NotificationMessage) : Prop :=
  ∃ n ∈ NotificationRepository.listPending dispatch.batchSize (found 0), n.id = id ∧
    ∃ channel, channel.target = target ∧ Informed found n m channel message

variable {found} {env : Surroundings Store DispatchCall DispatchAnswer}
  {s s' : DispatchSession} {db : Store} {n : NotificationRow}

omit [PythonRuntime] in
theorem get_channel_of_holds (h : rowFacts.holds db (.channel n.channelId))
    {found : Option NotificationChannel}
    (hget : NotificationChannelRepository.get n.channelId db = .ok found) :
    ∃ channel, found = some channel := by
  rcases NotificationChannelRepository.get_eq_ok hget with ⟨hnone, -⟩ | ⟨-, channel, -, -, h⟩
  · obtain ⟨row, -, -, hfind⟩ := exists_find?_of_mem h
    cases hnone.symm.trans hfind
  · exact ⟨channel, h⟩

omit [PythonRuntime] [PersistenceRuntime] in
theorem get_match_of_holds {id : MatchId} (h : rowFacts.holds db (.alertMatch id)) :
    ∃ found ∈ db.alertMatches, MatchRepository.get id db = some found := by
  obtain ⟨row, hrow, -, hfind⟩ := exists_find?_of_mem h
  exact ⟨row, hrow, hfind⟩

theorem get_property_of_holds {id : PropertyId} (h : rowFacts.holds db (.property id))
    {found : Option Property} (hget : PropertyRepository.get id db = .ok found) :
    ∃ prop, found = some prop ∧ prop.id = id := by
  obtain ⟨row, -, -, hfind⟩ := exists_find?_of_mem h
  have hgot := hget
  rw [PropertyRepository.get, PropertyRepository.find, hfind, Option.map_some] at hget
  cases hread : PropertyRepository.toDomain (PropertyRepository.readRow row) with
  | error error => simp [hread, Except.map] at hget
  | ok prop =>
      simp only [hread, Except.map] at hget
      obtain rfl := Except.ok.inj hget
      exact ⟨prop, rfl, PropertyRepository.id_of_get hgot⟩

omit [PersistenceRuntime] in
theorem get_alert_of_holds {id : AlertId} (h : rowFacts.holds db (.alert id))
    {found : Option SearchAlert} (hget : AlertRepository.get id db = .ok found) :
    ∃ alert, found = some alert := by
  obtain ⟨row, -, -, hfind⟩ := exists_find?_of_mem h
  rw [AlertRepository.get, AlertRepository.find, hfind] at hget
  cases hread : AlertRepository.toDomain db row with
  | error error => simp [hread, Except.map] at hget
  | ok alert =>
      simp only [hread, Except.map] at hget
      exact ⟨alert, (Except.ok.inj hget).symm⟩

omit [PersistenceRuntime] in
theorem url_of_holds (hdb : Identified db) {id : PropertyId}
    (h : rowFacts.holds db (.property id)) : ∃ listing ∈ db.listings,
      listing.propertyId = id ∧
        PortalListingRepository.getUrlForProperty id db = some listing.url := by
  obtain ⟨row, hrow, rfl⟩ := h
  obtain ⟨listing, hlisting, hid, hfind⟩ := exists_find?_of_mem (hdb.listed row hrow)
  refine ⟨listing, hlisting, hid, ?_⟩
  rw [PortalListingRepository.getUrlForProperty, hfind]
  rfl

omit [PythonRuntime] [PersistenceRuntime] in
/-- A session without pending writes sees what is committed. -/
theorem view_of_idle {C : Type} {R : C → Type} {s : Session Write C R}
    (h : s.pending = []) (db : Store) : s.view db = db := by
  rw [Session.view, h]
  rfl

/-- The rows of what is found only grow in number, and their references hold. -/
structure Sound (found : Nat → Store) : Prop where
  grows : ∀ k l, k ≤ l → rowFacts.Grows (found k) (found l)
  linked : ∀ k, Linked (found k)
  identified : ∀ k, Identified (found k)

/-! ## Reading -/

theorem matchedProperty_eq_ok (hsound : Sound env.found) (hpending : s.pending = [])
    (hmatch : rowFacts.holds (env.found s.ops) (.alertMatch n.matchId))
    {matched : Option (MatchRow × Property)}
    (h : (DispatchNotifications.matchedProperty n).runIn env s = (.ok matched, s')) :
    ∃ row prop, matched = some (row, prop) ∧
      MatchRepository.get n.matchId (env.found s.ops) = some row ∧
      PropertyRepository.get row.propertyId (env.found (s.ops + 1)) = .ok (some prop) ∧
      rowFacts.holds (env.found (s.ops + 1)) (.alert row.alertId) ∧
      rowFacts.holds (env.found (s.ops + 1)) (.property prop.id) ∧
      s'.pending = [] ∧ s'.ops = s.ops + 2 := by
  obtain ⟨row, hrow, hget⟩ := get_match_of_holds hmatch
  have hgrows := hsound.grows s.ops (s.ops + 1) (Nat.le_succ _)
  have halert : rowFacts.holds (env.found (s.ops + 1)) (.alert row.alertId) :=
    hgrows _ ((hsound.linked s.ops).monitored row hrow)
  have hproperty : rowFacts.holds (env.found (s.ops + 1)) (.property row.propertyId) :=
    hgrows _ ((hsound.identified s.ops).matched row hrow)
  obtain ⟨found, s₁, hquery, h⟩ := Txn.runIn_bind_eq_ok h
  obtain ⟨hfound, rfl⟩ := Prod.mk.inj hquery
  rw [view_of_idle hpending, hget] at hfound
  obtain rfl : some row = found := Except.ok.inj hfound
  obtain ⟨loaded, hloaded, h⟩ := Txn.runIn_ofExcept_bind_eq_ok
    (s := (s.wrote []).wrote []) h
  rw [view_of_idle (by simpa using hpending)] at hloaded
  obtain ⟨prop, rfl, hid⟩ := get_property_of_holds hproperty hloaded
  obtain ⟨hmatched, rfl⟩ := Prod.mk.inj h
  exact ⟨row, prop, (Except.ok.inj hmatched).symm, hget, hloaded, halert, hid ▸ hproperty,
    by simp [hpending], rfl⟩

omit [PersistenceRuntime] in
theorem messageFor_eq_ok (hsound : Sound env.found) (hpending : s.pending = [])
    {row : MatchRow} {prop : Property}
    (halert : rowFacts.holds (env.found s.ops) (.alert row.alertId))
    (hproperty : rowFacts.holds (env.found s.ops) (.property prop.id))
    {message : NotificationMessage}
    (h : (DispatchNotifications.messageFor row prop).runIn env s = (.ok message, s')) :
    ∃ alert listing, AlertRepository.get row.alertId (env.found s.ops) = .ok (some alert) ∧
      (listing ∈ (env.found (s.ops + 1)).listings ∧ listing.propertyId = prop.id) ∧
      message = formatMatchMessage alert.name prop (some listing.url) ∧
      s'.ops = s.ops + 2 := by
  obtain ⟨loaded, hloaded, h⟩ := Txn.runIn_ofExcept_bind_eq_ok (s := s.wrote []) h
  rw [view_of_idle hpending] at hloaded
  obtain ⟨alert, rfl⟩ := get_alert_of_holds halert hloaded
  obtain ⟨listing, hlisting, hid, hurl⟩ := url_of_holds (hsound.identified (s.ops + 1))
    (hsound.grows s.ops (s.ops + 1) (Nat.le_succ _) _ hproperty)
  obtain ⟨hmessage, rfl⟩ := Prod.mk.inj h
  refine ⟨alert, listing, hloaded, ⟨hlisting, hid⟩, ?_, rfl⟩
  rw [← Except.ok.inj hmessage, view_of_idle (by simpa using hpending)]
  exact congrArg (formatMatchMessage alert.name prop) hurl

/-- What is prepared is complete. -/
theorem informed_of_prepare (hsound : Sound env.found) (hpending : s.pending = [])
    (hmatch : rowFacts.holds (env.found s.ops) (.alertMatch n.matchId))
    (hchannel : rowFacts.holds (env.found s.ops) (.channel n.channelId))
    {channel : NotificationChannel} {message : NotificationMessage}
    (h : (DispatchNotifications.prepare n).runIn env s =
      (.ok (some (channel, message)), s')) :
    Informed env.found n s.ops channel message ∧ s'.ops = s.ops + 5 := by
  obtain ⟨loaded, hloaded, h⟩ := Txn.runIn_ofExcept_bind_eq_ok (s := s.wrote []) h
  rw [view_of_idle hpending] at hloaded
  obtain ⟨read, rfl⟩ := get_channel_of_holds hchannel hloaded
  cases henabled : read.isEnabled with
  | false =>
      rw [Option.filter_some, henabled] at h
      cases h
  | true =>
      rw [Option.filter_some, henabled] at h
      obtain ⟨matched, s₁, hmatched, h⟩ := Txn.runIn_bind_eq_ok h
      obtain ⟨row, prop, rfl, hrow, hprop, halert, hproperty, hpending₁, hops₁⟩ :=
        matchedProperty_eq_ok hsound (by simpa using hpending)
          (hsound.grows _ _ (Nat.le_succ _) _ hmatch) hmatched
      obtain ⟨written, s₂, hwritten, h⟩ := Txn.runIn_bind_eq_ok h
      obtain ⟨hprepared, rfl⟩ := Prod.mk.inj h
      obtain ⟨rfl, rfl⟩ := Prod.mk.inj (Option.some.inj (Except.ok.inj hprepared))
      rw [Session.ops_wrote] at hops₁ hrow hprop
      have hlater := hsound.grows (s.ops + 2) s₁.ops (by omega)
      obtain ⟨alert, listing, hnamed, hlinked, hmessage, hops₂⟩ := messageFor_eq_ok hsound
        hpending₁ (hlater _ halert) (hlater _ hproperty) hwritten
      rw [hops₁] at hnamed hlinked hops₂
      exact ⟨⟨henabled, hloaded, row, prop, alert, listing, hrow, hprop, hnamed, hlinked,
        hmessage⟩, hops₂⟩

/-! ## Sending -/

omit [PythonRuntime] [PersistenceRuntime] in
/-- The message is sent at the fourth operation, after which nothing is sent. -/
theorem mem_callsIn_sendAndMark {dispatch : DispatchNotifications} {id id' : NotificationId}
    {channel : NotificationChannel} {message message' : NotificationMessage} {op : Nat}
    {target : String} {answer : Except PyError Unit}
    (h : (op, ⟨.send id' target message', answer⟩) ∈
      (dispatch.sendAndMark id channel message).callsIn env s) :
    op = s.ops + 3 ∧ id' = id ∧ target = channel.target ∧ message' = message := by
  rcases Txn.mem_callsIn_bind h with h | ⟨_, s₁, hlimit, h⟩
  · rcases List.mem_cons.mp h with h | h
    · cases h
    · rw [Txn.callsIn_ofExcept] at h
      cases h
  obtain rfl : _ = s₁ := congrArg Prod.snd ((Txn.runIn_ofExcept _ _).symm.trans hlimit)
  rcases Txn.mem_callsIn_bind h with h | ⟨_, s₂, hnotifier, h⟩
  · rcases List.mem_cons.mp h with h | h
    · cases h
    · rw [Txn.callsIn_ofExcept] at h
      cases h
  obtain rfl : _ = s₂ := congrArg Prod.snd ((Txn.runIn_ofExcept _ _).symm.trans hnotifier)
  rcases List.mem_cons.mp h with h | h
  · cases h
  rcases List.mem_cons.mp h with h | h
  · cases h
    exact ⟨rfl, rfl, rfl, rfl⟩
  -- what is left only marks the notification
  generalize (env.answer _ (.send id channel.target message) : Except PyError Unit) =
    outcome at h
  rcases outcome with error | _
  · cases error with
    | _ => exact absurd h List.not_mem_nil
  · exact absurd h List.not_mem_nil

theorem mem_callsIn_deliver {dispatch : DispatchNotifications} (hsound : Sound env.found)
    (hpending : s.pending = [])
    (hmatch : rowFacts.holds (env.found s.ops) (.alertMatch n.matchId))
    (hchannel : rowFacts.holds (env.found s.ops) (.channel n.channelId))
    {id : NotificationId} {target : String} {message : NotificationMessage} {op : Nat}
    {answer : Except PyError Unit}
    (h : (op, ⟨.send id target message, answer⟩) ∈ (dispatch.deliver n).callsIn env s) :
    ∃ m channel, op = m + 8 ∧ n.id = id ∧ channel.target = target ∧
      Informed env.found n m channel message := by
  rcases Txn.mem_callsIn_bind h with h | ⟨prepared, s₁, hprepared, h⟩
  · exact (Txn.callsIn_of_within (within_prepare n) _ h).elim
  · cases prepared with
    | none => cases h
    | some prepared =>
        obtain ⟨channel, written⟩ := prepared
        obtain ⟨hinformed, hops⟩ :=
          informed_of_prepare hsound hpending hmatch hchannel hprepared
        obtain ⟨rfl, rfl, rfl, rfl⟩ := mem_callsIn_sendAndMark h
        exact ⟨s.ops, channel, by omega, rfl, rfl, hinformed⟩

omit [PythonRuntime] [PersistenceRuntime] in
/-- After each delivery the dispatcher has nothing pending. -/
theorem pending_commitDelivery {counts counts' : Nat × Nat} {delivered : Bool}
    (h : (DispatchNotifications.commitDelivery counts delivered).runIn env s =
      (.ok counts', s')) : s'.pending = [] := by
  change (if Database.admits (env.found s.ops) s.pending then _ else _) = _ at h
  split at h
  · rw [← show _ = s' from congrArg Prod.snd h]
    split <;> rfl
  · cases h

/-- Each message of a dispatcher tells of a notification that it listed. -/
theorem tells_of_mem_callsIn {dispatch : DispatchNotifications} (hsound : Sound env.found)
    {i : Nat} {id : NotificationId} {target : String} {message : NotificationMessage}
    {op : Nat} {answer : Except PyError Unit}
    (h : (op, ⟨.send id target message, answer⟩) ∈ dispatch.run.callsIn env (.start i)) :
    ∃ m, op = m + 8 ∧ Tells env.found dispatch m id target message := by
  rcases Txn.mem_callsIn_bind (p := Txn.foldEach (NotificationRepository.listPending
    dispatch.batchSize (env.found 0)) (0, 0) dispatch.deliverOne)
      (s := (Session.start i).wrote []) h with h | ⟨counts, s₁, -, h⟩
  · obtain ⟨n, counts, s, hround, h⟩ := Txn.mem_callsIn_foldEach h
    have hn := hround.mem
    obtain ⟨before, after, -, hbefore⟩ := hround
    have hpending : s.pending = [] := by
      refine Txn.kept_of_foldEach (I := fun s => s.pending = []) ?_ hbefore rfl
      intro n _ counts s counts' s' hone _
      obtain ⟨delivered, s₁, -, hcommit⟩ := Txn.runIn_bind_eq_ok hone
      exact pending_commitDelivery hcommit
    have hgrows := hsound.grows 0 s.ops (Nat.zero_le _)
    obtain ⟨hmatch, hchannel⟩ := (hsound.linked 0).notified n (mem_listPending hn).1
    rcases Txn.mem_callsIn_bind h with h | ⟨delivered, s₁, -, h⟩
    · obtain ⟨m, channel, hop, hid, htarget, hinformed⟩ := mem_callsIn_deliver hsound
        hpending (hgrows (.alertMatch n.matchId) hmatch) (hgrows (.channel n.channelId) hchannel)
        h
      exact ⟨m, hop, n, hn, hid, channel, htarget, hinformed⟩
    · have hcommit : (DispatchNotifications.commitDelivery counts delivered).Within
          (fun _ _ => True) fun _ => False :=
        Txn.within_bind (Txn.within_commitOr _) fun _ => trivial
      exact (Txn.callsIn_of_within hcommit _ h).elim
  · cases h

end Dispatchers

/-! ## Sends of a run -/

section Runs

variable [PythonRuntime] [PersistenceRuntime]
  {oracle : Oracle ServiceCall ServiceAnswer}
  {fieldMap : String → List (String × String)} {db : Store}

/-- What party `i` meets in the run from `db`. -/
abbrev met (oracle : Oracle ServiceCall ServiceAnswer) (parties : Nat → Party) (db : Store)
    (schedule : List Nat) (i : Nat) : Surroundings Store ServiceCall ServiceAnswer :=
  Sys.meets oracle db (fun i => (parties i).program) schedule i

theorem sound_met (parties : Nat → Party)
    (hnormalizes : ∀ i op request, ServiceNormalizes fieldMap request (oracle i op request))
    (hidentified : Identified db) (hlinked : Linked db) (schedule : List Nat) (i : Nat) :
    Sound (met oracle parties db schedule i).found where
  grows := Facts.monotone_meets i
  linked := Sys.found_of_run (fun before _ => linked_run hlinked before) i
  identified :=
    Sys.found_of_run (fun before _ => identified_run hidentified hnormalizes before) i

/-- Only dispatchers send. -/
theorem exists_dispatcher {env : Surroundings Store ServiceCall ServiceAnswer} {i : Nat}
    {party : Party} {op : Nat} {id : NotificationId} {target : String}
    {message : NotificationMessage} {answer : ServiceAnswer (.inr (.send id target message))}
    (h : (op, ⟨.inr (.send id target message), answer⟩) ∈ party.program.callsIn env (.start i)) :
    ∃ dispatch, party = .dispatcher dispatch ∧
      (op, ⟨.send id target message, answer⟩) ∈
        dispatch.run.callsIn (env.via dispatchCalls) (.start i) := by
  cases party with
  | useCase useCase =>
      rcases Txn.mem_callsIn_bind h with h | ⟨_, _, -, h⟩
      · obtain ⟨request, answer', heq, -⟩ :=
          Txn.callsIn_via useCase.program (Session.like_start i) _ h
        cases heq
      · cases h
  | dispatcher dispatch =>
      refine ⟨dispatch, rfl, ?_⟩
      rcases Txn.mem_callsIn_bind h with h | ⟨_, _, -, h⟩
      · obtain ⟨request, answer', heq, hmem⟩ :=
          Txn.callsIn_via dispatch.run (Session.like_start i) _ h
        cases heq
        exact hmem
      · cases h
  | viewer userId limit =>
      rcases Txn.mem_callsIn_bind h with h | ⟨_, _, -, h⟩
      · exact (Txn.callsIn_of_within (within_listMatches userId limit) _ h).elim
      · cases h

/--
Whatever runs at once and in whatever order, a message is sent only by a dispatcher, of a
notification that was pending when it began, to the enabled channel of it, and it is made
of the name of the alert, the property that was matched and the address of one of its
listings, as the five operations that end three before the send read them; no message
falls back on a default name or lacks the link.
-/
theorem messages_are_informed (parties : Nat → Party)
    (oracle : Oracle ServiceCall ServiceAnswer)
    (hnormalizes : ∀ i op request, ServiceNormalizes fieldMap request (oracle i op request))
    (db : Store) (hidentified : Identified db) (hlinked : Linked db) (schedule : List Nat)
    (i : Nat) (id : NotificationId) (target : String) (message : NotificationMessage)
    (answer : ServiceAnswer (.inr (.send id target message)))
    (hsent : (i, ⟨.inr (.send id target message), answer⟩) ∈
      ((service parties db).run oracle schedule).log) :
    ∃ dispatch m, parties i = .dispatcher dispatch ∧
      (m + 8, ⟨.inr (.send id target message), answer⟩) ∈
        (parties i).program.callsIn (met oracle parties db schedule i) (.start i) ∧
      Tells (met oracle parties db schedule i).found dispatch m id target message := by
  obtain ⟨op, hcall⟩ := Sys.mem_callsIn_of_mem_log hsent
  obtain ⟨dispatch, hparty, hsend⟩ := exists_dispatcher hcall
  have hsound := sound_met parties hnormalizes hidentified hlinked schedule i
  obtain ⟨m, rfl, htells⟩ := tells_of_mem_callsIn hsound hsend
  exact ⟨dispatch, m, hparty, hcall, htells⟩

/-! ## A flat is found and told -/

def flatListing : RawListing :=
  ⟨"idealista", "1", "/inmueble/1/", 0,
    ((Dict.empty.set "titulo" (.str "Flat")).set "operacion" (.str "venta")).set "provincia"
      (.str "Pontevedra")⟩

def flatOracle : Oracle ServiceCall ServiceAnswer := fun _ _ request =>
  match request with
  | .inl .clock | .inl .utcNow | .inr .clock => (1 : Int)
  | .inl (.scraperForPortal _) | .inl (.normalizerForPortal _) => .ok ()
  | .inl (.fetch _) => .ok [flatListing]
  | .inl (.normalize portalSlug listing) =>
      @normalizers .plain (fun _ => Infrastructure.idealistaFieldMap) portalSlug listing
  | .inr (.rateLimit _) | .inr (.notifierForChannelType _) | .inr (.send _ _ _) => .ok ()

/-- The sales alert has a channel, and nothing was found yet. -/
def unsearchedStore : Store :=
  { Alerts.salesStore with channels := [⟨.given 9, .given 0, .telegram, "target", true⟩] }

def flatParties : Nat → Party
  | 0 => .useCase (.search salesCycle salesQuery)
  | 1 => .dispatcher dispatcher
  | _ => .viewer (.given 0) 20

omit [PythonRuntime] [PersistenceRuntime] in
theorem linked_unsearchedStore : Linked unsearchedStore :=
  ⟨.nil, List.forall_mem_nil _, List.forall_mem_nil _⟩

omit [PythonRuntime] [PersistenceRuntime] in
theorem normalizes_flatOracle (i op : Nat) (request : ServiceCall) :
    @ServiceNormalizes .plain (fun _ => Infrastructure.idealistaFieldMap) request
      (flatOracle i op request) := by
  rcases request with request | request
  · cases request <;> trivial
  · trivial

omit [PythonRuntime] [PersistenceRuntime] in
theorem messages_are_informed_flat :
    ∃ dispatch m, flatParties 1 = .dispatcher dispatch ∧
      (m + 8, ⟨.inr (.send (.uuid4 0 16 0) "target"
          ⟨"New match: Sales in Pontevedra", "Flat", some "/inmueble/1/"⟩), .ok ()⟩) ∈
        (@Party.program .plain .plain (flatParties 1)).callsIn (@met .plain .plain flatOracle
          flatParties unsearchedStore (List.replicate 19 0 ++ List.replicate 10 1) 1)
          (.start 1) ∧
      @Tells .plain .plain (@met .plain .plain flatOracle flatParties unsearchedStore
        (List.replicate 19 0 ++ List.replicate 10 1) 1).found dispatch m (.uuid4 0 16 0)
        "target" ⟨"New match: Sales in Pontevedra", "Flat", some "/inmueble/1/"⟩ :=
  @messages_are_informed .plain .plain (fun _ => Infrastructure.idealistaFieldMap)
    flatParties flatOracle normalizes_flatOracle unsearchedStore
    (@identified_of_nil .plain _ rfl rfl rfl rfl) linked_unsearchedStore _ 1 _ _ _ (.ok ())
    (List.mem_of_getElem? (i := 10) rfl)

end Runs

end RealEstateTracker.Service
