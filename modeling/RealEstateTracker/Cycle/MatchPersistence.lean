import RealEstateTracker.Cycle.Footprints
import RealEstateTracker.Cycle.MatchQueue

/-!
# Persisting matches

`evaluateAndPersist` inserts a match for every candidate that satisfies one of
the alerts and is not matched yet, and with each match the notifications of the
enabled channels of the owner, once each.
-/

namespace RealEstateTracker.Cycle

open Foundation Domain Application Persistence

structure Knows (base db : Store) (txn since : Nat) : Prop where
  channels : db.channels = base.channels
  fresh : ∀ n ∈ db.notifications, ∀ op, since ≤ op → n.matchId ≠ .uuid4 txn op 0

def target (found : AlertMatch) : AlertId × PropertyId :=
  (found.alertId, found.propertyId)

def channelKeys (base : Store) (matchId : MatchId) (userId : UserId) :
    List (MatchId × ChannelId) :=
  (NotificationChannelRepository.enabledRows userId base).map fun channel =>
    (matchId, channel.id)

/-- The matches that a session has inserted, each with the owner of its alert. -/
abbrev OwnedMatches := List (MatchRow × UserId)

def owedKeys (base : Store) (owned : OwnedMatches) : List (MatchId × ChannelId) :=
  owned.flatMap fun x => channelKeys base x.1.id x.2

def pairs (owned : OwnedMatches) : List (AlertId × PropertyId) :=
  owned.map fun x => pair x.1

/--
What the session of transaction `txn` has pending since its operation `since`:
the matches `owned` of pairs that it did not see matched, and the notifications
that they are owed.
-/
structure Owned (rely : CycleRely) (base : Store) (txn since : Nat)
    (s : CycleSession) (owned : OwnedMatches) : Prop where
  txn_eq : s.txn = txn
  since_eq : s.since = since
  queue : Queue s (owned.map (·.1)) (owedKeys base owned)
  once : (pairs owned).Nodup
  unseen : ∀ x ∈ owned, ∃ db, rely.store db txn since ∧
    pair x.1 ∉ db.alertMatches.map pair

def Seen (rely : CycleRely) (txn since : Nat) (owned : OwnedMatches)
    (key : AlertId × PropertyId) : Prop :=
  key ∈ pairs owned ∨
    ∃ db, rely.store db txn since ∧ key ∈ db.alertMatches.map pair

theorem Seen.append {rely : CycleRely} {txn since : Nat} {owned : OwnedMatches}
    {key : AlertId × PropertyId} (h : Seen rely txn since owned key)
    (added : OwnedMatches) : Seen rely txn since (owned ++ added) key :=
  h.imp_left fun hkey => by
    rw [pairs, List.map_append]
    exact List.mem_append_left _ hkey

section Sessions

variable {rely : CycleRely} {base : Store} {txn since : Nat} {s : CycleSession}
  {owned : OwnedMatches}

theorem Owned.start (rely : CycleRely) (base : Store) (i : Nat) :
    Owned rely base i 0 (.start i) [] where
  txn_eq := rfl
  since_eq := rfl
  queue := .start i
  once := List.nodup_nil
  unseen := by simp

theorem Owned.answered (h : Owned rely base txn since s owned)
    (request : CycleCall) (answer : CycleAnswer request) :
    Owned rely base txn since (s.answered request answer) owned :=
  ⟨h.txn_eq, h.since_eq, h.queue.answered request answer, h.once, h.unseen⟩

theorem Owned.wrote (h : Owned rely base txn since s owned)
    {writes : List Write} (hwrites : ∀ w ∈ writes, w.table ∉ matchTables) :
    Owned rely base txn since (s.wrote writes) owned :=
  ⟨h.txn_eq, h.since_eq, h.queue.wrote hwrites, h.once, h.unseen⟩

end Sessions

theorem wp_owned_of_only {rely : CycleRely} {ready : CycleSession → Prop}
    {base : Store} {txn since : Nat} {s : CycleSession} {owned : OwnedMatches}
    {tables : List Table} (hdisjoint : ∀ table ∈ tables, table ∉ matchTables)
    {α : Type} {p : CycleTxn α} (hp : p.Only (InTables tables))
    (h : Owned rely base txn since s owned) :
    Txn.wp rely ready p (fun _ s => Owned rely base txn since s owned) s :=
  Txn.wp_of_only (fun _ _ hwrites h => h.wrote (AllIn.not_mem hwrites hdisjoint))
    (fun _ request answer h => h.answered request answer) hp h

/-! ## Channels -/

section Channels

variable [PersistenceRuntime]

omit [PersistenceRuntime] in
theorem enabledRows_congr {db base : Store} (h : db.channels = base.channels)
    (userId : UserId) :
    NotificationChannelRepository.enabledRows userId db =
      NotificationChannelRepository.enabledRows userId base := by
  rw [NotificationChannelRepository.enabledRows, h]
  rfl

omit [PersistenceRuntime] in
theorem nodup_enabledRows {base : Store}
    (h : (base.channels.map (·.id)).Nodup) (userId : UserId) :
    ((NotificationChannelRepository.enabledRows userId base).map (·.id)).Nodup :=
  h.sublist (List.filter_sublist.map _)

theorem ids_mapM_toDomain {rows : List ChannelRow}
    {channels : List NotificationChannel}
    (h : rows.mapM NotificationChannelRepository.toDomain = .ok channels) :
    channels.map (·.id) = rows.map (·.id) := by
  refine map_of_mapM_eq_ok (fun row channel hchannel => ?_) h
  obtain ⟨target, -, hchannel⟩ := bind_eq_ok.mp hchannel
  obtain rfl := pure_eq_ok.mp hchannel
  rfl

end Channels

/-! ## One match -/

section Loops

variable [PythonRuntime] [PersistenceRuntime] {rely : CycleRely}
  {ready : CycleSession → Prop} {base : Store} {txn since : Nat}

omit [PythonRuntime] [PersistenceRuntime] in
theorem find_notification_eq_none {s : CycleSession} {found : List MatchRow}
    {keys : List (MatchId × ChannelId)} {db : Store} {op : Nat}
    {channelId : ChannelId} (hqueue : Queue s found keys)
    (hknows : Knows base db s.txn s.since) (hop : s.since ≤ op)
    (hkey : (Uuid.uuid4 s.txn op 0, channelId) ∉ keys) :
    NotificationRepository.find (.uuid4 s.txn op 0) channelId (s.view db) =
      none := by
  refine List.find?_eq_none.mpr fun n hn heq => ?_
  obtain ⟨hmatch, hchannel⟩ :
      n.matchId = .uuid4 s.txn op 0 ∧ n.channelId = channelId := by
    simpa using heq
  have hmem : (Uuid.uuid4 s.txn op 0, channelId) ∈
      (s.view db).notifications.map delivery :=
    List.mem_map.mpr ⟨n, hn, by rw [delivery, hmatch, hchannel]⟩
  rw [hqueue.view_notifications, List.mem_append] at hmem
  obtain hmem | hmem := hmem
  · obtain ⟨stored, hstored, hdelivery⟩ := List.mem_map.mp hmem
    exact hknows.fresh stored hstored op hop (congrArg Prod.fst hdelivery)
  · exact hkey hmem

omit [PythonRuntime] [PersistenceRuntime] in
theorem wp_enqueue
    (hknows : ∀ db, rely.store db txn since → Knows base db txn since)
    {channels : List NotificationChannel} (hnodup : (channels.map (·.id)).Nodup)
    {now : DateTime} {op : Nat} (hop : since ≤ op) {found : List MatchRow}
    {keys : List (MatchId × ChannelId)}
    (hkeys : ∀ channelId, (Uuid.uuid4 txn op 0, channelId) ∉ keys)
    {s : CycleSession} (htxn : s.txn = txn) (hsince : s.since = since)
    (h : Queue s found keys) :
    Txn.wp rely ready (Txn.forEach channels fun channel => Txn.exec
        (NotificationRepository.enqueueWrites (.uuid4 txn op 0) channel.id now) :
          CycleTxn Unit)
      (Txn.onOk fun _ s => s.txn = txn ∧ s.since = since ∧
        Queue s found (keys ++ channels.map fun channel =>
          (Uuid.uuid4 txn op 0, channel.id))) s := by
  refine Txn.wp_ends_forEach (fun before s => s.txn = txn ∧ s.since = since ∧
      Queue s found (keys ++ before.map fun channel =>
        (Uuid.uuid4 txn op 0, channel.id))) ?_ (fun _ h => h)
    ⟨htxn, hsince, by simpa using h⟩
  rintro before channel after s rfl ⟨rfl, rfl, hqueue⟩
  refine (Txn.wp_exec _).mpr fun db hdb => ?_
  have hnew : (Uuid.uuid4 s.txn op 0, channel.id) ∉
      keys ++ before.map fun channel => (Uuid.uuid4 s.txn op 0, channel.id) := by
    rw [List.mem_append, not_or]
    refine ⟨hkeys channel.id, fun hmem => ?_⟩
    obtain ⟨earlier, hearlier, heq⟩ := List.mem_map.mp hmem
    rw [List.map_append, List.map_cons, List.nodup_append] at hnodup
    exact hnodup.2.2 earlier.id (List.mem_map_of_mem hearlier) channel.id
      (.head _) (congrArg Prod.snd heq)
  rw [NotificationRepository.enqueueWrites,
    find_notification_eq_none hqueue (hknows db hdb) hop hnew]
  refine ⟨rfl, rfl, ?_⟩
  rw [List.map_append, ← List.append_assoc]
  exact hqueue.insertNotification (.uuid4 s.txn op 0) channel.id now

omit [PythonRuntime] in
theorem wp_persistMatch
    (hknows : ∀ db, rely.store db txn since → Knows base db txn since)
    (hchannels : (base.channels.map (·.id)).Nodup) (userId : UserId)
    (now : DateTime) (found : AlertMatch) {s : CycleSession}
    {owned : OwnedMatches} (h : Owned rely base txn since s owned) :
    Txn.wp rely ready
      (RunAlertCycle.persistMatch userId now owned.length found)
      (Txn.onOk fun created s => ∃ added : OwnedMatches,
        created = (owned ++ added).length ∧
        Owned rely base txn since s (owned ++ added) ∧
        (∀ x ∈ added, x.2 = userId ∧ pair x.1 = target found) ∧
        Seen rely txn since (owned ++ added) (target found)) s := by
  obtain ⟨rfl, rfl, hqueue, honce, hunseen⟩ := h
  intro db hdb
  have hview := hqueue.view_alertMatches db
  cases hfind : MatchRepository.find found.alertId found.propertyId
      (s.view db) with
  | some row =>
      -- the pair is in the view: nothing is inserted
      have hmem : target found ∈ (s.view db).alertMatches.map pair := by
        obtain ⟨halert, hproperty⟩ :
            row.alertId = found.alertId ∧ row.propertyId = found.propertyId := by
          simpa using List.find?_some hfind
        exact List.mem_map.mpr ⟨row, List.mem_of_find?_eq_some hfind, by
          rw [pair, target, halert, hproperty]⟩
      simp only [MatchRepository.addIfNewWrites, hfind]
      refine ⟨[], by simp, ?_, by simp, ?_⟩
      · rw [List.append_nil]
        exact ⟨rfl, rfl, hqueue.wrote_nil, honce, hunseen⟩
      · rw [List.append_nil]
        rw [hview, List.map_append, List.mem_append, List.map_map] at hmem
        exact hmem.symm.imp_right fun hmem => ⟨db, hdb, hmem⟩
  | none =>
      have hnew : target found ∉ (s.view db).alertMatches.map pair := by
        intro hmem
        obtain ⟨row, hrow, heq⟩ := List.mem_map.mp hmem
        refine List.find?_eq_none.mp hfind row hrow ?_
        simpa [pair, target] using heq
      rw [hview, List.map_append, List.mem_append, List.map_map, not_or] at hnew
      simp only [MatchRepository.addIfNewWrites, hfind]
      set row := MatchRepository.newRow found s.stamp with hrow
      have hqueue' := (hqueue.insertMatch found).wrote_nil
      refine Txn.wp_ends_bind (P := fun listed s' =>
        listed = NotificationChannelRepository.listEnabledForUser userId base ∧
          s' = (s.wrote [.insertMatch row]).wrote []) ?_ ?_
      · refine (Txn.wp_query _).mpr fun db' hdb' => ⟨?_, rfl⟩
        have hbase : ((s.wrote [.insertMatch row]).view db').channels =
            base.channels :=
          (channels_applyAll _ _).trans (hknows db' hdb').channels
        rw [NotificationChannelRepository.listEnabledForUser,
          enabledRows_congr hbase]
        rfl
      rintro _ _ ⟨rfl, rfl⟩
      refine Txn.wp_ends_bind (P := fun channels s' =>
        channels.map (·.id) = (NotificationChannelRepository.enabledRows userId
            base).map (·.id) ∧ s' = (s.wrote [.insertMatch row]).wrote [])
        (Txn.wp_onOk_ofExcept fun channels hlisted =>
          ⟨ids_mapM_toDomain hlisted, rfl⟩) ?_
      rintro channels _ ⟨hids, rfl⟩
      have hids' : (channels.map fun channel => (row.id, channel.id)) =
          channelKeys base row.id userId := by
        have := congrArg (List.map fun id => (row.id, id)) hids
        rw [List.map_map, List.map_map] at this
        exact this
      have hnodup : (channels.map (·.id)).Nodup := by
        rw [hids]
        exact nodup_enabledRows hchannels userId
      have hkeys : ∀ channelId, (Uuid.uuid4 s.txn s.ops 0, channelId) ∉
          owedKeys base owned := fun channelId hmem => by
        obtain ⟨x, hx, hkey⟩ := List.mem_flatMap.mp hmem
        obtain ⟨channel, -, heq⟩ := List.mem_map.mp hkey
        obtain ⟨op, -, hop, hid⟩ := hqueue.drawn x.1 (List.mem_map_of_mem hx)
        have hsame := (congrArg Prod.fst heq).symm.trans hid
        -- every earlier identifier was drawn in an earlier operation
        exact absurd (Uuid.uuid4.inj hsame).2.1 (Nat.ne_of_gt hop)
      refine Txn.wp_ends_bind (wp_enqueue hknows hnodup hqueue.begun hkeys rfl
        rfl hqueue') ?_
      rintro _ s' ⟨htxn, hsince, hqueue'⟩
      refine ⟨[(row, userId)], by simp, ⟨htxn, hsince, ?_, ?_, ?_⟩, ?_, ?_⟩
      · have howed : owedKeys base (owned ++ [(row, userId)]) =
            owedKeys base owned ++ channelKeys base row.id userId := by
          simp [owedKeys]
        rw [List.map_append, howed, ← hids']
        exact hqueue'
      · exact nodup_map_concat honce fun x hx heq =>
          hnew.2 (List.mem_map.mpr ⟨x, hx, heq⟩)
      · intro x hx
        obtain hx | hx := List.mem_append.mp hx
        · exact hunseen x hx
        · rw [List.mem_singleton.mp hx]
          exact ⟨db, hdb, hnew.1⟩
      · intro x hx
        rw [List.mem_singleton.mp hx]
        exact ⟨rfl, rfl⟩
      · refine .inl ?_
        rw [pairs, List.map_append]
        exact List.mem_append_right _ (.head _)

/-! ## All alerts of a query -/

omit [PythonRuntime] in
theorem wp_persistFound
    (hknows : ∀ db, rely.store db txn since → Knows base db txn since)
    (hchannels : (base.channels.map (·.id)).Nodup) (userId : UserId)
    (now : DateTime) (found : List AlertMatch) {s : CycleSession}
    {owned : OwnedMatches} (h : Owned rely base txn since s owned) :
    Txn.wp rely ready
      (Txn.foldEach found owned.length (RunAlertCycle.persistMatch userId now))
      (Txn.onOk fun created s => ∃ added : OwnedMatches,
        created = (owned ++ added).length ∧
        Owned rely base txn since s (owned ++ added) ∧
        (∀ x ∈ added, x.2 = userId ∧ ∃ m ∈ found, pair x.1 = target m) ∧
        ∀ m ∈ found, Seen rely txn since (owned ++ added) (target m)) s := by
  refine Txn.wp_ends_foldEach (fun before created s => ∃ added : OwnedMatches,
      created = (owned ++ added).length ∧
      Owned rely base txn since s (owned ++ added) ∧
      (∀ x ∈ added, x.2 = userId ∧ ∃ m ∈ before, pair x.1 = target m) ∧
      ∀ m ∈ before, Seen rely txn since (owned ++ added) (target m))
    ?_ (fun _ _ h => h) ⟨[], by simp, by simpa using h, by simp, by simp⟩
  rintro before m after _ s - ⟨added, rfl, howned, hadded, hseen⟩
  refine Txn.wp_mono _ ?_
    (wp_persistMatch hknows hchannels userId now m howned)
  rintro (error | created) s' hpost
  · trivial
  obtain ⟨more, rfl, howned', hmore, hseenMore⟩ := hpost
  refine ⟨added ++ more, by rw [List.append_assoc],
    by rw [← List.append_assoc]; exact howned', ?_, ?_⟩
  · intro x hx
    obtain hx | hx := List.mem_append.mp hx
    · obtain ⟨hown, m', hm', hpair⟩ := hadded x hx
      exact ⟨hown, m', List.mem_append_left _ hm', hpair⟩
    · exact ⟨(hmore x hx).1, m, by simp, (hmore x hx).2⟩
  · intro m' hm'
    rw [← List.append_assoc]
    obtain hm' | hm' := List.mem_append.mp hm'
    · exact (hseen m' hm').append more
    · rw [List.mem_singleton.mp hm']
      exact hseenMore

/--
What persisting the matches of some alerts has recorded: every new match is one
of an alert and of a candidate that satisfies it, and every such pair is matched.
-/
structure Recorded (rely : CycleRely) (registry : FieldRegistry)
    (candidates : List Property) (alerts : List SearchAlert) (txn since : Nat)
    (owned : OwnedMatches) : Prop where
  sound : ∀ x ∈ owned, ∃ alert ∈ alerts, x.2 = alert.userId ∧
    ∃ p ∈ candidates, AlertEngine.Satisfies registry p alert ∧
      pair x.1 = (alert.id, p.id)
  complete : ∀ alert ∈ alerts, ∀ p ∈ candidates,
    AlertEngine.Satisfies registry p alert →
      Seen rely txn since owned (alert.id, p.id)

theorem wp_evaluateAndPersist
    (hknows : ∀ db, rely.store db txn since → Knows base db txn since)
    (hchannels : (base.channels.map (·.id)).Nodup) (cycle : RunAlertCycle)
    (alerts : List SearchAlert) (candidates : List Property) (now : DateTime)
    {s : CycleSession} (h : Owned rely base txn since s []) :
    Txn.wp rely ready (cycle.evaluateAndPersist alerts candidates now)
      (Txn.onOk fun created s => ∃ owned : OwnedMatches,
        created = owned.length ∧ Owned rely base txn since s owned ∧
        Recorded rely cycle.registry candidates alerts txn since owned) s := by
  refine Txn.wp_ends_foldEach (fun before created s => ∃ owned : OwnedMatches,
      created = owned.length ∧ Owned rely base txn since s owned ∧
      Recorded rely cycle.registry candidates before txn since owned)
    ?_ (fun _ _ h => h) ⟨[], rfl, h, ⟨by simp, by simp⟩⟩
  rintro before alert after _ s - ⟨owned, rfl, howned, hrecorded⟩
  refine Txn.wp_ends_bind (P := fun found s' =>
      AlertEngine.evaluate cycle.registry alert candidates now = .ok found ∧
        s' = s) (Txn.wp_onOk_ofExcept fun found hfound => ⟨hfound, rfl⟩) ?_
  rintro found _ ⟨hfound, rfl⟩
  have hmem := AlertEngine.mem_evaluate hfound
  refine Txn.wp_ends_bind
    (wp_persistFound hknows hchannels alert.userId now found howned) ?_
  rintro _ s' ⟨added, rfl, howned', hadded, hseen⟩
  intro db hdb
  refine ⟨owned ++ added, rfl, howned'.wrote ?_, ?_, ?_⟩
  · exact (allIn_addWrites_alert _ _ _).not_mem (by decide)
  · intro x hx
    obtain hx | hx := List.mem_append.mp hx
    · obtain ⟨alert', halert', hrest⟩ := hrecorded.sound x hx
      exact ⟨alert', List.mem_append_left _ halert', hrest⟩
    · obtain ⟨hown, m, hm, hpair⟩ := hadded x hx
      obtain ⟨p, hp, hsatisfied, rfl⟩ := (hmem m).mp hm
      exact ⟨alert, by simp, hown, p, hp, hsatisfied, hpair⟩
  · intro alert' halert' p hp hsatisfied
    obtain halert' | halert' := List.mem_append.mp halert'
    · exact (hrecorded.complete alert' halert' p hp hsatisfied).append added
    · obtain rfl := List.mem_singleton.mp halert'
      exact hseen _ ((hmem ⟨alert'.id, p.id, now⟩).mpr ⟨p, hp, hsatisfied, rfl⟩)

end Loops

end RealEstateTracker.Cycle
