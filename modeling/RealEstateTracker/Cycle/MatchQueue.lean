import RealEstateTracker.Cycle.Footprints

/-!
# The matches and notifications of one worker

A worker inserts a match and at once a notification on every enabled channel of
the owner, all in one transaction.  The invariant says exactly that of its
pending writes.
-/

namespace RealEstateTracker.Cycle

open Foundation Domain Application Persistence

abbrev CycleRely := Rely Store CycleCall CycleAnswer

/-! ## Inserted rows -/

def insertedMatches (writes : List Write) : List MatchRow :=
  writes.filterMap fun
    | .insertMatch row => some row
    | _ => none

def insertedNotifications (writes : List Write) : List NotificationRow :=
  writes.filterMap fun
    | .insertNotification row => some row
    | _ => none

def pair (row : MatchRow) : AlertId × PropertyId := (row.alertId, row.propertyId)

def delivery (row : NotificationRow) : MatchId × ChannelId :=
  (row.matchId, row.channelId)

theorem insertedMatches_append (first second : List Write) :
    insertedMatches (first ++ second) =
      insertedMatches first ++ insertedMatches second :=
  List.filterMap_append

theorem insertedNotifications_append (first second : List Write) :
    insertedNotifications (first ++ second) =
      insertedNotifications first ++ insertedNotifications second :=
  List.filterMap_append

theorem alertMatches_eq (writes : List Write) (db : Store) :
    (applyAll writes db).alertMatches =
      db.alertMatches ++ insertedMatches writes := by
  induction writes generalizing db with
  | nil => simp [insertedMatches]
  | cons write writes ih =>
      rw [applyAll_cons, ih, ← List.singleton_append, insertedMatches_append,
        ← List.append_assoc]
      congr 1
      cases write <;> simp [apply_eq, Write.apply, insertedMatches]

def Appends : Write → Prop
  | .updateNotification _ _ => False
  | _ => True

theorem notifications_eq {writes : List Write} (h : ∀ w ∈ writes, Appends w)
    (db : Store) : (applyAll writes db).notifications =
      db.notifications ++ insertedNotifications writes := by
  induction writes generalizing db with
  | nil => simp [insertedNotifications]
  | cons write writes ih =>
      obtain ⟨hwrite, hwrites⟩ := List.forall_mem_cons.mp h
      rw [applyAll_cons, ih hwrites, ← List.singleton_append,
        insertedNotifications_append, ← List.append_assoc]
      congr 1
      cases write <;>
        first
        | exact hwrite.elim
        | simp [apply_eq, Write.apply, insertedNotifications]

theorem inserted_of_table {writes : List Write}
    (h : ∀ w ∈ writes, w.table ∉ matchTables) :
    insertedMatches writes = [] ∧ insertedNotifications writes = [] ∧
      ∀ w ∈ writes, Appends w := by
  have hone : ∀ w ∈ writes, insertedMatches [w] = [] ∧
      insertedNotifications [w] = [] ∧ Appends w := by
    intro w hw
    have hw := h w hw
    cases w <;>
      first
      | exact ⟨rfl, rfl, trivial⟩
      | exact absurd (List.contains_iff_mem.mp rfl) hw
  refine ⟨?_, ?_, fun w hw => (hone w hw).2.2⟩
  · refine List.filterMap_eq_nil_iff.mpr fun w hw => ?_
    have := (hone w hw).1
    simpa [insertedMatches] using this
  · refine List.filterMap_eq_nil_iff.mpr fun w hw => ?_
    have := (hone w hw).2.1
    simpa [insertedNotifications] using this

/-! ## The invariant -/

/--
The pending writes of a session insert the matches `found`, each under an
identifier of its own, and the notifications `keys`.
-/
structure Queue (s : CycleSession) (found : List MatchRow)
    (keys : List (MatchId × ChannelId)) : Prop where
  begun : s.since ≤ s.ops
  appends : ∀ w ∈ s.pending, Appends w
  matched : insertedMatches s.pending = found
  notified : (insertedNotifications s.pending).map delivery = keys
  unsent : ∀ n ∈ insertedNotifications s.pending, n.status = .pending
  drawn : ∀ m ∈ found, ∃ op, s.since ≤ op ∧ op < s.ops ∧
    m.id = .uuid4 s.txn op 0
  distinct : (found.map (·.id)).Nodup

section Steps

variable {s : CycleSession} {found : List MatchRow}
  {keys : List (MatchId × ChannelId)}

theorem Queue.start (i : Nat) : Queue (.start i) [] [] where
  begun := le_rfl
  appends := by simp
  matched := rfl
  notified := rfl
  unsent := by simp [insertedNotifications]
  drawn := by simp
  distinct := by simp

theorem Queue.answered (h : Queue s found keys) (request : CycleCall)
    (answer : CycleAnswer request) : Queue (s.answered request answer) found keys where
  begun := Nat.le_succ_of_le h.begun
  appends := h.appends
  matched := h.matched
  notified := h.notified
  unsent := h.unsent
  drawn m hm := by
    obtain ⟨op, hsince, hop, hid⟩ := h.drawn m hm
    exact ⟨op, hsince, Nat.lt_succ_of_lt hop, hid⟩
  distinct := h.distinct

theorem Queue.wrote (h : Queue s found keys) {writes : List Write}
    (hwrites : ∀ w ∈ writes, w.table ∉ matchTables) :
    Queue (s.wrote writes) found keys := by
  obtain ⟨hmatches, hnotifications, happends⟩ := inserted_of_table hwrites
  refine ⟨Nat.le_succ_of_le h.begun, ?_, ?_, ?_, ?_, ?_, h.distinct⟩
  · intro w hw
    exact (List.mem_append.mp hw).elim (h.appends w) (happends w)
  · rw [Session.pending_wrote, insertedMatches_append, hmatches,
      List.append_nil, h.matched]
  · rw [Session.pending_wrote, insertedNotifications_append, hnotifications,
      List.append_nil, h.notified]
  · rw [Session.pending_wrote, insertedNotifications_append, hnotifications,
      List.append_nil]
    exact h.unsent
  · intro m hm
    obtain ⟨op, hsince, hop, hid⟩ := h.drawn m hm
    exact ⟨op, hsince, Nat.lt_succ_of_lt hop, hid⟩

theorem Queue.wrote_nil (h : Queue s found keys) :
    Queue (s.wrote []) found keys :=
  h.wrote (by simp)

theorem Queue.insertMatch (h : Queue s found keys) (row : AlertMatch) :
    Queue (s.wrote [.insertMatch (MatchRepository.newRow row s.stamp)])
      (found ++ [MatchRepository.newRow row s.stamp]) keys where
  begun := Nat.le_succ_of_le h.begun
  appends w hw := by
    obtain hw | hw := List.mem_append.mp hw
    · exact h.appends w hw
    · rw [List.mem_singleton.mp hw]
      trivial
  matched := by
    rw [Session.pending_wrote, insertedMatches_append, h.matched]
    rfl
  notified := by
    rw [Session.pending_wrote, insertedNotifications_append, List.map_append,
      h.notified]
    exact List.append_nil _
  unsent n hn := by
    rw [Session.pending_wrote, insertedNotifications_append] at hn
    exact h.unsent n (by simpa [insertedNotifications] using hn)
  drawn m hm := by
    obtain hm | hm := List.mem_append.mp hm
    · obtain ⟨op, hsince, hop, hid⟩ := h.drawn m hm
      exact ⟨op, hsince, Nat.lt_succ_of_lt hop, hid⟩
    · rw [List.mem_singleton.mp hm]
      exact ⟨s.ops, h.begun, Nat.lt_succ_self _, rfl⟩
  distinct := by
    refine nodup_map_concat h.distinct fun m hm hid => ?_
    obtain ⟨op, -, hop, hdrawn⟩ := h.drawn m hm
    rw [hid] at hdrawn
    -- an earlier identifier was drawn in an earlier operation
    have := Uuid.uuid4.inj hdrawn
    simp only [Session.stamp_op] at this
    omega

theorem Queue.insertNotification (h : Queue s found keys) (matchId : MatchId)
    (channelId : ChannelId) (now : DateTime) :
    Queue (s.wrote [.insertNotification
        (NotificationRepository.newRow matchId channelId now s.stamp)])
      found (keys ++ [(matchId, channelId)]) where
  begun := Nat.le_succ_of_le h.begun
  appends w hw := by
    obtain hw | hw := List.mem_append.mp hw
    · exact h.appends w hw
    · rw [List.mem_singleton.mp hw]
      trivial
  matched := by
    rw [Session.pending_wrote, insertedMatches_append, h.matched]
    exact List.append_nil _
  notified := by
    rw [Session.pending_wrote, insertedNotifications_append, List.map_append,
      h.notified]
    rfl
  unsent n hn := by
    rw [Session.pending_wrote, insertedNotifications_append] at hn
    obtain hn | hn := List.mem_append.mp hn
    · exact h.unsent n hn
    · obtain rfl : n = NotificationRepository.newRow matchId channelId now
        s.stamp := by simpa [insertedNotifications] using hn
      rfl
  drawn m hm := by
    obtain ⟨op, hsince, hop, hid⟩ := h.drawn m hm
    exact ⟨op, hsince, Nat.lt_succ_of_lt hop, hid⟩
  distinct := h.distinct

theorem Queue.view_alertMatches (h : Queue s found keys) (db : Store) :
    (s.view db).alertMatches = db.alertMatches ++ found := by
  rw [Session.view, alertMatches_eq, h.matched]

theorem Queue.view_notifications (h : Queue s found keys) (db : Store) :
    (s.view db).notifications.map delivery =
      db.notifications.map delivery ++ keys := by
  rw [Session.view, notifications_eq h.appends, List.map_append, h.notified]

end Steps

end RealEstateTracker.Cycle
