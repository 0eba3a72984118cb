import RealEstateTracker.Persistence.PropertyRepository

/-!
# Matches, channels and the notification outbox

Matches and notifications are inserted after a look for the row they would
repeat.  The database enforces that a pair of an alert and a property matches
once; nothing in the schema makes notifications unique.
-/

namespace RealEstateTracker.Persistence

open Foundation Domain

/-! ## Matches -/

namespace MatchRepository

def find (alertId : AlertId) (propertyId : PropertyId) (db : Store) :
    Option MatchRow :=
  db.alertMatches.find? fun row =>
    row.alertId = alertId ∧ row.propertyId = propertyId

def newRow (found : AlertMatch) (stamp : Stamp) : MatchRow where
  id := Uuid.drawn stamp 0
  alertId := found.alertId
  propertyId := found.propertyId
  matchedAt := found.matchedAt
  status := .new

def addIfNewWrites (found : AlertMatch) (stamp : Stamp) (db : Store) :
    List Write :=
  match find found.alertId found.propertyId db with
  | some _ => []
  | none => [.insertMatch (newRow found stamp)]

/-- The identifier of the inserted row, or nothing if the match was known. -/
def addIfNew {C : Type} {R : C → Type} (found : AlertMatch) :
    Txn Store Write C R PyError (Option MatchId) :=
  .stmt (addIfNewWrites found) fun stamp db =>
    match find found.alertId found.propertyId db with
    | some _ => .done none
    | none => .done (some (newRow found stamp).id)

def get (id : MatchId) (db : Store) : Option MatchRow :=
  db.alertMatches.find? (·.id = id)

end MatchRepository

/-! ## Channels -/

structure NotificationChannel where
  id : ChannelId
  userId : UserId
  channelType : ChannelType
  target : String
  isEnabled : Bool
  deriving DecidableEq, Repr

namespace NotificationChannelRepository

variable [runtime : PersistenceRuntime]

/-- Reading a channel decrypts its target, which may raise. -/
def toDomain (row : ChannelRow) : Except PyError NotificationChannel := do
  let target ← runtime.decryptTarget row.encrypted
  return ⟨row.id, row.userId, row.channelType, target, row.isEnabled⟩

def get (id : ChannelId) (db : Store) :
    Except PyError (Option NotificationChannel) :=
  match db.channels.find? (·.id = id) with
  | none => .ok none
  | some row => (toDomain row).map some

omit runtime in
def enabledRows (userId : UserId) (db : Store) : List ChannelRow :=
  db.channels.filter fun row => row.userId = userId ∧ row.isEnabled

def listEnabledForUser (userId : UserId) (db : Store) :
    Except PyError (List NotificationChannel) :=
  (enabledRows userId db).mapM toDomain

theorem toDomain_eq_ok {row : ChannelRow} {channel : NotificationChannel} :
    toDomain row = .ok channel ↔ ∃ target,
      runtime.decryptTarget row.encrypted = .ok target ∧
        channel = ⟨row.id, row.userId, row.channelType, target, row.isEnabled⟩ := by
  rw [toDomain, bind_eq_ok]
  refine exists_congr fun target => and_congr_right fun _ => ?_
  rw [pure_eq_ok, eq_comm]

theorem get_eq_ok {id : ChannelId} {db : Store} {found : Option NotificationChannel}
    (h : get id db = .ok found) :
    (db.channels.find? (·.id = id) = none ∧ found = none) ∨
      ∃ row channel, db.channels.find? (·.id = id) = some row ∧
        toDomain row = .ok channel ∧ found = some channel := by
  unfold get at h
  cases hfind : db.channels.find? (·.id = id) with
  | none =>
      rw [hfind] at h
      exact .inl ⟨rfl, (Except.ok.inj h).symm⟩
  | some row =>
      rw [hfind] at h
      cases hread : toDomain row with
      | error error => simp [hread, Except.map] at h
      | ok channel =>
          simp only [hread, Except.map] at h
          exact .inr ⟨row, channel, rfl, hread, (Except.ok.inj h).symm⟩

end NotificationChannelRepository

/-! ## Notifications -/

namespace NotificationRepository

def find (matchId : MatchId) (channelId : ChannelId) (db : Store) :
    Option NotificationRow :=
  db.notifications.find? fun row =>
    row.matchId = matchId ∧ row.channelId = channelId

def newRow (matchId : MatchId) (channelId : ChannelId) (now : DateTime)
    (stamp : Stamp) : NotificationRow where
  id := Uuid.drawn stamp 0
  matchId := matchId
  channelId := channelId
  status := .pending
  attempts := 0
  lastError := none
  createdAt := now
  sentAt := none

def enqueueWrites (matchId : MatchId) (channelId : ChannelId) (now : DateTime)
    (stamp : Stamp) (db : Store) : List Write :=
  match find matchId channelId db with
  | some _ => []
  | none => [.insertNotification (newRow matchId channelId now stamp)]

/-- The oldest pending rows, rows of one age in the order of the table. -/
def listPending (limit : Nat) (db : Store) : List NotificationRow :=
  ((db.notifications.filter (·.status = .pending)).insertionSort
    fun a b => a.createdAt ≤ b.createdAt).take limit

def load (id : NotificationId) (db : Store) : Option NotificationRow :=
  db.notifications.find? (·.id = id)

def changeWrites (change : NotificationRow → NotificationRow)
    (id : NotificationId) (db : Store) : List Write :=
  match load id db with
  | none => []
  | some row => [.updateNotification row (change row)]

def sent (sentAt : DateTime) (row : NotificationRow) : NotificationRow :=
  { row with status := .sent, sentAt := some sentAt }

def attempted (error : String) (maxAttempts : Nat) (row : NotificationRow) :
    NotificationRow :=
  { row with
    attempts := row.attempts + 1
    lastError := some error
    status := if maxAttempts ≤ row.attempts + 1 then .failed else row.status }

/-- `mark_sent`. -/
def markSentWrites (id : NotificationId) (sentAt : DateTime) (db : Store) :
    List Write :=
  changeWrites (sent sentAt) id db

/-- `mark_failed`. -/
def markFailedWrites (id : NotificationId) (error : String) (maxAttempts : Nat)
    (db : Store) : List Write :=
  changeWrites (attempted error maxAttempts) id db

end NotificationRepository

end RealEstateTracker.Persistence
