import RealEstateTracker.Foundation.SerialRun
import RealEstateTracker.Persistence.NotificationRepositories

/-!
# Creating a channel

The target is encrypted before the row is merged.  Nothing but this writes to
the table of channels, so its writes are a type of their own.
-/

namespace RealEstateTracker.Persistence

open Foundation Domain

def ChannelRow.update (loaded model stored : ChannelRow) : ChannelRow where
  id := stored.id
  userId := column loaded.userId model.userId stored.userId
  channelType := column loaded.channelType model.channelType stored.channelType
  encrypted := column loaded.encrypted model.encrypted stored.encrypted
  isEnabled := column loaded.isEnabled model.isEnabled stored.isEnabled

inductive ChannelWrite where
  | insertChannel (row : ChannelRow)
  | updateChannel (loaded model : ChannelRow)

namespace ChannelWrite

def apply (write : ChannelWrite) (db : Store) : Store :=
  match write with
  | insertChannel row => { db with channels := db.channels ++ [row] }
  | updateChannel loaded model =>
      { db with
        channels := updateWhere (·.id = model.id) (ChannelRow.update loaded model)
          db.channels }

def admitted (write : ChannelWrite) (db : Store) : Bool :=
  match write with
  | insertChannel row =>
      !db.channels.any (·.id = row.id) && db.users.contains row.userId
  | updateChannel _ model => db.users.contains model.userId

def admitsAll (db : Store) : List ChannelWrite → Bool
  | [] => true
  | write :: writes => write.admitted db && admitsAll (write.apply db) writes

end ChannelWrite

instance : Database Store ChannelWrite where
  apply := ChannelWrite.apply
  admits := ChannelWrite.admitsAll

/-- Encryption draws a new initial vector each time, so it is asked for. -/
inductive ChannelCall where
  | encryptTarget (target : String)
  deriving DecidableEq

abbrev ChannelAnswer : ChannelCall → Type
  | .encryptTarget _ => Except PyError String

abbrev ChannelTxn (α : Type) :=
  Txn Store ChannelWrite ChannelCall ChannelAnswer PyError α

namespace NotificationChannelRepository

def toModel (channel : NotificationChannel) (encrypted : String) : ChannelRow where
  id := channel.id
  userId := channel.userId
  channelType := channel.channelType
  encrypted := encrypted
  isEnabled := channel.isEnabled

def rowWrite (model : ChannelRow) (db : Store) : ChannelWrite :=
  match db.channels.find? (·.id = model.id) with
  | none => .insertChannel model
  | some loaded => .updateChannel loaded model

def add (channel : NotificationChannel) : ChannelTxn Unit := do
  let answer ← (.call (.encryptTarget channel.target) .done :
    ChannelTxn (Except PyError String))
  let encrypted ← Txn.ofExcept answer
  Txn.exec fun _ db => [rowWrite (toModel channel encrypted) db]

end NotificationChannelRepository

end RealEstateTracker.Persistence

namespace RealEstateTracker.Notifications

open Foundation Domain Persistence

/-- The use case; `id` is the identifier that it draws. -/
def CreateChannel.run (id : ChannelId) (userId : UserId)
    (channelType : ChannelType) (target : String) :
    ChannelTxn NotificationChannel := do
  let channel : NotificationChannel := ⟨id, userId, channelType, target, true⟩
  NotificationChannelRepository.add channel
  Txn.commitOr .integrityError
  return channel

theorem store_createChannel {id : ChannelId} {userId : UserId}
    {channelType : ChannelType} {target : String} {db : Store}
    (hid : ∀ row ∈ db.channels, row.id ≠ id)
    (answers : Nat → (request : ChannelCall) → ChannelAnswer request) (txn : Nat) :
    let db' := ((CreateChannel.run id userId channelType target).eval answers
      (.start txn) db).store
    db' = db ∨ ∃ row : ChannelRow, row.id = id ∧ row.userId = userId ∧
      db' = { db with channels := db.channels ++ [row] } := by
  simp only [CreateChannel.run, NotificationChannelRepository.add, Txn.bind_eq,
    Txn.bind, Txn.eval]
  cases answers _ (.encryptTarget target) with
  | error error => exact .inl rfl
  | ok encrypted =>
      let row : ChannelRow := ⟨id, userId, channelType, encrypted, true⟩
      have hwrite : NotificationChannelRepository.rowWrite row db =
          .insertChannel row := by
        have hnone : db.channels.find? (·.id = row.id) = none := by simpa using hid
        rw [NotificationChannelRepository.rowWrite, hnone]
      have happly : ChannelWrite.apply
          (NotificationChannelRepository.rowWrite row db) db =
            { db with channels := db.channels ++ [row] } := by
        rw [hwrite]
        rfl
      simp only [Txn.ofExcept, Txn.exec, Txn.bind, Txn.eval, Txn.commitOr]
      split
      · exact .inr ⟨row, rfl, rfl, happly⟩
      · exact .inl rfl

end RealEstateTracker.Notifications
