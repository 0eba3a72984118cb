import RealEstateTracker.Domain.NotificationFormatter
import RealEstateTracker.Foundation.SerialRun
import RealEstateTracker.Persistence.AlertRepository
import RealEstateTracker.Persistence.NotificationRepositories
import RealEstateTracker.Persistence.SearchRepositories

/-!
# The dispatcher

One transaction lists the pending notifications, and each of them is delivered
in a transaction of its own: what is sent is marked only after it was sent, and
the status that was listed is not looked at again.
-/

namespace RealEstateTracker.Notifications

open Foundation Domain Persistence

/-! ## Collaborators -/

/--
What a dispatcher asks of the world.  A send names the notification that its
message belongs to; the notifier is only given the target and the message.
-/
inductive DispatchCall where
  | rateLimit (channelType : ChannelType)
  | notifierForChannelType (channelType : ChannelType)
  | clock
  | send (id : NotificationId) (target : String) (message : NotificationMessage)
  deriving DecidableEq

/-- Every collaborator but the clock may raise. -/
abbrev DispatchAnswer : DispatchCall → Type
  | .clock => DateTime
  | _ => Except PyError Unit

abbrev DispatchTxn (α : Type) :=
  Txn Store Write DispatchCall DispatchAnswer PyError α

abbrev DispatchSession := Session Write DispatchCall DispatchAnswer

def rateLimit (channelType : ChannelType) : DispatchTxn Unit :=
  .call (.rateLimit channelType) fun answer => .ofExcept answer

def notifierForChannelType (channelType : ChannelType) : DispatchTxn Unit :=
  .call (.notifierForChannelType channelType) fun answer => .ofExcept answer

/-! ## Dispatching -/

structure DispatchNotifications where
  maxAttempts : Nat
  batchSize : Nat

structure DispatchReport where
  notificationsPending : Nat
  sent : Nat
  failed : Nat
  deriving DecidableEq, Repr

namespace DispatchNotifications

section Reads

variable [PythonRuntime] [PersistenceRuntime]

def matchedProperty (notification : NotificationRow) :
    DispatchTxn (Option (MatchRow × Property)) := do
  let found ← Txn.query (MatchRepository.get notification.matchId)
  match found with
  | none => return none
  | some found => do
      let loaded ← Txn.query (PropertyRepository.get found.propertyId)
      let prop ← Txn.ofExcept loaded
      return prop.map fun prop => (found, prop)

def messageFor (found : MatchRow) (prop : Property) :
    DispatchTxn NotificationMessage := do
  let loaded ← Txn.query (AlertRepository.get found.alertId)
  let alert ← Txn.ofExcept loaded
  let url ← Txn.query (PortalListingRepository.getUrlForProperty prop.id)
  return formatMatchMessage ((alert.map (·.name)).getD "your alert") prop url

/-- What is to be sent, if the channel is enabled and the property still there. -/
def prepare (notification : NotificationRow) :
    DispatchTxn (Option (NotificationChannel × NotificationMessage)) := do
  let loaded ← Txn.query
    (NotificationChannelRepository.get notification.channelId)
  let channel ← Txn.ofExcept loaded
  match channel.filter (·.isEnabled) with
  | none => return none
  | some channel => do
      let matched ← matchedProperty notification
      match matched with
      | none => return none
      | some (found, prop) => do
          let message ← messageFor found prop
          return some (channel, message)

end Reads

/-- Only a `NotifierError` is caught. -/
def sendAndMark (dispatch : DispatchNotifications) (id : NotificationId)
    (channel : NotificationChannel) (message : NotificationMessage) :
    DispatchTxn Bool := do
  rateLimit channel.channelType
  notifierForChannelType channel.channelType
  let now ← (.call .clock .done : DispatchTxn DateTime)
  let outcome ← (.call (.send id channel.target message) .done :
    DispatchTxn (Except PyError Unit))
  match outcome with
  | .ok () => do
      Txn.exec fun _ => NotificationRepository.markSentWrites id now
      return true
  | .error (.notifierError error) => do
      Txn.exec fun _ =>
        NotificationRepository.markFailedWrites id error dispatch.maxAttempts
      return false
  | .error error => Txn.raise error

variable [PythonRuntime] [PersistenceRuntime]

/-- `_deliver`. -/
def deliver (dispatch : DispatchNotifications) (notification : NotificationRow) :
    DispatchTxn Bool := do
  let prepared ← prepare notification
  match prepared with
  | none => return false
  | some (channel, message) =>
      dispatch.sendAndMark notification.id channel message

/-- Commit, and count the delivery as sent or failed. -/
def commitDelivery (counts : Nat × Nat) (delivered : Bool) :
    DispatchTxn (Nat × Nat) := do
  Txn.commitOr .integrityError
  return if delivered then (counts.1 + 1, counts.2) else (counts.1, counts.2 + 1)

/-- One transaction of the loop, over the numbers sent and failed so far. -/
def deliverOne (dispatch : DispatchNotifications) (counts : Nat × Nat)
    (notification : NotificationRow) : DispatchTxn (Nat × Nat) := do
  let delivered ← dispatch.deliver notification
  commitDelivery counts delivered

def run (dispatch : DispatchNotifications) : DispatchTxn DispatchReport := do
  let pending ← Txn.query
    (NotificationRepository.listPending dispatch.batchSize)
  let counts ← Txn.foldEach pending (0, 0) dispatch.deliverOne
  return ⟨pending.length, counts.1, counts.2⟩

end DispatchNotifications

def enqueue (matchId : MatchId) (channelId : ChannelId) (now : DateTime) :
    DispatchTxn Unit := do
  Txn.exec (NotificationRepository.enqueueWrites matchId channelId now)
  Txn.commitOr .integrityError

end RealEstateTracker.Notifications
