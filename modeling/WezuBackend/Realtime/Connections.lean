import Mathlib.Data.List.Dedup
import Mathlib.Data.List.ReduceOption
import WezuBackend.Core.Letters
import WezuBackend.Lib.Results
import WezuBackend.Lib.Runs

/-!
# Live subscriptions

`ConnectionManager` of `app/services/websocket_service.py`: the connections of each user, and for
each battery, order and inventory location the users who have subscribed to it.  A broadcast sends
to all connections of the subscribers, and disconnects those whose send fails.

A `disconnect` of one connection removes all subscriptions of its user, also where other connections
of the user remain; and the battery broadcasts iterate over the very set that the disconnect
changes.  Subscriptions are live exactly as long as neither happens, and nobody subscribes without a
connection (`live_iff`).
-/

namespace WezuBackend.Realtime.Connections

open Core.Base Core.Letters Core.Text Lib.Results Lib.Runs

/-! ## The manager -/

/-- A set is a list in any order, and a missing key an empty set: the manager deletes the key of a
set that becomes empty. -/
structure ConnectionManager where
  activeConnections : ℕ → List ℕ := fun _ => []
  batterySubscriptions : ℤ → List ℕ := fun _ => []
  orderSubscriptions : String → List ℕ := fun _ => []
  inventorySubscriptions : String → List ℕ := fun _ => []

section

variable {κ : Type} [DecidableEq κ]

def add (sets : κ → List ℕ) (key : κ) (x : ℕ) : κ → List ℕ :=
  Function.update sets key ((sets key).insert x)

def discard (sets : κ → List ℕ) (key : κ) (x : ℕ) : κ → List ℕ :=
  Function.update sets key ((sets key).filter (· ≠ x))

end

namespace ConnectionManager

variable (m : ConnectionManager)

def connect (websocket userId : ℕ) : ConnectionManager :=
  { m with activeConnections := add m.activeConnections userId websocket }

def disconnect (websocket userId : ℕ) : ConnectionManager where
  activeConnections := discard m.activeConnections userId websocket
  batterySubscriptions := fun key => (m.batterySubscriptions key).filter (· ≠ userId)
  orderSubscriptions := fun key => (m.orderSubscriptions key).filter (· ≠ userId)
  inventorySubscriptions := fun key => (m.inventorySubscriptions key).filter (· ≠ userId)

def subscribeBattery (userId : ℕ) (batteryId : ℤ) : ConnectionManager :=
  { m with batterySubscriptions := add m.batterySubscriptions batteryId userId }

def unsubscribeBattery (userId : ℕ) (batteryId : ℤ) : ConnectionManager :=
  { m with batterySubscriptions := discard m.batterySubscriptions batteryId userId }

def subscribeAllOrders (userId : ℕ) : ConnectionManager :=
  { m with orderSubscriptions := add m.orderSubscriptions "*" userId }

def subscribeOrder (userId : ℕ) (orderId : String) : ConnectionManager :=
  let orderKey := strip orderId
  if orderKey = "" then m
  else { m with orderSubscriptions := add m.orderSubscriptions orderKey userId }

def unsubscribeOrder (userId : ℕ) (orderId : String) : ConnectionManager :=
  let orderKey := strip orderId
  if orderKey = "" then m
  else { m with orderSubscriptions := discard m.orderSubscriptions orderKey userId }

end ConnectionManager

/-! ### Inventory locations -/

def normalizeInventoryLocationType (raw : String) : Except Exc String :=
  let locationType := lower (strip raw)
  if locationType ∈ ["warehouse", "station", "shelf"] then .ok locationType
  else .error (.valueError ("Invalid location_type '" ++ raw ++
    "'. Allowed: ['shelf', 'station', 'warehouse']"))

def inventoryLocationKey (locationType : String) (locationId : ℤ) : Except Exc String := do
  let text ← textOfInt locationId
  return locationType ++ ":" ++ text

/-- A value of `location_id` that is not `None`. -/
inductive RawId where
  | integer (n : ℤ)
  | text (s : String)
  /-- a finite float, by its integer part -/
  | real (truncated : ℤ)
  | nan
  | infinite
  /-- a list or a dictionary -/
  | other

/-- `int(raw_id)`. -/
def RawId.toInt : RawId → Except Exc ℤ
  | .integer n | .real n => .ok n
  | .text s => intOfText s
  | .nan => .error (.valueError "cannot convert float NaN to integer")
  | .infinite => .error .overflowError
  | .other => .error .typeError

def locationKey (rawType : String) (rawId : RawId) : Except Exc String := do
  let normalizedType ← normalizeInventoryLocationType rawType
  let id ← rawId.toInt
  inventoryLocationKey normalizedType id

/-- How a call ends; what it has done by then stays. -/
inductive Failure where
  | runtimeError (message : String)
  | raised (e : Exc)
  deriving DecidableEq

structure Outcome where
  manager : ConnectionManager
  /-- the sends that have arrived, with their users -/
  delivered : List (ℕ × ℕ) := []
  error : Option Failure := none

namespace ConnectionManager

def subscribeInventoryLocation (m : ConnectionManager) (userId : ℕ) (locationType : String)
    (locationId : ℤ) : Outcome :=
  match locationKey locationType (.integer locationId) with
  | .error e => { manager := m, error := some (.raised e) }
  | .ok key =>
    { manager := { m with inventorySubscriptions := add m.inventorySubscriptions key userId } }

def unsubscribeInventoryLocation (m : ConnectionManager) (userId : ℕ) (locationType : String)
    (locationId : ℤ) : Outcome :=
  match locationKey locationType (.integer locationId) with
  | .error e => { manager := m, error := some (.raised e) }
  | .ok key =>
    { manager := { m with inventorySubscriptions := discard m.inventorySubscriptions key userId } }

end ConnectionManager

/-! ### Messages -/

/-- Which sends arrive, by user and connection. -/
abbrev Network := ℕ → ℕ → Bool

def sendPersonalMessage (network : Network) (m : ConnectionManager) (userId : ℕ) :
    ConnectionManager × List (ℕ × ℕ) :=
  let connections := m.activeConnections userId
  let disconnected := connections.filter fun websocket => ¬ network userId websocket
  (disconnected.foldl (fun m websocket => m.disconnect websocket userId) m,
    (connections.filter fun websocket => network userId websocket).map fun websocket =>
      (userId, websocket))

/-- One message to each user of a list of its own. -/
def sendEach (network : Network) : ConnectionManager → List ℕ → Outcome
  | m, [] => { manager := m }
  | m, userId :: users =>
    let sent := sendPersonalMessage network m userId
    let rest := sendEach network sent.1 users
    { rest with delivered := sent.2 ++ rest.delivered }

/-- The iteration over the subscribers of a battery, in their order: it stops with an error when it
is asked for the next user, or whether there is one, and the set has not the size it had. -/
def sendLive (network : Network) (batteryId : ℤ) (size : ℕ) : ConnectionManager → List ℕ → Outcome
  | m, [] =>
    if (m.batterySubscriptions batteryId).length = size then { manager := m }
    else { manager := m, error := some (.runtimeError "Set changed size during iteration") }
  | m, userId :: users =>
    if (m.batterySubscriptions batteryId).length = size then
      let sent := sendPersonalMessage network m userId
      let rest := sendLive network batteryId size sent.1 users
      { rest with delivered := sent.2 ++ rest.delivered }
    else { manager := m, error := some (.runtimeError "Set changed size during iteration") }

/-- An entry of `affected_locations`. -/
inductive RawLocation where
  /-- no dictionary -/
  | other
  | dict (locationType : String) (locationId : Option RawId)

/-- The key of a location, if it has one; a `ValueError` or a `TypeError` means that it has none. -/
def RawLocation.key : RawLocation → Except Exc (Option String)
  | .other | .dict _ none => .ok none
  | .dict locationType (some rawId) =>
    match locationKey locationType rawId with
    | .ok key => .ok (some key)
    | .error (.valueError _) | .error .typeError => .ok none
    | .error e => .error e

namespace ConnectionManager

variable (m : ConnectionManager)

/-- The order of the set is given. -/
def broadcastBatteryUpdate (network : Network) (batteryId : ℤ) (order : List ℕ) : Outcome :=
  sendLive network batteryId (m.batterySubscriptions batteryId).length m order

def broadcastAlert (network : Network) (batteryId : ℤ) (order : List ℕ) : Outcome :=
  sendLive network batteryId (m.batterySubscriptions batteryId).length m order

def orderTargets (orderId : String) : List ℕ :=
  let orderKey := strip orderId
  let specificSubscribers := if orderKey = "" then [] else m.orderSubscriptions orderKey
  (m.orderSubscriptions "*" ++ specificSubscribers).dedup

def broadcastOrderUpdate (network : Network) (orderId : String) : Outcome :=
  sendEach network m (m.orderTargets orderId)

def inventoryTargets (keys : List (Option String)) : List ℕ :=
  (keys.reduceOption.flatMap m.inventorySubscriptions).dedup

/-- `affected_locations` is the list; anything else counts as an empty one. -/
def broadcastInventoryUpdate (network : Network) (affectedLocations : List RawLocation) : Outcome :=
  match affectedLocations.mapM RawLocation.key with
  | .error e => { manager := m, error := some (.raised e) }
  | .ok keys => sendEach network m (m.inventoryTargets keys)

end ConnectionManager

/-! ## Calls -/

inductive Call where
  | connect (websocket userId : ℕ)
  | disconnect (websocket userId : ℕ)
  | subscribeBattery (userId : ℕ) (batteryId : ℤ)
  | unsubscribeBattery (userId : ℕ) (batteryId : ℤ)
  | subscribeAllOrders (userId : ℕ)
  | subscribeOrder (userId : ℕ) (orderId : String)
  | unsubscribeOrder (userId : ℕ) (orderId : String)
  | subscribeInventoryLocation (userId : ℕ) (locationType : String) (locationId : ℤ)
  | unsubscribeInventoryLocation (userId : ℕ) (locationType : String) (locationId : ℤ)
  | sendPersonalMessage (userId : ℕ) (network : Network)
  | broadcastBatteryUpdate (batteryId : ℤ) (order : List ℕ) (network : Network)
  | broadcastAlert (batteryId : ℤ) (order : List ℕ) (network : Network)
  | broadcastOrderUpdate (orderId : String) (network : Network)
  | broadcastInventoryUpdate (affectedLocations : List RawLocation) (network : Network)

/-- The subscribers of a battery are in the order given. -/
def Possible (m : ConnectionManager) : Call → Prop
  | .broadcastBatteryUpdate batteryId order _ | .broadcastAlert batteryId order _ =>
    order.Perm (m.batterySubscriptions batteryId)
  | _ => True

instance (m : ConnectionManager) : (call : Call) → Decidable (Possible m call)
  | .broadcastBatteryUpdate batteryId order _ | .broadcastAlert batteryId order _ =>
    inferInstanceAs (Decidable (order.Perm (m.batterySubscriptions batteryId)))
  | .connect .. | .disconnect .. | .subscribeBattery .. | .unsubscribeBattery ..
  | .subscribeAllOrders .. | .subscribeOrder .. | .unsubscribeOrder ..
  | .subscribeInventoryLocation .. | .unsubscribeInventoryLocation .. | .sendPersonalMessage ..
  | .broadcastOrderUpdate .. | .broadcastInventoryUpdate .. => .isTrue trivial

def exec (m : ConnectionManager) : Call → Outcome
  | .connect websocket userId => { manager := m.connect websocket userId }
  | .disconnect websocket userId => { manager := m.disconnect websocket userId }
  | .subscribeBattery userId batteryId => { manager := m.subscribeBattery userId batteryId }
  | .unsubscribeBattery userId batteryId => { manager := m.unsubscribeBattery userId batteryId }
  | .subscribeAllOrders userId => { manager := m.subscribeAllOrders userId }
  | .subscribeOrder userId orderId => { manager := m.subscribeOrder userId orderId }
  | .unsubscribeOrder userId orderId => { manager := m.unsubscribeOrder userId orderId }
  | .subscribeInventoryLocation userId locationType locationId =>
    m.subscribeInventoryLocation userId locationType locationId
  | .unsubscribeInventoryLocation userId locationType locationId =>
    m.unsubscribeInventoryLocation userId locationType locationId
  | .sendPersonalMessage userId network =>
    let sent := sendPersonalMessage network m userId
    { manager := sent.1, delivered := sent.2 }
  | .broadcastBatteryUpdate batteryId order network =>
    m.broadcastBatteryUpdate network batteryId order
  | .broadcastAlert batteryId order network => m.broadcastAlert network batteryId order
  | .broadcastOrderUpdate orderId network => m.broadcastOrderUpdate network orderId
  | .broadcastInventoryUpdate affectedLocations network =>
    m.broadcastInventoryUpdate network affectedLocations

/-! ## What a subscription is for -/

/-- What a user can subscribe to. -/
inductive Channel where
  | battery (id : ℤ)
  | order (key : String)
  | location (key : String)
  deriving DecidableEq

def ConnectionManager.subscribers (m : ConnectionManager) : Channel → List ℕ
  | .battery id => m.batterySubscriptions id
  | .order key => m.orderSubscriptions key
  | .location key => m.inventorySubscriptions key

def Call.subscribes : Call → Option (Channel × ℕ)
  | .subscribeBattery userId batteryId => some (.battery batteryId, userId)
  | .subscribeAllOrders userId => some (.order "*", userId)
  | .subscribeOrder userId orderId =>
    if strip orderId = "" then none else some (.order (strip orderId), userId)
  | .subscribeInventoryLocation userId locationType locationId =>
    (locationKey locationType (.integer locationId)).toOption.map fun key => (.location key, userId)
  | _ => none

def Call.unsubscribes : Call → Option (Channel × ℕ)
  | .unsubscribeBattery userId batteryId => some (.battery batteryId, userId)
  | .unsubscribeOrder userId orderId =>
    if strip orderId = "" then none else some (.order (strip orderId), userId)
  | .unsubscribeInventoryLocation userId locationType locationId =>
    (locationKey locationType (.integer locationId)).toOption.map fun key => (.location key, userId)
  | _ => none

/-- What a broadcast is about. -/
def Call.channels : Call → List Channel
  | .broadcastBatteryUpdate batteryId _ _ | .broadcastAlert batteryId _ _ => [.battery batteryId]
  | .broadcastOrderUpdate orderId _ =>
    .order "*" :: if strip orderId = "" then [] else [.order (strip orderId)]
  | .broadcastInventoryUpdate affectedLocations _ =>
    affectedLocations.filterMap fun l => l.key.toOption.join.map .location
  | _ => []

/-- Which of its sends arrive. -/
def Call.network : Call → Network
  | .sendPersonalMessage _ network | .broadcastBatteryUpdate _ _ network
  | .broadcastAlert _ _ network | .broadcastOrderUpdate _ network
  | .broadcastInventoryUpdate _ network => network
  | _ => fun _ _ => true

def Call.IsBroadcast : Call → Prop
  | .broadcastBatteryUpdate .. | .broadcastAlert .. | .broadcastOrderUpdate ..
  | .broadcastInventoryUpdate .. => True
  | _ => False

structure World where
  manager : ConnectionManager := {}
  /-- who has subscribed to a channel, and has since neither unsubscribed nor lost the last
  connection -/
  watching : Channel → ℕ → Prop := fun _ _ => False

def Lost (m m' : ConnectionManager) (userId : ℕ) : Prop :=
  m.activeConnections userId ≠ [] ∧ m'.activeConnections userId = []

/-- A call that is not possible does nothing. -/
def step (w : World) (call : Call) : World :=
  let manager := if Possible w.manager call then (exec w.manager call).manager else w.manager
  { manager
    watching := fun channel userId =>
      (w.watching channel userId ∧ call.unsubscribes ≠ some (channel, userId) ∨
        call.subscribes = some (channel, userId)) ∧ ¬ Lost w.manager manager userId }

/-- The call, if it is a broadcast, does not raise, and arrives at every working connection of every
user who watches one of its channels. -/
def Reaches (w : World) (call : Call) : Prop :=
  Possible w.manager call → call.IsBroadcast →
    (exec w.manager call).error = none ∧
    ∀ channel ∈ call.channels, ∀ userId, w.watching channel userId →
      ∀ websocket ∈ w.manager.activeConnections userId, call.network userId websocket = true →
        (userId, websocket) ∈ (exec w.manager call).delivered

/-- The locations of an inventory broadcast have keys, or a reason not to have one. -/
def Call.WellFormed : Call → Prop
  | .broadcastInventoryUpdate affectedLocations _ =>
    ∀ l ∈ affectedLocations, ∀ e, l.key ≠ .error e
  | _ => True

structure Sound (w : World) : Prop where
  connected : ∀ channel, ∀ userId ∈ w.manager.subscribers channel,
    w.manager.activeConnections userId ≠ []
  /-- a broadcast could follow -/
  reaches : ∀ call : Call, call.WellFormed → (∀ userId websocket, call.network userId websocket) →
    Reaches w call

/-! ## When subscriptions are live -/

def AllOrNone (m : ConnectionManager) (network : Network) (userId : ℕ) : Prop :=
  (∀ websocket ∈ m.activeConnections userId, network userId websocket = true) ∨
    ∀ websocket ∈ m.activeConnections userId, network userId websocket = false

def NotSubscribed (m : ConnectionManager) (userId : ℕ) : Prop :=
  ∀ channel, userId ∉ m.subscribers channel

/-- A disconnect takes the last connection, or the user has no subscriptions; who subscribes is
connected; all sends to subscribers of a battery arrive; and of the sends to another subscriber all
or none arrive. -/
def Harmless (w : World) : Call → Prop
  | .disconnect websocket userId =>
    (∀ ws ∈ w.manager.activeConnections userId, ws = websocket) ∨ NotSubscribed w.manager userId
  | .broadcastBatteryUpdate batteryId order network | .broadcastAlert batteryId order network =>
    order.Perm (w.manager.batterySubscriptions batteryId) →
      ∀ userId ∈ w.manager.batterySubscriptions batteryId,
        ∀ websocket ∈ w.manager.activeConnections userId, network userId websocket = true
  | .broadcastOrderUpdate orderId network =>
    ∀ userId ∈ w.manager.orderTargets orderId, AllOrNone w.manager network userId
  | .broadcastInventoryUpdate affectedLocations network =>
    (∀ l ∈ affectedLocations, ∀ e, l.key ≠ .error e) ∧
      ∀ keys, affectedLocations.mapM RawLocation.key = .ok keys →
        ∀ userId ∈ w.manager.inventoryTargets keys, AllOrNone w.manager network userId
  | .sendPersonalMessage userId network =>
    AllOrNone w.manager network userId ∨ NotSubscribed w.manager userId
  | call => ∀ subscription ∈ call.subscribes, w.manager.activeConnections subscription.2 ≠ []

/-! ### The sets -/

section

variable {κ : Type} [DecidableEq κ] {sets : κ → List ℕ} {key key' : κ} {x y : ℕ}

@[simp] theorem mem_add : y ∈ add sets key x key' ↔ y ∈ sets key' ∨ key' = key ∧ y = x := by
  unfold add
  by_cases hkey : key' = key
  · subst hkey
    simp [or_comm]
  · simp [hkey]

@[simp] theorem mem_discard :
    y ∈ discard sets key x key' ↔ y ∈ sets key' ∧ ¬ (key' = key ∧ y = x) := by
  unfold discard
  by_cases hkey : key' = key
  · subst hkey
    simp
  · simp [hkey]

end

section

variable {m : ConnectionManager} {network : Network} {channel : Channel} {websocket userId v : ℕ}

variable {ws : ℕ}

@[simp] theorem mem_disconnect_connections :
    ws ∈ (m.disconnect websocket userId).activeConnections v ↔
      ws ∈ m.activeConnections v ∧ ¬ (v = userId ∧ ws = websocket) := mem_discard

@[simp] theorem mem_disconnect_subscribers :
    v ∈ (m.disconnect websocket userId).subscribers channel ↔
      v ∈ m.subscribers channel ∧ v ≠ userId := by
  cases channel <;> simp [ConnectionManager.subscribers, ConnectionManager.disconnect]

variable {l : List ℕ}

theorem foldl_disconnect_connections :
    ws ∈ (l.foldl (fun m websocket => m.disconnect websocket userId) m).activeConnections v ↔
      ws ∈ m.activeConnections v ∧ ¬ (v = userId ∧ ws ∈ l) := by
  induction l generalizing m with
  | nil => simp
  | cons websocket l ih =>
    rw [List.foldl_cons, ih, mem_disconnect_connections, List.mem_cons]
    tauto

theorem foldl_disconnect_subscribers :
    v ∈ (l.foldl (fun m websocket => m.disconnect websocket userId) m).subscribers channel ↔
      v ∈ m.subscribers channel ∧ (l = [] ∨ v ≠ userId) := by
  induction l generalizing m with
  | nil => simp
  | cons websocket l ih =>
    rw [List.foldl_cons, ih, mem_disconnect_subscribers]
    simp only [List.cons_ne_nil, false_or]
    tauto

/-! ### What the sends do -/

/-- What messages to some users do: the connections that work remain, and the subscriptions of the
users all of whose connections do. -/
structure Sends (network : Network) (m : ConnectionManager) (users : List ℕ)
    (m' : ConnectionManager) (delivered : List (ℕ × ℕ)) : Prop where
  connections : ∀ v ws, ws ∈ m'.activeConnections v ↔
    ws ∈ m.activeConnections v ∧ (v ∈ users → network v ws = true)
  subscribers : ∀ channel v, v ∈ m'.subscribers channel ↔
    v ∈ m.subscribers channel ∧
      (v ∈ users → ∀ ws ∈ m.activeConnections v, network v ws = true)
  delivered : ∀ v ws, (v, ws) ∈ delivered ↔
    v ∈ users ∧ ws ∈ m.activeConnections v ∧ network v ws = true

theorem sends_personal (network : Network) (m : ConnectionManager) (userId : ℕ) :
    Sends network m [userId] (sendPersonalMessage network m userId).1
      (sendPersonalMessage network m userId).2 := by
  refine ⟨fun v ws => ?_, fun channel v => ?_, fun v ws => ?_⟩
  · rw [sendPersonalMessage, foldl_disconnect_connections, List.mem_singleton]
    simp only [List.mem_filter, decide_eq_true_eq]
    constructor
    · rintro ⟨hws, hno⟩
      refine ⟨hws, ?_⟩
      rintro rfl
      by_contra hfails
      exact hno ⟨rfl, hws, hfails⟩
    · rintro ⟨hws, hworks⟩
      exact ⟨hws, fun ⟨hv, _, hfails⟩ => hfails (hv ▸ hworks hv)⟩
  · rw [sendPersonalMessage, foldl_disconnect_subscribers, List.mem_singleton]
    simp only [List.filter_eq_nil_iff, decide_eq_true_eq, not_not]
    refine and_congr_right fun _ => ?_
    constructor
    · rintro (hall | hne) rfl
      · exact hall
      · exact absurd rfl hne
    · intro hall
      by_cases hv : v = userId
      · subst hv
        exact .inl (hall rfl)
      · exact .inr hv
  · simp only [sendPersonalMessage, List.mem_map, List.mem_filter, Prod.mk.injEq,
      List.mem_singleton]
    constructor
    · rintro ⟨x, ⟨hx, hworks⟩, rfl, rfl⟩
      exact ⟨rfl, hx, hworks⟩
    · rintro ⟨rfl, hws, hworks⟩
      exact ⟨ws, ⟨hws, hworks⟩, rfl, rfl⟩

variable {users : List ℕ}

theorem sends_cons {m' m'' : ConnectionManager}
    {delivered delivered' : List (ℕ × ℕ)} (h : Sends network m [userId] m' delivered)
    (h' : Sends network m' users m'' delivered') :
    Sends network m (userId :: users) m'' (delivered ++ delivered') := by
  refine ⟨fun v ws => ?_, fun channel v => ?_, fun v ws => ?_⟩
  · rw [h'.connections, h.connections, List.mem_singleton, List.mem_cons]
    tauto
  · rw [h'.subscribers, h.subscribers, List.mem_singleton, List.mem_cons]
    simp only [h.connections, List.mem_singleton]
    constructor
    · rintro ⟨⟨hv, hfirst⟩, hrest⟩
      refine ⟨hv, fun hmem ws hws => ?_⟩
      by_cases heq : v = userId
      · exact hfirst heq ws hws
      · exact hrest (hmem.resolve_left heq) ws ⟨hws, fun hv => absurd hv heq⟩
    · rintro ⟨hv, hall⟩
      exact ⟨⟨hv, fun heq => hall (.inl heq)⟩, fun hmem ws hws => hall (.inr hmem) ws hws.1⟩
  · rw [List.mem_append, h.delivered, h'.delivered, h.connections, List.mem_singleton,
      List.mem_cons]
    tauto

theorem sends_each (network : Network) (m : ConnectionManager) (users : List ℕ) :
    (sendEach network m users).error = none ∧
      Sends network m users (sendEach network m users).manager
        (sendEach network m users).delivered := by
  induction users generalizing m with
  | nil => exact ⟨rfl, by simp [sendEach], by simp [sendEach], by simp [sendEach]⟩
  | cons userId users ih =>
    obtain ⟨herror, hrest⟩ := ih (sendPersonalMessage network m userId).1
    exact ⟨herror, sends_cons (sends_personal network m userId) hrest⟩

theorem personal_of_arrives (h : ∀ ws ∈ m.activeConnections userId, network userId ws = true) :
    (sendPersonalMessage network m userId).1 = m := by
  have hnone : (m.activeConnections userId).filter (fun ws => ¬ network userId ws) = [] := by
    simp only [List.filter_eq_nil_iff, decide_eq_true_eq, not_not]
    exact h
  rw [sendPersonalMessage]
  simp only [hnone, List.foldl_nil]

variable {batteryId : ℤ}

theorem live_of_arrives (h : ∀ v ∈ users, ∀ ws ∈ m.activeConnections v, network v ws = true) :
    sendLive network batteryId (m.batterySubscriptions batteryId).length m users =
      sendEach network m users ∧ (sendEach network m users).manager = m := by
  induction users with
  | nil => simp [sendLive, sendEach]
  | cons userId users ih =>
    have hsame : (sendPersonalMessage network m userId).1 = m :=
      personal_of_arrives (h userId List.mem_cons_self)
    obtain ⟨hrest, hmanager⟩ := ih fun v hv => h v (List.mem_cons_of_mem _ hv)
    simp only [sendLive, sendEach, hsame, hrest, hmanager, if_true, and_self]

theorem foldl_disconnect_sublist (batteryId : ℤ) (l : List ℕ) :
    ((l.foldl (fun m websocket => m.disconnect websocket userId) m).batterySubscriptions
      batteryId).Sublist (m.batterySubscriptions batteryId) := by
  induction l generalizing m with
  | nil => exact List.Sublist.refl _
  | cons websocket l ih => exact ih.trans List.filter_sublist

theorem live_of_size {size : ℕ} (h : (m.batterySubscriptions batteryId).length ≠ size) :
    (sendLive network batteryId size m users).error ≠ none := by
  cases users <;> simp [sendLive, h]

/-- A send to a subscriber that fails ends the iteration with an error. -/
theorem live_of_fails {v ws : ℕ}
    (hsubscribed : ∀ v ∈ users, v ∈ m.batterySubscriptions batteryId) (hv : v ∈ users)
    (hws : ws ∈ m.activeConnections v) (hfails : network v ws = false) :
    (sendLive network batteryId (m.batterySubscriptions batteryId).length m users).error ≠
      none := by
  induction users with
  | nil => cases hv
  | cons userId users ih =>
    simp only [sendLive, if_true]
    by_cases harrives : ∀ ws ∈ m.activeConnections userId, network userId ws = true
    · rw [personal_of_arrives harrives]
      rcases List.mem_cons.mp hv with rfl | hv
      · exact absurd (harrives ws hws) (by simp [hfails])
      · exact ih (fun v hv => hsubscribed v (List.mem_cons_of_mem _ hv)) hv
    · -- the user is gone from the set, so that the set is smaller
      refine live_of_size fun hlength => ?_
      have hsame := (foldl_disconnect_sublist batteryId _).eq_of_length hlength
      have hmem : userId ∈ (sendPersonalMessage network m userId).1.subscribers
          (.battery batteryId) := by
        show userId ∈ (sendPersonalMessage network m userId).1.batterySubscriptions batteryId
        rw [sendPersonalMessage, hsame]
        exact hsubscribed userId List.mem_cons_self
      exact harrives (((sends_personal network m userId).subscribers _ _).mp hmem |>.2
        (List.mem_singleton_self userId))

end

/-! ### Broadcasts -/

section

variable {w : World} {m : ConnectionManager} {network : Network} {call : Call} {channel : Channel}
  {v : ℕ}

theorem mem_orderTargets (network : Network) {orderId : String} :
    v ∈ m.orderTargets orderId ↔
      ∃ channel ∈ (Call.broadcastOrderUpdate orderId network).channels,
        v ∈ m.subscribers channel := by
  simp only [ConnectionManager.orderTargets, Call.channels, List.mem_dedup, List.mem_append]
  split_ifs <;> simp [ConnectionManager.subscribers]

variable {affectedLocations : List RawLocation}

theorem mem_inventoryTargets (network : Network)
    {keys : List (Option String)} (hkeys : affectedLocations.mapM RawLocation.key = .ok keys) :
    v ∈ m.inventoryTargets keys ↔
      ∃ channel ∈ (Call.broadcastInventoryUpdate affectedLocations network).channels,
        v ∈ m.subscribers channel := by
  have hchannels : (Call.broadcastInventoryUpdate affectedLocations network).channels =
      keys.reduceOption.map .location := by
    have hforall := forall₂_of_mapM hkeys
    clear hkeys
    induction hforall with
    | nil => rfl
    | @cons l key ls keys hkey _ ih =>
      simp only [Call.channels] at ih
      simp only [Call.channels, List.filterMap_cons, hkey]
      rw [ih]
      cases key <;>
        simp [Except.toOption, List.reduceOption_cons_of_some, List.reduceOption_cons_of_none]
  rw [hchannels]
  simp [ConnectionManager.inventoryTargets, ConnectionManager.subscribers]

/-- What a harmless broadcast does: it sends to who has subscribed to one of its channels. -/
theorem broadcast_sends (hbroadcast : call.IsBroadcast)
    (hpossible : Possible w.manager call) (h : Harmless w call) :
    (exec w.manager call).error = none ∧ ∃ users,
      (∀ v, v ∈ users ↔ ∃ channel ∈ call.channels, v ∈ w.manager.subscribers channel) ∧
      (∀ v ∈ users, AllOrNone w.manager call.network v) ∧
      Sends call.network w.manager users (exec w.manager call).manager
        (exec w.manager call).delivered := by
  have hbattery : ∀ (batteryId : ℤ) (order : List ℕ) (network : Network),
      order.Perm (w.manager.batterySubscriptions batteryId) →
      (∀ v ∈ w.manager.batterySubscriptions batteryId, ∀ ws ∈ w.manager.activeConnections v,
        network v ws = true) →
      (w.manager.broadcastBatteryUpdate network batteryId order).error = none ∧ ∃ users,
        (∀ v, v ∈ users ↔ ∃ channel ∈ [Channel.battery batteryId],
          v ∈ w.manager.subscribers channel) ∧
        (∀ v ∈ users, AllOrNone w.manager network v) ∧
        Sends network w.manager users
          (w.manager.broadcastBatteryUpdate network batteryId order).manager
          (w.manager.broadcastBatteryUpdate network batteryId order).delivered := by
    intro batteryId order network hperm harrives
    have harrives' : ∀ v ∈ order, ∀ ws ∈ w.manager.activeConnections v, network v ws = true :=
      fun v hv => harrives v (hperm.mem_iff.mp hv)
    rw [ConnectionManager.broadcastBatteryUpdate, (live_of_arrives harrives').1]
    obtain ⟨herror, hsends⟩ := sends_each network w.manager order
    refine ⟨herror, order, fun v => ?_, fun v hv => .inl (harrives' v hv), hsends⟩
    simp [hperm.mem_iff, ConnectionManager.subscribers]
  cases call with
  | broadcastBatteryUpdate batteryId order network =>
    exact hbattery batteryId order network hpossible (h hpossible)
  | broadcastAlert batteryId order network =>
    exact hbattery batteryId order network hpossible (h hpossible)
  | broadcastOrderUpdate orderId network =>
    obtain ⟨herror, hsends⟩ := sends_each network w.manager (w.manager.orderTargets orderId)
    exact ⟨herror, _, fun v => mem_orderTargets network, h, hsends⟩
  | broadcastInventoryUpdate affectedLocations network =>
    obtain ⟨hwell, hall⟩ := h
    rcases hkeys : affectedLocations.mapM RawLocation.key with e | keys
    · obtain ⟨l, hl, he⟩ := mapM_error hkeys
      exact absurd he (hwell l hl e)
    · have hexec : exec w.manager (.broadcastInventoryUpdate affectedLocations network) =
          sendEach network w.manager (w.manager.inventoryTargets keys) := by
        simp only [exec, ConnectionManager.broadcastInventoryUpdate, hkeys]
      rw [hexec]
      obtain ⟨herror, hsends⟩ := sends_each network w.manager (w.manager.inventoryTargets keys)
      exact ⟨herror, _, fun v => mem_inventoryTargets network hkeys, hall keys hkeys, hsends⟩
  | _ => exact hbroadcast.elim

theorem not_wellFormed (h : ¬ ∀ l ∈ affectedLocations, ∀ e, l.key ≠ .error e) :
    (m.broadcastInventoryUpdate network affectedLocations).error ≠ none := by
  simp only [not_forall, not_not] at h
  obtain ⟨l, hl, e, he⟩ := h
  rcases hkeys : affectedLocations.mapM RawLocation.key with e' | keys
  · simp [ConnectionManager.broadcastInventoryUpdate, hkeys]
  · obtain ⟨key, -, hkey⟩ := mapM_ok_of_mem hkeys hl
    cases he.symm.trans hkey

/-! ### Steps -/

def Channel.Proper : Channel → Prop
  | .battery _ => True
  | .order key => strip key = key ∧ key ≠ ""
  | .location key => ∃ locationType id, locationKey locationType (.integer id) = .ok key

/-- The sets hold who watches, and who watches is connected. -/
structure Tracked (w : World) : Prop where
  watching : ∀ channel v, w.watching channel v ↔ v ∈ w.manager.subscribers channel
  connected : ∀ channel, ∀ v ∈ w.manager.subscribers channel, w.manager.activeConnections v ≠ []
  proper : ∀ channel, ∀ v ∈ w.manager.subscribers channel, channel.Proper

theorem tracked_start : Tracked {} :=
  ⟨by rintro (_ | _ | _) v <;> simp [ConnectionManager.subscribers],
    by rintro (_ | _ | _) v hv <;> simp [ConnectionManager.subscribers] at hv,
    by rintro (_ | _ | _) v hv <;> simp [ConnectionManager.subscribers] at hv⟩

theorem proper_of_subscribes (h : call.subscribes = some (channel, v)) :
    channel.Proper := by
  cases call with
  | subscribeBattery userId batteryId =>
    obtain ⟨rfl, -⟩ := Prod.mk.inj (Option.some.inj h)
    trivial
  | subscribeAllOrders userId =>
    obtain ⟨rfl, -⟩ := Prod.mk.inj (Option.some.inj h)
    exact ⟨by decide, by decide⟩
  | subscribeOrder userId orderId =>
    simp only [Call.subscribes] at h
    split_ifs at h with hempty
    obtain ⟨rfl, -⟩ := Prod.mk.inj (Option.some.inj h)
    exact ⟨strip_strip orderId, hempty⟩
  | subscribeInventoryLocation userId locationType locationId =>
    rcases hkey : locationKey locationType (.integer locationId) with e | key
    · simp [Call.subscribes, hkey, Except.toOption] at h
    · simp only [Call.subscribes, hkey, Except.toOption, Option.map_some] at h
      obtain ⟨rfl, -⟩ := Prod.mk.inj (Option.some.inj h)
      exact ⟨locationType, locationId, hkey⟩
  | _ => cases h

/-- What a call leaves that edits at most one set. -/
structure Edits (m : ConnectionManager) (call : Call) (m' : ConnectionManager) : Prop where
  subscribers : ∀ channel v, v ∈ m'.subscribers channel ↔
    v ∈ m.subscribers channel ∧ call.unsubscribes ≠ some (channel, v) ∨
      call.subscribes = some (channel, v)
  connections : ∀ v ws, ws ∈ m'.activeConnections v ↔
    ws ∈ m.activeConnections v ∨ call = .connect ws v

theorem Edits.none (hsubscribes : call.subscribes = none)
    (hunsubscribes : call.unsubscribes = none) (hconnect : ∀ ws v, call ≠ .connect ws v) :
    Edits m call m := by
  refine ⟨fun channel v => ?_, fun v ws => (or_iff_left (hconnect ws v)).symm⟩
  simp [hsubscribes, hunsubscribes]

theorem edits_subscribeOrder (userId : ℕ) (orderId : String) :
    Edits m (.subscribeOrder userId orderId) (m.subscribeOrder userId orderId) := by
  unfold ConnectionManager.subscribeOrder
  by_cases hempty : strip orderId = ""
  · rw [if_pos hempty]
    exact .none (if_pos hempty) rfl (by simp)
  · have hsubscribes : (Call.subscribeOrder userId orderId).subscribes =
        some (.order (strip orderId), userId) := if_neg hempty
    rw [if_neg hempty]
    refine ⟨fun channel v => ?_, fun v ws => (or_iff_left (by simp)).symm⟩
    rw [hsubscribes]
    cases channel <;> simp [ConnectionManager.subscribers, Call.unsubscribes, eq_comm]

theorem edits_unsubscribeOrder (userId : ℕ) (orderId : String) :
    Edits m (.unsubscribeOrder userId orderId) (m.unsubscribeOrder userId orderId) := by
  unfold ConnectionManager.unsubscribeOrder
  by_cases hempty : strip orderId = ""
  · rw [if_pos hempty]
    exact .none rfl (if_pos hempty) (by simp)
  · have hunsubscribes : (Call.unsubscribeOrder userId orderId).unsubscribes =
        some (.order (strip orderId), userId) := if_neg hempty
    rw [if_neg hempty]
    refine ⟨fun channel v => ?_, fun v ws => (or_iff_left (by simp)).symm⟩
    rw [hunsubscribes]
    cases channel <;> simp [ConnectionManager.subscribers, Call.subscribes, eq_comm]

/-- Both calls for a location edit the set of its key, if there is one. -/
theorem edits_inventoryLocation (userId : ℕ) (locationType : String) (locationId : ℤ) :
    Edits m (.subscribeInventoryLocation userId locationType locationId)
        (m.subscribeInventoryLocation userId locationType locationId).manager ∧
      Edits m (.unsubscribeInventoryLocation userId locationType locationId)
        (m.unsubscribeInventoryLocation userId locationType locationId).manager := by
  have hmoves : ∀ r, locationKey locationType (.integer locationId) = r →
      (Call.subscribeInventoryLocation userId locationType locationId).subscribes =
          r.toOption.map (.location ·, userId) ∧
        (Call.unsubscribeInventoryLocation userId locationType locationId).unsubscribes =
          r.toOption.map (.location ·, userId) := by
    rintro r rfl
    exact ⟨rfl, rfl⟩
  unfold ConnectionManager.subscribeInventoryLocation ConnectionManager.unsubscribeInventoryLocation
  rcases hkey : locationKey locationType (.integer locationId) with e | key
  · obtain ⟨hsubscribes, hunsubscribes⟩ := hmoves _ hkey
    exact ⟨.none hsubscribes rfl (by simp), .none rfl hunsubscribes (by simp)⟩
  · obtain ⟨hsubscribes, hunsubscribes⟩ := hmoves _ hkey
    refine ⟨⟨fun channel v => ?_, fun v ws => (or_iff_left (by simp)).symm⟩,
      ⟨fun channel v => ?_, fun v ws => (or_iff_left (by simp)).symm⟩⟩
    · rw [hsubscribes]
      cases channel <;> simp [ConnectionManager.subscribers, Call.unsubscribes, Except.toOption,
        eq_comm]
    · rw [hunsubscribes]
      cases channel <;> simp [ConnectionManager.subscribers, Call.subscribes, Except.toOption,
        eq_comm]

theorem exec_edits (hbroadcast : ¬ call.IsBroadcast)
    (hdisconnect : ∀ websocket userId, call ≠ .disconnect websocket userId)
    (hmessage : ∀ userId network, call ≠ .sendPersonalMessage userId network) :
    Edits m call (exec m call).manager := by
  cases call with
  | connect websocket userId =>
    refine ⟨fun channel v => ?_, fun v ws => ?_⟩
    · cases channel <;> simp [exec, ConnectionManager.connect, ConnectionManager.subscribers,
        Call.subscribes, Call.unsubscribes]
    · rw [Call.connect.injEq]
      exact mem_add.trans (or_congr_right (by rw [eq_comm, and_comm, eq_comm]))
  | subscribeBattery userId batteryId =>
    refine ⟨fun channel v => ?_, fun v ws => (or_iff_left (by simp)).symm⟩
    cases channel <;> simp [exec, ConnectionManager.subscribeBattery,
      ConnectionManager.subscribers, Call.subscribes, Call.unsubscribes, eq_comm]
  | unsubscribeBattery userId batteryId =>
    refine ⟨fun channel v => ?_, fun v ws => (or_iff_left (by simp)).symm⟩
    cases channel <;> simp [exec, ConnectionManager.unsubscribeBattery,
      ConnectionManager.subscribers, Call.subscribes, Call.unsubscribes, eq_comm]
  | subscribeAllOrders userId =>
    refine ⟨fun channel v => ?_, fun v ws => (or_iff_left (by simp)).symm⟩
    cases channel <;> simp [exec, ConnectionManager.subscribeAllOrders,
      ConnectionManager.subscribers, Call.subscribes, Call.unsubscribes, eq_comm]
  | subscribeOrder userId orderId =>
    dsimp only [exec]
    exact edits_subscribeOrder userId orderId
  | unsubscribeOrder userId orderId =>
    dsimp only [exec]
    exact edits_unsubscribeOrder userId orderId
  | subscribeInventoryLocation userId locationType locationId =>
    rw [exec]
    exact (edits_inventoryLocation userId locationType locationId).1
  | unsubscribeInventoryLocation userId locationType locationId =>
    rw [exec]
    exact (edits_inventoryLocation userId locationType locationId).2
  | disconnect websocket userId => exact absurd rfl (hdisconnect websocket userId)
  | sendPersonalMessage userId network => exact absurd rfl (hmessage userId network)
  | _ => exact absurd trivial hbroadcast

theorem step_manager (h : Possible w.manager call) :
    (step w call).manager = (exec w.manager call).manager := if_pos h

variable {delivered : List (ℕ × ℕ)} {users : List ℕ}

variable {m' : ConnectionManager}

/-- Sends that all or none arrive at take the subscriptions with the last connection. -/
theorem Sends.subscribed (h : Sends network m users m' delivered)
    (hconnected : v ∈ m.subscribers channel → m.activeConnections v ≠ [])
    (hall : v ∈ users → v ∈ m.subscribers channel → AllOrNone m network v) :
    v ∈ m'.subscribers channel ↔ v ∈ m.subscribers channel ∧ ¬ Lost m m' v := by
  rw [h.subscribers]
  refine and_congr_right fun hv => ?_
  obtain ⟨ws, hws⟩ := List.exists_mem_of_ne_nil _ (hconnected hv)
  constructor
  · intro harrives hlost
    have hkept : ws ∈ m'.activeConnections v :=
      (h.connections v ws).mpr ⟨hws, fun hmem => harrives hmem ws hws⟩
    rw [hlost.2] at hkept
    cases hkept
  · intro hnot hmem
    rcases hall hmem hv with harrives | hfails
    · exact harrives
    · refine absurd ⟨hconnected hv, List.eq_nil_iff_forall_not_mem.mpr fun ws' hws' => ?_⟩ hnot
      obtain ⟨hws', harrives⟩ := (h.connections v ws').mp hws'
      simp [hfails ws' hws'] at harrives
      exact harrives hmem

/-- A disconnect that takes the last connection, or a user's without subscriptions. -/
theorem subscribed_disconnect {websocket userId : ℕ}
    (hconnected : v ∈ m.subscribers channel → m.activeConnections v ≠ [])
    (hharmless : (∀ ws ∈ m.activeConnections userId, ws = websocket) ∨ NotSubscribed m userId) :
    v ∈ (m.disconnect websocket userId).subscribers channel ↔
      v ∈ m.subscribers channel ∧ ¬ Lost m (m.disconnect websocket userId) v := by
  rw [mem_disconnect_subscribers]
  refine and_congr_right fun hv => ?_
  constructor
  · intro hne hlost
    obtain ⟨ws, hws⟩ := List.exists_mem_of_ne_nil _ hlost.1
    have hkept : ws ∈ (m.disconnect websocket userId).activeConnections v :=
      mem_disconnect_connections.mpr ⟨hws, fun heq => hne heq.1⟩
    rw [hlost.2] at hkept
    cases hkept
  · rintro hnot rfl
    rcases hharmless with hlast | hnone
    · refine hnot ⟨hconnected hv, List.eq_nil_iff_forall_not_mem.mpr fun ws hws => ?_⟩
      obtain ⟨hws, hne⟩ := mem_disconnect_connections.mp hws
      exact hne ⟨rfl, hlast ws hws⟩
    · exact hnone channel hv

theorem subscribers_step (h : Tracked w) (hharmless : Harmless w call) (channel : Channel)
    (v : ℕ) :
    v ∈ (step w call).manager.subscribers channel ↔
      (v ∈ w.manager.subscribers channel ∧ call.unsubscribes ≠ some (channel, v) ∨
        call.subscribes = some (channel, v)) ∧ ¬ Lost w.manager (step w call).manager v := by
  by_cases hpossible : Possible w.manager call
  · rw [step_manager hpossible]
    by_cases hbroadcast : call.IsBroadcast
    · obtain ⟨-, users, -, hall, hsends⟩ := broadcast_sends hbroadcast hpossible hharmless
      rw [hsends.subscribed (h.connected channel v) fun hv _ => hall v hv]
      cases call <;> first | exact hbroadcast.elim | simp [Call.subscribes, Call.unsubscribes]
    by_cases hdisconnect : ∃ websocket userId, call = .disconnect websocket userId
    · obtain ⟨websocket, userId, rfl⟩ := hdisconnect
      simp only [exec, subscribed_disconnect (h.connected channel v) hharmless, Call.unsubscribes,
        Call.subscribes, ne_eq, reduceCtorEq, not_false_eq_true, and_true, or_false]
    by_cases hmessage : ∃ userId network, call = .sendPersonalMessage userId network
    · obtain ⟨userId, network, rfl⟩ := hmessage
      have hall : v ∈ [userId] → v ∈ w.manager.subscribers channel →
          AllOrNone w.manager network v := by
        intro hmem hv
        obtain rfl := List.mem_singleton.mp hmem
        exact hharmless.resolve_right fun hnone => hnone channel hv
      simp only [exec, (sends_personal network w.manager userId).subscribed
        (h.connected channel v) hall, Call.unsubscribes, Call.subscribes, ne_eq, reduceCtorEq,
        not_false_eq_true, and_true, or_false]
    · obtain ⟨hsubscribers, hconnections⟩ := exec_edits (m := w.manager) hbroadcast
        (fun websocket userId heq => hdisconnect ⟨websocket, userId, heq⟩)
        fun userId network heq => hmessage ⟨userId, network, heq⟩
      have hnot : ¬ Lost w.manager (exec w.manager call).manager v := by
        rintro ⟨hsome, hnone⟩
        obtain ⟨ws, hws⟩ := List.exists_mem_of_ne_nil _ hsome
        have hkept := (hconnections v ws).mpr (.inl hws)
        rw [hnone] at hkept
        cases hkept
      rw [hsubscribers, and_iff_left hnot]
  · have hsame : (step w call).manager = w.manager := if_neg hpossible
    have hnot : ¬ Lost w.manager w.manager v := fun hlost => hlost.1 hlost.2
    rw [hsame, and_iff_left hnot]
    cases call <;> first
      | exact absurd trivial hpossible
      | simp [Call.subscribes, Call.unsubscribes]

theorem connected_of_subscribes (h : Harmless w call)
    (hcall : call.subscribes = some (channel, v)) :
    w.manager.activeConnections v ≠ [] := by
  cases call <;> first
    | exact h _ (Option.mem_def.mpr hcall)
    | cases hcall

theorem Tracked.step (h : Tracked w) (hharmless : Harmless w call) : Tracked (step w call) := by
  refine ⟨fun channel v => ?_, fun channel v hv => ?_, fun channel v hv => ?_⟩
  · rw [subscribers_step h hharmless]
    simp only [Connections.step, h.watching]
  · obtain ⟨hfrom, hnot⟩ := (subscribers_step h hharmless channel v).mp hv
    have hbefore : w.manager.activeConnections v ≠ [] := by
      rcases hfrom with ⟨hv, -⟩ | hcall
      · exact h.connected channel v hv
      · exact connected_of_subscribes hharmless hcall
    exact fun hnone => hnot ⟨hbefore, hnone⟩
  · rcases ((subscribers_step h hharmless channel v).mp hv).1 with ⟨hv, -⟩ | hcall
    · exact h.proper channel v hv
    · exact proper_of_subscribes hcall

/-! ### Exactly the harmless calls -/

theorem reaches_of_harmless (h : Tracked w) (hharmless : Harmless w call) : Reaches w call := by
  intro hpossible hbroadcast
  obtain ⟨herror, users, husers, -, hsends⟩ := broadcast_sends hbroadcast hpossible hharmless
  refine ⟨herror, fun channel hchannel v hv ws hws harrives => ?_⟩
  exact (hsends.delivered v ws).mpr
    ⟨(husers v).mpr ⟨channel, hchannel, (h.watching channel v).mp hv⟩, hws, harrives⟩

theorem harmless_of_arrives (hbroadcast : call.IsBroadcast) (hwell : call.WellFormed)
    (harrives : ∀ v ws, call.network v ws = true) : Harmless w call := by
  cases call with
  | broadcastBatteryUpdate batteryId order network => exact fun _ v _ ws _ => harrives v ws
  | broadcastAlert batteryId order network => exact fun _ v _ ws _ => harrives v ws
  | broadcastOrderUpdate orderId network => exact fun v _ => .inl fun ws _ => harrives v ws
  | broadcastInventoryUpdate affectedLocations network =>
    exact ⟨hwell, fun _ _ v _ => .inl fun ws _ => harrives v ws⟩
  | _ => exact hbroadcast.elim

theorem Tracked.sound (h : Tracked w) : Sound w :=
  ⟨h.connected, fun _ hwell harrives hpossible hbroadcast =>
    reaches_of_harmless h (harmless_of_arrives hbroadcast hwell harrives) hpossible hbroadcast⟩

theorem exists_broadcast (m : ConnectionManager) (h : channel.Proper) :
    ∃ call : Call, call.IsBroadcast ∧ Possible m call ∧ call.WellFormed ∧
      (∀ v ws, call.network v ws = true) ∧ channel ∈ call.channels := by
  cases channel with
  | battery id =>
    exact ⟨.broadcastBatteryUpdate id (m.batterySubscriptions id) fun _ _ => true, trivial,
      List.Perm.refl _, trivial, fun _ _ => rfl, List.mem_singleton_self _⟩
  | order key =>
    obtain ⟨hstrip, hne⟩ := h
    exact ⟨.broadcastOrderUpdate key fun _ _ => true, trivial, trivial, trivial, fun _ _ => rfl,
      by simp [Call.channels, hstrip, hne]⟩
  | location key =>
    obtain ⟨locationType, id, hkey⟩ := h
    have hlocation : (RawLocation.dict locationType (some (.integer id))).key = .ok (some key) := by
      unfold RawLocation.key
      dsimp only
      rw [hkey]
    refine ⟨.broadcastInventoryUpdate [.dict locationType (some (.integer id))] fun _ _ => true,
      trivial, trivial, ?_, fun _ _ => rfl, ?_⟩
    · intro l hl e he
      obtain rfl := List.mem_singleton.mp hl
      cases he.symm.trans hlocation
    · simp [Call.channels, hlocation, Except.toOption]

variable {ws : ℕ}

theorem Sound.subscribed (h : Sound w) (hv : w.watching channel v) (hproper : channel.Proper)
    (hws : ws ∈ w.manager.activeConnections v) : ¬ NotSubscribed w.manager v := by
  obtain ⟨call, hbroadcast, hpossible, hwell, harrives, hchannel⟩ :=
    exists_broadcast w.manager hproper
  obtain ⟨-, hreach⟩ := h.reaches call hwell harrives hpossible hbroadcast
  obtain ⟨-, users, husers, -, hsends⟩ :=
    broadcast_sends hbroadcast hpossible (harmless_of_arrives hbroadcast hwell harrives)
  have hmem := ((hsends.delivered v ws).mp (hreach channel hchannel v hv ws hws (harrives v ws))).1
  obtain ⟨channel', -, hv'⟩ := (husers v).mp hmem
  exact fun hnone => hnone channel' hv'

theorem not_sound_of_dropped (h : Tracked w) (hv : v ∈ w.manager.subscribers channel)
    (hcall : call.unsubscribes = none) (hws : ws ∈ (step w call).manager.activeConnections v)
    (hdropped : NotSubscribed (step w call).manager v) : ¬ Sound (step w call) := by
  intro hsound
  have hnot : ¬ Lost w.manager (step w call).manager v := by
    rintro ⟨-, hnone⟩
    rw [hnone] at hws
    cases hws
  have hwatching : (step w call).watching channel v :=
    ⟨.inl ⟨(h.watching channel v).mpr hv, by rw [hcall]; exact nofun⟩, hnot⟩
  exact hsound.subscribed hwatching (h.proper channel v hv) hws hdropped

theorem Sends.dropped
    (h : Sends network m users m' delivered) (hv : v ∈ users) (hsome : ¬ AllOrNone m network v) :
    (∃ ws, ws ∈ m'.activeConnections v) ∧ NotSubscribed m' v := by
  simp only [AllOrNone, not_or, not_forall] at hsome
  obtain ⟨⟨ws, hws, hfails⟩, ws', hws', harrives⟩ := hsome
  refine ⟨⟨ws', (h.connections v ws').mpr ⟨hws', fun _ => ?_⟩⟩, fun channel hmem => ?_⟩
  · simpa using harrives
  · exact hfails (((h.subscribers channel v).mp hmem).2 hv ws hws)

/-- All or none of the sends arrive, or a user who should have subscriptions has none. -/
theorem allOrNone_of_sound (h : Tracked w) (hsound : Sound (step w call))
    (hpossible : Possible w.manager call) (hcall : call.unsubscribes = none)
    (hsends : Sends network w.manager users (exec w.manager call).manager delivered)
    (hmem : v ∈ users) (hv : v ∈ w.manager.subscribers channel) :
    AllOrNone w.manager network v := by
  by_contra hsome
  obtain ⟨⟨ws, hws⟩, hdropped⟩ := hsends.dropped hmem hsome
  rw [← step_manager hpossible] at hws hdropped
  exact not_sound_of_dropped h hv hcall hws hdropped hsound

/-- Who subscribes is connected, or has a subscription and no connection. -/
theorem connected_of_sound (hsound : Sound (step w call)) (hpossible : Possible w.manager call)
    (hbroadcast : ¬ call.IsBroadcast)
    (hdisconnect : ∀ websocket userId, call ≠ .disconnect websocket userId)
    (hmessage : ∀ userId network, call ≠ .sendPersonalMessage userId network)
    (hcall : call.subscribes = some (channel, v)) : w.manager.activeConnections v ≠ [] := by
  intro hnone
  obtain ⟨hsubscribers, hconnections⟩ := exec_edits hbroadcast hdisconnect hmessage
  refine hsound.connected channel v ?_ ?_
  · rw [step_manager hpossible]
    exact (hsubscribers channel v).mpr (.inr hcall)
  · rw [step_manager hpossible]
    refine List.eq_nil_iff_forall_not_mem.mpr fun ws hws => ?_
    rcases (hconnections v ws).mp hws with hws | rfl
    · rw [hnone] at hws
      cases hws
    · cases hcall

/-- A call that is not harmless raises, or leaves a user without subscriptions who should have them,
or one with subscriptions and no connection. -/
theorem harmless_of_live (h : Tracked w) (hreaches : Reaches w call)
    (hsound : Sound (step w call)) : Harmless w call := by
  by_contra hno
  cases call with
  | disconnect websocket userId =>
    simp only [Harmless, NotSubscribed, not_or, not_forall, not_not] at hno
    obtain ⟨⟨ws, hws, hne⟩, channel, hv⟩ := hno
    have hkept : ws ∈ (step w (.disconnect websocket userId)).manager.activeConnections userId :=
      mem_disconnect_connections.mpr ⟨hws, fun heq => hne heq.2⟩
    refine not_sound_of_dropped h hv rfl hkept (fun channel' hmem => ?_) hsound
    exact (mem_disconnect_subscribers.mp hmem).2 rfl
  | sendPersonalMessage userId network =>
    simp only [Harmless, NotSubscribed, not_or, not_forall, not_not] at hno
    obtain ⟨hsome, channel, hv⟩ := hno
    exact hsome (allOrNone_of_sound h hsound trivial rfl (sends_personal network w.manager userId)
      (List.mem_singleton_self userId) hv)
  | broadcastBatteryUpdate batteryId order network =>
    simp only [Harmless, not_forall] at hno
    obtain ⟨hperm, v, hv, ws, hws, hfails⟩ := hno
    exact live_of_fails (fun v hv => hperm.mem_iff.mp hv) (hperm.mem_iff.mpr hv) hws
      (Bool.eq_false_iff.mpr hfails) (hreaches hperm trivial).1
  | broadcastAlert batteryId order network =>
    simp only [Harmless, not_forall] at hno
    obtain ⟨hperm, v, hv, ws, hws, hfails⟩ := hno
    exact live_of_fails (fun v hv => hperm.mem_iff.mp hv) (hperm.mem_iff.mpr hv) hws
      (Bool.eq_false_iff.mpr hfails) (hreaches hperm trivial).1
  | broadcastOrderUpdate orderId network =>
    refine hno fun v hv => ?_
    obtain ⟨channel, -, hsubscribed⟩ := (mem_orderTargets network).mp hv
    have hsends := (sends_each network w.manager (w.manager.orderTargets orderId)).2
    exact allOrNone_of_sound h hsound trivial rfl hsends hv hsubscribed
  | broadcastInventoryUpdate affectedLocations network =>
    refine hno ⟨?_, fun keys hkeys v hv => ?_⟩
    · by_contra hwell
      exact not_wellFormed hwell (hreaches trivial trivial).1
    · obtain ⟨channel, -, hsubscribed⟩ := (mem_inventoryTargets network hkeys).mp hv
      have hexec : exec w.manager (.broadcastInventoryUpdate affectedLocations network) =
          sendEach network w.manager (w.manager.inventoryTargets keys) := by
        simp only [exec, ConnectionManager.broadcastInventoryUpdate, hkeys]
      have hsends := (sends_each network w.manager (w.manager.inventoryTargets keys)).2
      rw [← hexec] at hsends
      exact allOrNone_of_sound h hsound trivial rfl hsends hv hsubscribed
  | _ =>
    refine hno ?_
    rintro ⟨channel, v⟩ hcall
    exact connected_of_sound hsound trivial id (by simp) (by simp) hcall

end

/-- **Live subscriptions.**  In any run of calls, with any sends failing, broadcasts do not raise
and reach everyone who has subscribed and is connected, and who has a subscription is connected,
exactly as long as every call is harmless. -/
theorem live_iff (calls : List Call) :
    Along step (fun w call => Reaches w call ∧ Sound (step w call)) {} calls ↔
      Along step Harmless {} calls :=
  along_iff_along (I := Tracked) (fun _ _ h hharmless => h.step hharmless)
    (fun _ _ h => ⟨fun hlive => harmless_of_live h hlive.1 hlive.2, fun hharmless =>
      ⟨reaches_of_harmless h hharmless, (h.step hharmless).sound⟩⟩) tracked_start calls

def twoWatchers : List Call :=
  [.connect 1 7, .connect 2 8, .subscribeBattery 7 3, .subscribeBattery 8 3]

theorem twoWatchers_tracked : Tracked (run step {} twoWatchers) := by
  refine run_invariant_of_along (fun _ _ h hharmless => h.step hharmless) tracked_start
    ⟨by simp [Harmless, Call.subscribes], by simp [Harmless, Call.subscribes], ?_, ?_, trivial⟩
  · rintro subscription ⟨⟩
    decide
  · rintro subscription ⟨⟩
    decide

/-- The send to the first user fails: nothing is sent to the second one, and the broadcast
raises. -/
theorem second_watcher_missed :
    ((run step {} twoWatchers).watching (.battery 3) 8 ∧
      2 ∈ (run step {} twoWatchers).manager.activeConnections 8 ∧
      (exec (run step {} twoWatchers).manager
        (.broadcastBatteryUpdate 3 [8, 7] fun userId _ => userId = 8)).error =
          some (.runtimeError "Set changed size during iteration") ∧
      (exec (run step {} twoWatchers).manager
        (.broadcastBatteryUpdate 3 [7, 8] fun userId _ => userId = 8)).delivered = []) ∧
    ¬ Along step (fun w call => Reaches w call ∧ Sound (step w call)) {}
      (twoWatchers ++ [.broadcastBatteryUpdate 3 [7, 8] fun userId _ => userId = 8]) := by
  refine ⟨⟨(twoWatchers_tracked.watching _ _).mpr (by decide), by decide, by decide, by decide⟩,
    fun hall => ?_⟩
  have herror := ((along_append.mp hall).2.1.1 (by decide) trivial).1
  exact absurd herror (by decide)

end WezuBackend.Realtime.Connections
