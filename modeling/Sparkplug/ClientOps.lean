import Sparkplug.ClientPublish

/-!
The operations of a client: what the node calls, and what the MQTT library calls back.
-/

namespace Sparkplug

/-- What the MQTT library does of its own accord: it answers questions, its connection goes
up or down, and it calls the client back. -/
inductive LibraryCall
  | answers (l : Answers)
  | link (up : Bool)
  | onDelivery (token : ℤ)
  | onDeliveryFailure (token : ℤ)
  | onMessage (topic payload : Str)
  | onDisconnect
  | onConnect
  | onConnectFailure
  | onCommandSubscription
  | onCommandSubscribeFailure
  | onSubscribeResult (token : ℤ) (reasonCodes : List ℕ)

/-- Everything that is ever done to a client. -/
inductive ClientCall
  | configure (topics : ClientTopicOptions)
  | activate
  | deactivate
  | request (r : PublishRequest)
  | disconnect
  | execute
  | library (l : LibraryCall)

namespace Client

/-! ### Subscriptions -/

/-- A command subscription was accepted or refused. -/
def commandsResult (c : Client) (accepted : Bool) : Client :=
  { c.emit (.subscribed accepted) with commands := some accepted }

/-- `subscribeToCommands`. Only `CppMqttClient` returns a negative code for a failure. -/
def subscribeToCommands (c : Client) : ℤ × Client :=
  let code := c.returnCode
  let c := c.asked .code
  match c.kind with
  | .pahoSync =>
    if code ≠ mqttSuccess then (exitFailure, c.commandsResult false)
    else (0, (c.commandsResult true).activated)
  | .pahoAsync =>
    if code ≠ mqttSuccess then (exitFailure, c.commandsResult false)
    else (0, c.commandsResult true)
  | .cppMqtt =>
    if code = -1 then (code, c.commandsResult false)
    else (0, { c.commandsResult true with subscriptionToken := code })

/-- `unsubscribeToCommands`. `CppMqttClient` does nothing. -/
def unsubscribeToCommands (c : Client) : ℤ × Client :=
  match c.kind with
  | .pahoSync | .pahoAsync =>
    if c.returnCode ≠ mqttSuccess then (exitFailure, c.asked .code)
    else (0, { c.asked .code with commands := none })
  | .cppMqtt => (0, c)

def activate (c : Client) : ℤ × Client :=
  if c.isPrimary then (0, c)
  else
    let (code, c) := (c.setPrimary true).subscribeToCommands
    if code < 0 then (code, c.setPrimary false) else (0, c)

def deactivate (c : Client) : ℤ × Client :=
  if c.isPrimary = false then (0, c)
  else
    let (code, c) := c.unsubscribeToCommands
    if code < 0 then (code, c) else (0, c.setPrimary false)

/-- The result of `subscribeToPrimaryHost` is never looked at. -/
def subscribeToPrimaryHost (c : Client) : Client := c.asked .code

/-! ### The connection -/

/-- A new connection: nothing is subscribed to and nothing is outstanding. -/
def connected (c : Client) : Client :=
  let c := ({ c with up := true, commands := none, inflight := [] }.setState .connected).emit
    (.onEvent .connected)
  if c.topics.primaryHostTopic ≠ [] then c.subscribeToPrimaryHost else c

def clientConnect (c : Client) : ℤ × Client :=
  let code := c.returnCode
  match c.kind with
  | .pahoSync =>
    if c.state ≠ .disconnected then (0, c)
    else
      let c := (c.setState .connecting).asked .code
      if code ≠ mqttSuccess then (exitFailure, c.onDisconnect) else (0, c.connected)
  | .pahoAsync =>
    if c.state ≠ .disconnected then (0, c)
    else
      let c := (c.setState .connecting).asked .code
      if code ≠ mqttSuccess then (exitFailure, c) else (0, c)
  | .cppMqtt => if code = -1 then (code, c.asked .code) else (0, c.asked .code)

def connect (c : Client) : ℤ × Client :=
  if c.state ≠ .disconnected then (0, c)
  else if c.configured = false then (-1, c)
  else
    let (code, c) := c.clientConnect
    if code < 0 then (code, c.setState .disconnected) else (0, c.setState .connecting)

/-- The code `clientDisconnect` returns is never looked at. -/
def clientDisconnect (c : Client) : Client :=
  match c.kind with
  | .pahoSync =>
    let code := c.returnCode
    let c := (c.setState .disconnecting).asked .code
    if code ≠ mqttSuccess then c else c.endSession.setState .disconnected
  | .pahoAsync => (c.setState .disconnecting).asked .code
  | .cppMqtt =>
    if c.isConnected then ((c.asked .connected).setState .disconnecting).asked .code
    else c.asked .connected

def disconnect (c : Client) : Client :=
  if c.state = .disconnected then c else c.clientDisconnect

/-- `configureClient` of `CppMqttClient` registers a will with a new `bdSeq` and cannot
fail. -/
def configureClient (c : Client) : ℤ × Client :=
  let code := c.returnCode
  match c.kind with
  | .pahoSync => if code ≠ mqttSuccess then (exitFailure, c.asked .code) else (0, c.asked .code)
  | .pahoAsync =>
    -- the client is created, then its callbacks are set
    let c := c.asked .code
    if code ≠ mqttSuccess then (exitFailure, c)
    else if c.returnCode ≠ mqttSuccess then (exitFailure, c.asked .code)
    else (0, c.asked .code)
  | .cppMqtt => (0, c.incrementBdSeq)

def configure (c : Client) (topics : ClientTopicOptions) : ℤ × Client :=
  let (code, c) := { c with topics := topics }.configureClient
  if code < 0 then (code, c) else (0, { c with configured := true })

/-! ### Requests and deliveries -/

def request (c : Client) (r : PublishRequest) : Client :=
  let c := c.enqueue r
  if c.publishQueue.length = 1 then
    if c.isConnected then (c.asked .connected).publishFromQueue else c.asked .connected
  else c

/-- The front request has been delivered. -/
def deliverFront (c : Client) (r : PublishRequest) : Client :=
  ({ c with publishQueue := c.publishQueue.tail }.delivered r).publishFromQueue

/-- The library's callback for a token is no longer outstanding. -/
def calledBack (c : Client) (token : ℤ) : Client := { c with inflight := c.inflight.erase token }

/-- `PahoAsyncClient::onDelivery` and `CppMqttClient::onDeliveryComplete`. The front of the
queue is read whether or not there is one. -/
def onDelivery (c : Client) (token : ℤ) : Client :=
  match c.publishQueue with
  | [] => (c.calledBack token).emit .emptyFront
  | r :: _ =>
    let c := (c.calledBack token).emit (.access r.id)
    if r.token = token then c.deliverFront r else c

/-- The end of the part of `PahoSyncClient::sync` about the queue, and whether `sync` goes
on: with no token in flight the queue is published from. -/
def syncPending (c : Client) : Client × Bool :=
  match c.getPendingDeliveryTokens with
  | (some [], _) => ((c.asked .pending).publishFromQueue, true)
  | (some (_ :: _), _) => (c.asked .pending, true)
  | (none, result) =>
    if result = mqttDisconnected then ((c.asked .pending).onDisconnect, false)
    else (c.asked .pending, true)

/-- The part of `PahoSyncClient::sync` about the queue, and whether `sync` goes on. -/
def syncQueue (c : Client) : Client × Bool :=
  match c.publishQueue with
  | [] => (c, true)
  | r :: _ =>
    let result := c.waitForCompletion
    let c := (c.emit (.access r.id)).asked .completion
    if result = mqttSuccess then ((c.calledBack r.token).deliverFront r).syncPending
    else if result = mqttDisconnected then (c.onDisconnect, false)
    else c.syncPending

/-- The receive loop of `PahoSyncClient::sync`. -/
def syncReceive (c : Client) : Client :=
  let (messages, result) := c.receive
  let c := messages.foldl (fun c m => c.messageReceived m.1 m.2) (c.asked .received)
  if result = mqttDisconnected then c.onDisconnect else c

/-- The other two clients do nothing here but let their library call back. -/
def sync (c : Client) : Client :=
  match c.kind with
  | .pahoSync => if c.syncQueue.2 then c.syncQueue.1.syncReceive else c.syncQueue.1
  | .pahoAsync | .cppMqtt => c

def execute (c : Client) : Client :=
  if c.state = .disconnected then c.connect.2.sync else c.sync

/-! ### Callbacks -/

/-- A negative answer to a subscription: an MQTT reason code of `0x80` and more. -/
def refusal (reasonCodes : List ℕ) : Bool := reasonCodes.any (128 ≤ ·)

/-- `CppMqttClient::onSubscribeResult` does not look at the reason codes. -/
def onSubscribeResult (c : Client) (token : ℤ) (reasonCodes : List ℕ) : Client :=
  if c.subscriptionToken = token then
    (if refusal reasonCodes then { c with commands := some false } else c).activated
  else c

/-- The callbacks a class registers with its library; answers and the link are not
callbacks. `PahoSyncClient` registers none. -/
def registers : ClientKind → LibraryCall → Bool
  | _, .answers _ | _, .link _ => true
  | .pahoSync, _ => false
  | .pahoAsync, .onSubscribeResult .. => false
  | .cppMqtt, .onCommandSubscription | .cppMqtt, .onCommandSubscribeFailure => false
  | _, _ => true

def handle (c : Client) : LibraryCall → Client
  | .answers l => { c with lib := l }
  | .link up => { c with up := up }
  | .onDelivery token => c.onDelivery token
  | .onDeliveryFailure token => (c.calledBack token).onDeliveryFailure token
  | .onMessage topic payload => c.messageReceived topic payload
  | .onDisconnect => c.onDisconnect
  | .onConnect => c.connected
  | .onConnectFailure => c.setState .disconnected
  | .onCommandSubscription => c.activated
  | .onCommandSubscribeFailure => { c with commands := some false }
  | .onSubscribeResult token reasonCodes => c.onSubscribeResult token reasonCodes

def callback (c : Client) (l : LibraryCall) : Client :=
  if registers c.kind l then c.handle l else c

def step (c : Client) : ClientCall → Client
  | .configure topics => (c.configure topics).2
  | .activate => c.activate.2
  | .deactivate => c.deactivate.2
  | .request r => c.request r
  | .disconnect => c.disconnect
  | .execute => c.execute
  | .library l => c.callback l

end Client

end Sparkplug
