import Sparkplug.Metrics
import Sparkplug.Machine
import Mathlib.Data.Stream.Init

/-!
The state of a client: the fields of `SparkplugClient`, `PahoClient`, `PahoSyncClient`,
`PahoAsyncClient` and `CppMqttClient` in one record, with the kind saying which class the
object is of.

The MQTT library and the encoder are outside the program. What they answer is a stream
for each question, set from outside before an operation and consumed by it. What a client
does to its surroundings is appended to its log.
-/

namespace Sparkplug

inductive ClientKind
  | pahoSync | pahoAsync | cppMqtt
  deriving DecidableEq

inductive ClientState
  | connected | connecting | disconnected | disconnecting | publishingPayload
  deriving DecidableEq

/-- The address of a publishable: the node itself, or a device. -/
inductive PubId
  | node
  | device (d : ℕ)
  deriving DecidableEq

def PubId.isNode : PubId → Bool
  | node => true
  | device _ => false

/-- A publish request. `id` is its address, and `accepted` is a history variable: the MQTT
library has accepted it at least once. -/
structure PublishRequest where
  id : ℕ
  isBirth : Bool
  publisher : PubId
  topic : Str
  token : ℤ := -1
  retryCount : ℕ := 0
  accepted : Bool := false
  deriving DecidableEq

/-- A request that carries an NBIRTH. -/
def PublishRequest.isNodeBirth (r : PublishRequest) : Bool := r.publisher.isNode && r.isBirth

/-- What never changes about a request. -/
def PublishRequest.key (r : PublishRequest) : ℕ × PubId × Bool := (r.id, r.publisher, r.isBirth)

/-- The events a client raises, with their data. -/
inductive ClientEvent
  | message (topic payload : Str)
  | connected
  | disconnected
  | active
  | deactive
  | delivered (publisher : PubId)
  | undelivered (publisher : PubId)
  deriving DecidableEq

/-- What became of a payload: nothing was encoded, or the library refused the message, or
it accepted it under a token. -/
inductive Outcome
  | unencoded
  | refused
  | accepted (token : ℤ)
  deriving DecidableEq

def Outcome.token : Outcome → Option ℤ
  | .accepted token => some token
  | _ => none

/-- One payload built for a request, with its sequence number. -/
structure Attempt where
  request : PublishRequest
  seq : ℕ
  bdSeq : Option ℕ
  outcome : Outcome
  deriving DecidableEq

/-- What a client does to its surroundings. `delivered` and `undelivered` are the event
with the destruction of the request, `access` is a read or write of a request's fields,
`skipped` is a request processed in the disconnected state, and `emptyFront` is a read of
the front of an empty queue. -/
inductive Effect
  | skipped (r : PublishRequest)
  | attempt (a : Attempt)
  | addToPayload (publisher : PubId) (isBirth : Bool)
  | delivered (r : PublishRequest)
  | undelivered (r : PublishRequest)
  | onEvent (e : ClientEvent)
  | subscribed (accepted : Bool)
  | access (id : ℕ)
  | emptyFront
  deriving DecidableEq

/-- The answer to a publish: a return code and a token. `CppMqttClient` gets the token
alone, a negative one for a failure. -/
structure SendAnswer where
  code : ℤ
  token : ℤ

/-- The answers of the MQTT library and of the encoder. -/
structure Answers where
  connected : Stream' Bool := .const true
  code : Stream' ℤ := .const 0
  send : Stream' SendAnswer := .const ⟨0, 1⟩
  encoded : Stream' ℕ := .const 1
  /-- `MQTTClient_waitForCompletion`. -/
  completion : Stream' ℤ := .const 0
  /-- `MQTTClient_getPendingDeliveryTokens`: the tokens before the final `-1`, if the array
  is not `NULL`, and the return code. -/
  pending : Stream' (Option (List ℤ) × ℤ) := .const (some [], 0)
  /-- `MQTTClient_receive`: the messages of one round, and the code that ends it. -/
  received : Stream' (List (Str × Str) × ℤ) := .const ([], 0)

inductive Question
  | connected | code | send | encoded | completion | pending | received

def mqttSuccess : ℤ := 0
def mqttDisconnected : ℤ := -3
def exitFailure : ℤ := 1
def publishRetries : ℕ := 5

structure ClientTopicOptions where
  nodeCommandTopic : Str := []
  nodeDeathTopic : Str := []
  deviceCommandTopic : Str := []
  primaryHostTopic : Str := []

/-- A client. The last four fields are history variables, read by no function: whether the
connection was up when last heard of, whether a command subscription of the current
connection was accepted (`some true`) or refused, the tokens accepted in it whose callback
is outstanding, and the log. -/
structure Client where
  kind : ClientKind
  topics : ClientTopicOptions := {}
  configured : Bool := false
  state : ClientState := .disconnected
  isPrimary : Bool := false
  bdSeq : ℕ := 255
  payloadSequence : ℕ := 0
  publishQueue : List PublishRequest := []
  subscriptionToken : ℤ := -1
  lib : Answers := {}
  up : Bool := false
  commands : Option Bool := none
  inflight : List ℤ := []
  log : List Effect := []

namespace Client

def emit (c : Client) (e : Effect) : Client := { c with log := c.log ++ [e] }

/-! ### Questions to the library -/

/-- The next answer to a question has been used. -/
def asked (c : Client) : Question → Client
  | .connected => { c with
      up := c.lib.connected.head, lib := { c.lib with connected := c.lib.connected.tail } }
  | .code => { c with lib := { c.lib with code := c.lib.code.tail } }
  | .send => { c with lib := { c.lib with send := c.lib.send.tail } }
  | .encoded => { c with lib := { c.lib with encoded := c.lib.encoded.tail } }
  | .completion => { c with lib := { c.lib with completion := c.lib.completion.tail } }
  | .pending => { c with lib := { c.lib with pending := c.lib.pending.tail } }
  | .received => { c with lib := { c.lib with received := c.lib.received.tail } }

def isConnected (c : Client) : Bool := c.lib.connected.head
def returnCode (c : Client) : ℤ := c.lib.code.head
def sendAnswer (c : Client) : SendAnswer := c.lib.send.head
def encodedLength (c : Client) : ℕ := c.lib.encoded.head
def waitForCompletion (c : Client) : ℤ := c.lib.completion.head
def getPendingDeliveryTokens (c : Client) : Option (List ℤ) × ℤ := c.lib.pending.head
def receive (c : Client) : List (Str × Str) × ℤ := c.lib.received.head

/-! ### The base class -/

/-- `SparkplugClient::setPrimary`. It is not virtual, so it is the one the base class
calls, whatever the class of the object. -/
def setPrimary (c : Client) (isPrimary : Bool) : Client := { c with isPrimary := isPrimary }

def setState (c : Client) (state : ClientState) : Client :=
  if c.state = state then c
  else match state with
    | .disconnected => { c.setPrimary false with state := .disconnected }
    | s => { c with state := s }

def resetSequence (c : Client) : Client := { c with payloadSequence := 0 }

/-- `initializePayload` puts the counter, a byte, into the payload and increments it. -/
def initializePayload (c : Client) : Client :=
  { c with payloadSequence := (c.payloadSequence + 1) % 256 }

def incrementBdSeq (c : Client) : Client :=
  { c with bdSeq := if c.bdSeq = 255 then 0 else c.bdSeq + 1 }

def delivered (c : Client) (r : PublishRequest) : Client := c.emit (.delivered r)

def undelivered (c : Client) (r : PublishRequest) : Client := c.emit (.undelivered r)

def messageReceived (c : Client) (topic payload : Str) : Client :=
  c.emit (.onEvent (.message topic payload))

def activated (c : Client) : Client :=
  if c.isPrimary then c.emit (.onEvent .active) else c

/-- The connection is over, and with it its subscriptions and outstanding callbacks. -/
def endSession (c : Client) : Client := { c with up := false, commands := none, inflight := [] }

def disconnected (c : Client) : Client :=
  (c.endSession.setState .disconnected).emit (.onEvent .disconnected)

/-! ### The publish queue -/

def enqueue (c : Client) (r : PublishRequest) : Client :=
  { c with publishQueue := c.publishQueue ++ [r] }

def modifyFront (c : Client) (f : PublishRequest → PublishRequest) : Client :=
  { c with publishQueue := c.publishQueue.modifyHead f }

def dumpQueue (c : Client) : Client :=
  { c.publishQueue.foldl undelivered c with publishQueue := [] }

/-- `PahoClient::onDisconnect` and `CppMqttClient::onDisconnection`. -/
def onDisconnect (c : Client) : Client := c.dumpQueue.disconnected

/-- The record of one payload and of what became of it. -/
def attempted (c : Client) (r : PublishRequest) (seq : ℕ) (o : Outcome) : Client :=
  c.emit (.attempt ⟨r, seq, if r.isNodeBirth then some c.bdSeq else none, o⟩)

/-- The library has accepted the front request and its token has been stored. -/
def acceptedAttempt (c : Client) (r : PublishRequest) (seq : ℕ) (token : ℤ) : Client :=
  { c.attempted r seq (.accepted token) with
    publishQueue := c.publishQueue.modifyHead fun q => { q with token := token, accepted := true }
    inflight := token :: c.inflight }

end Client

end Sparkplug
