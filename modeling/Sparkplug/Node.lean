import Sparkplug.ClientOps
import Sparkplug.Publishable

/-!
The node: its clients, its devices, and the queue of events between them.

Clients only append to the event queue; the node processes it later, one event at a time.
An action is one step of the thread that runs the node, a call of the application, or
something a library does to its client, so a run is any interleaving of the three.
-/

namespace Sparkplug

open Machine

abbrev ClientId := ℕ

inductive SparkplugClientMode
  | single | primaryHost
  deriving DecidableEq

structure NodeOptions where
  groupId : Str
  nodeId : Str
  primaryHost : Str := []
  publishPeriod : ℤ := 30
  /-- The `Node Control/Rebirth` command is enabled. -/
  rebirth : Bool := true

/-- One metric of a decoded command. The name is optional, a metric may be given by its alias
alone. -/
structure CommandMetric where
  name : Option Str
  booleanValue : Bool

/-- What a node is built from: its options, the decoder of payloads, the classes of its
clients, and what its publishables are constructed with. -/
structure NodeSetup where
  options : NodeOptions
  decodePayload : Str → Option (List CommandMetric) := fun _ => none
  kind : ClientId → ClientKind
  metrics : PubId → List Metric := fun _ => []
  name : ℕ → Str := fun _ => []
  period : ℕ → ℤ := fun _ => 30

/-- A node without metrics of its own whose clients are all of one class. -/
def NodeSetup.plain (kind : ClientKind) : NodeSetup where
  options := { groupId := ['g'], nodeId := ['n'], rebirth := false }
  kind := fun _ => kind

/-- The same with one metric in every publishable. -/
def NodeSetup.oneMetric : NodeSetup :=
  { NodeSetup.plain .pahoAsync with
    metrics := fun _ => [{ name := ['m'], dataType := 3, data := [0] }] }

/-- A node. A client and a publishable come with everything that was done to them. The last
two fields are history variables: the payloads of the `STATE` messages processed from a client
in its session, the last one first, and the devices whose birth was requested since the last
birth of the node. -/
structure Node where
  groupBaseTopic : Str
  nodeId : Str
  clientTopics : ClientTopicOptions
  topicsConfigured : Bool
  hostMode : SparkplugClientMode
  decodePayload : Str → Option (List CommandMetric)
  enabled : Bool := false
  activeClient : Option ClientId := none
  clients : List ClientId := []
  client : ClientId → Traced Client.step
  devices : List ℕ := []
  pub : PubId → Traced Publishable.step
  eventQueue : List (ClientId × ClientEvent) := []
  nextRequest : ℕ := 0
  time : ℕ := 0
  /-- A null pointer was dereferenced: there are no more steps. -/
  faulted : Bool := false
  hostStates : ClientId → List Str := fun _ => []
  born : List ℕ := []

/-- Everything that can happen. -/
inductive NodeCall
  | addClient
  | addDevice (d : ℕ)
  | enable
  | executeClient (i : ClientId)
  | processEvent
  | poll (p : PubId) (elapsed : ℤ)
  | requestPublish (p : PubId) (isBirth : Bool)
  | setValue (p : PubId) (k : ℕ) (value : Bytes)
  | setProperty (p : PubId) (k : ℕ) (path : List ℕ) (value : Bytes)
  | update (p : PubId) (elapsed : ℤ)
  | stopClient (i : ClientId)
  | setTime (t : ℕ)
  | library (i : ClientId) (l : LibraryCall)

namespace Node

def ncmd : Str := "NCMD".toList
def dcmd : Str := "DCMD".toList
def rebirthName : Str := "Node Control/Rebirth".toList
def online : Str := "\"online\": true".toList
def offline : Str := "\"online\": false".toList

/-- `s.find(part) != npos`. -/
def contains (s part : Str) : Bool := s.tails.any part.isPrefixOf

/-! ### Construction -/

def slash : Str := "/".toList

def configureTopics (o : NodeOptions) : Str × ClientTopicOptions × SparkplugClientMode :=
  let base := "spBv1.0".toList ++ slash ++ o.groupId ++ slash
  (base,
    { nodeCommandTopic := base ++ ncmd ++ slash ++ o.nodeId
      nodeDeathTopic := base ++ "NDEATH".toList ++ slash ++ o.nodeId
      deviceCommandTopic := base ++ dcmd ++ slash ++ o.nodeId ++ "/+".toList
      primaryHostTopic :=
        if o.primaryHost = [] then [] else "spBv1.0".toList ++ "/STATE/".toList ++ o.primaryHost },
    if o.primaryHost = [] then .single else .primaryHost)

/-- The metric the constructor adds for rebirths. -/
def rebirthMetric : Metric where
  name := rebirthName
  dataType := 11
  callback := some .rebirth
  properties := [.leaf "writable".toList 11 false [1]]
  data := [0]

/-- A new node, with the clients and publishables it will ever have. The constructor adds the
rebirth metric first, and each metric is added in front of those before it. -/
def create (s : NodeSetup) : Node :=
  let o := s.options
  let (base, topics, mode) := configureTopics o
  let configured := !o.groupId.isEmpty && !o.nodeId.isEmpty
  { groupBaseTopic := if configured then base else []
    nodeId := if configured then o.nodeId else []
    clientTopics := if configured then topics else {}
    topicsConfigured := configured
    hostMode := if configured then mode else .single
    decodePayload := s.decodePayload
    client := fun i => .start Client.step { kind := s.kind i }
    pub := fun p => .start Publishable.step <|
      match p with
      | .node => { publishPeriod := o.publishPeriod, nextPublish := o.publishPeriod,
                   metrics := (s.metrics .node).map Metric.constructed ++
                     if o.rebirth then [rebirthMetric] else [] }
      | .device d => { name := s.name d, publishPeriod := s.period d, nextPublish := s.period d,
                       metrics := (s.metrics (.device d)).map Metric.constructed } }

/-! ### Calls to publishables and clients -/

def callPub (n : Node) (p : PubId) (a : PublishableCall) : Node :=
  { n with pub := fun q => if q = p then (n.pub p).act a else n.pub q }

/-- What a client does reaches the node through `onEvent`, which only queues it, and
through `addToPayload`. -/
def absorb (n : Node) (i : ClientId) : Effect → Node
  | .onEvent e => { n with eventQueue := n.eventQueue ++ [(i, e)] }
  | .delivered r => { n with eventQueue := n.eventQueue ++ [(i, .delivered r.publisher)] }
  | .undelivered r => { n with eventQueue := n.eventQueue ++ [(i, .undelivered r.publisher)] }
  | .addToPayload p isBirth => n.callPub p (.addToPayload isBirth n.time)
  | _ => n

def callClient (n : Node) (i : ClientId) (a : ClientCall) : Node :=
  let t := (n.client i).act a
  (t.cur.log.drop (n.client i).cur.log.length).foldl (absorb · i ·)
    { n with client := fun j => if j = i then t else n.client j }

/-! ### Publishing -/

def topic (n : Node) (p : PubId) (isBirth : Bool) : Str :=
  match p with
  | .node => n.groupBaseTopic ++ (if isBirth then "NBIRTH" else "NDATA").toList ++ slash ++ n.nodeId
  | .device d => n.groupBaseTopic ++ (if isBirth then "DBIRTH" else "DDATA").toList ++ slash ++
      n.nodeId ++ slash ++ (n.pub (.device d)).cur.name

/-- A birth of the node begins a new round of births. -/
def noteBirth (n : Node) (p : PubId) (isBirth : Bool) : Node :=
  match p, isBirth with
  | .node, true => { n with born := [] }
  | .device d, true => { n with born := d :: n.born }
  | _, false => n

/-- The request goes to the active client; without one, the source calls a method of a null
pointer. -/
def publish (n : Node) (p : PubId) (isBirth : Bool) : Node :=
  if !(n.pub p).cur.canPublish && !isBirth then n
  else
    let n := n.callPub p .publishing
    match n.activeClient with
    | none => { n with faulted := true }
    | some i =>
      ({ n with nextRequest := n.nextRequest + 1 }.noteBirth p isBirth).callClient i
        (.request { id := n.nextRequest, isBirth, publisher := p, topic := n.topic p isBirth })

def publishBirth (n : Node) : Node :=
  n.devices.foldl (fun n d => n.publish (.device d) true) (n.publish .node true)

/-- The publishable is the node or one of its devices. -/
def owns (n : Node) : PubId → Bool
  | .node => true
  | .device d => d ∈ n.devices

def requestPublish (n : Node) (p : PubId) (isBirth : Bool) : Node :=
  if n.owns p then n.publish p isBirth else n

/-- One publishable's turn in `execute`, which is there with an active client only. -/
def poll (n : Node) (p : PubId) (elapsed : ℤ) : Node :=
  if n.enabled && n.activeClient.isSome && n.owns p then
    let n := n.callPub p (.update elapsed)
    if (n.pub p).cur.canPublish then n.publish p false else n
  else n

/-! ### Activation -/

def setActiveClient (n : Node) (c : Option ClientId) : Node :=
  let n :=
    match n.activeClient with
    | some old => if c ≠ some old then n.callClient old .deactivate else n
    | none => n
  let n := { n with activeClient := c }
  if c.isSome then n.publishBirth else n

def activateClient (n : Node) (i : ClientId) : Node := n.callClient i .activate

def deactivateClient (n : Node) (i : ClientId) : Node :=
  if n.activeClient = some i then n.setActiveClient none else n

/-! ### Messages -/

/-- `Metric::onCommand`. The callbacks of the application are calls of their own. -/
def onCommand (n : Node) (m : Metric) (c : CommandMetric) : Node :=
  if m.callback = some .rebirth ∧ c.booleanValue then n.publishBirth else n

/-- One round of the loop of `handleCommand`: the names of the metrics are compared with the
one in the command, which `strcmp` takes to be there. -/
def commandMetric (n : Node) (p : PubId) (c : CommandMetric) : Node :=
  match c.name with
  | none => if (n.pub p).cur.metrics = [] then n else { n with faulted := true }
  | some name =>
    match (n.pub p).cur.metrics.find? (fun m => m.name = name) with
    | some m => n.onCommand m c
    | none => n

/-- The metrics of a command are handled from the last to the first. -/
def handleCommand (n : Node) (p : PubId) (payload : Str) : Node :=
  match n.decodePayload payload with
  | none => n
  | some cs => cs.reverse.foldl (commandMetric · p ·) n

/-- The device a device command is for: the topic ends in its name. -/
def commandDevice (n : Node) (topic : Str) : Option ℕ :=
  if n.clientTopics.deviceCommandTopic ≠ [] ∧
      n.clientTopics.deviceCommandTopic.length ≤ topic.length then
    n.devices.find? fun d =>
      topic.drop (n.clientTopics.deviceCommandTopic.length - 1) = (n.pub (.device d)).cur.name
  else none

/-- The topic of the `STATE` messages of the primary host. -/
def isHostTopic (n : Node) (topic : Str) : Bool :=
  n.clientTopics.primaryHostTopic ≠ [] && topic = n.clientTopics.primaryHostTopic

def setHostStates (n : Node) (i : ClientId) (payloads : List Str) : Node :=
  { n with hostStates := fun j => if j = i then payloads else n.hostStates j }

/-- A `STATE` message is noted, whatever it says. -/
def noteHost (n : Node) (i : ClientId) (topic payload : Str) : Node :=
  if n.isHostTopic topic then n.setHostStates i (payload :: n.hostStates i) else n

def onCommandMessage (n : Node) (i : ClientId) (topic payload : Str) : Node :=
  if n.activeClient = some i then
    if contains topic ncmd then
      if topic = n.clientTopics.nodeCommandTopic then n.handleCommand .node payload else n
    else if contains topic dcmd then
      match n.commandDevice topic with
      | some d => n.handleCommand (.device d) payload
      | none => n
    else n
  else n

def onHostState (n : Node) (i : ClientId) (topic payload : Str) : Node :=
  if n.isHostTopic topic then
    if contains payload online then if n.activeClient ≠ some i then n.activateClient i else n
    else if contains payload offline then
      if n.activeClient = some i then n.deactivateClient i else n
    else n
  else n

/-- A device command to a node without devices is left at once. -/
def leavesAtOnce (n : Node) (i : ClientId) (topic : Str) : Bool :=
  n.activeClient = some i && !contains topic ncmd && contains topic dcmd && n.devices.isEmpty

def onMessage (n : Node) (i : ClientId) (topic payload : Str) : Node :=
  let n := n.noteHost i topic payload
  if n.leavesAtOnce i topic then n
  else (n.onCommandMessage i topic payload).onHostState i topic payload

/-! ### Events -/

/-- A session begins or ends: there was no `STATE` message in it. -/
def forgetHost (n : Node) (i : ClientId) : Node := n.setHostStates i []

/-- Both outcomes of a request are handled in the same way. -/
def handleEvent (n : Node) (i : ClientId) : ClientEvent → Node
  | .delivered p => n.callPub p .published
  | .undelivered p => n.callPub p .published
  | .message topic payload => n.onMessage i topic payload
  | .connected =>
    let n := n.forgetHost i
    if n.hostMode = .single then n.activateClient i else n
  | .disconnected => (n.forgetHost i).deactivateClient i
  | .active => n.setActiveClient (some i)
  | .deactive => n

/-- One round of the loop of `processEvents`. -/
def processEvent (n : Node) : Node :=
  match n.eventQueue with
  | [] => n
  | (i, e) :: rest => { n with eventQueue := rest }.handleEvent i e

/-! ### The remaining operations -/

/-- The loop of `enable` ends at the first client that cannot be configured. -/
def configureClients (n : Node) : List ClientId → Bool × Node
  | [] => (true, n)
  | i :: is =>
    if ((n.client i).cur.configure n.clientTopics).1 = 0 then
      (n.callClient i (.configure n.clientTopics)).configureClients is
    else (false, n.callClient i (.configure n.clientTopics))

def enable (n : Node) : ℤ × Node :=
  if n.topicsConfigured = false then (-1, n)
  else if n.clients = [] then (-2, n)
  else
    let (configured, n) := n.configureClients n.clients
    if configured then (0, { n with enabled := true }) else (-3, n)

/-- One round of the loop of `stop`. -/
def stopClient (n : Node) (i : ClientId) : Node :=
  (n.callClient i .deactivate).callClient i .disconnect

def handle (n : Node) : NodeCall → Node
  | .addClient => { n with clients := n.clients ++ [n.clients.length] }
  | .addDevice d => { n with devices := d :: n.devices }
  | .enable => n.enable.2
  | .executeClient i => if i ∈ n.clients then n.callClient i .execute else n
  | .processEvent => n.processEvent
  | .poll p elapsed => n.poll p elapsed
  | .requestPublish p isBirth => n.requestPublish p isBirth
  | .setValue p k value => n.callPub p (.setValue k value n.time)
  | .setProperty p k path value => n.callPub p (.setProperty k path value)
  | .update p elapsed => n.callPub p (.update elapsed)
  | .stopClient i => if i ∈ n.clients then n.stopClient i else n
  | .setTime t => { n with time := t }
  | .library i l => if i ∈ n.clients then n.callClient i (.library l) else n

/-- Nothing happens after a fault. -/
def step (n : Node) (a : NodeCall) : Node := if n.faulted then n else n.handle a

end Node

end Sparkplug
