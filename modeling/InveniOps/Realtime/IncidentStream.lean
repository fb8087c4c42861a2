import InveniOps.Lib.Lts
import InveniOps.Auth.Accounts
import InveniOps.Realtime.IncidentEvents

/-!
# The incident stream

Redis, the `IncidentEventSubscriber` of each replica, the responses that
`handleStream` of `api/routes/incidentStream.ts` holds open, and the `EventSource` of each
client, as one transition system.
-/

namespace InveniOps.Realtime

open Lib Domain Auth

variable {F : NumberFormat}

/-! ### Subscribers -/

/-- Whether a connection is yet to subscribe, subscribed or closed. -/
inductive ConnectionState
  | offline | subscribed | closed
deriving DecidableEq

/-- A connection in subscribe mode, with the messages on their way to its listener. -/
structure Connection where
  state : ConnectionState
  /-- The call of `start` that made it has not returned. -/
  starting : Bool
  queue : List (List Char)
deriving DecidableEq

/-- `IncidentEventSubscriber`: the connections that it made, which of them is
`this.connection`, and what the calls of `stop` under way have quit. -/
structure Subscriber where
  connections : List Connection
  connection : Option ℕ
  quitting : List (Option ℕ)
deriving DecidableEq

/-- A message of the channel goes to the connections that are subscribed to it. -/
def Connection.accept (message : List Char) (c : Connection) : Connection :=
  if c.state = .subscribed then { c with queue := c.queue ++ [message] } else c

namespace Subscriber

variable (S : Subscriber)

/-- The message reaches every subscribed connection. -/
def accept (message : List Char) : Subscriber :=
  { S with connections := S.connections.map (·.accept message) }

/-- `start`, up to the connection. -/
def start : Subscriber :=
  if S.connection.isSome then S
  else { S with connections := S.connections ++ [⟨.offline, true, []⟩] }

/-- `stop`, up to the answer to `QUIT`. -/
def stop : Subscriber := { S with quitting := S.quitting ++ [S.connection] }

/-- The end of `stop`: what it has quit is closed. -/
def stopped (quit : Option ℕ) (quitting : List (Option ℕ)) : Subscriber where
  connections :=
    match quit with
    | none => S.connections
    | some c => S.connections.modify c fun _ => ⟨.closed, false, []⟩
  connection := none
  quitting := quitting

end Subscriber

/-! ### Responses -/

/-- A response that is held open, and the client that reads it. -/
structure EventStream where
  replica : ℕ
  /-- The listener is subscribed. -/
  listening : Bool
  /-- The interval is armed. -/
  heartbeat : Bool
  /-- What is written and not yet read. -/
  wire : List Char
  /-- The client has not left. -/
  reading : Bool
  parser : StreamParser
  dispatched : List StreamMessage

/-- `handleStream` up to its first write: it goes on for a token that is verified. -/
def handleStream (cfg : AuthConfig) (token : Option String) (now : Instant) :
    Except Unauthorized Unit :=
  match token with
  | none => .error ⟨"unauthorized", "missing token query parameter"⟩
  | some token =>
    if token = "" then .error ⟨"unauthorized", "missing token query parameter"⟩
    else
      match cfg.verifyAccessToken token now with
      | .error message => .error ⟨"unauthorized", message⟩
      | .ok _ => .ok ()

namespace EventStream

variable (x : EventStream)

/-- Writes to the response. -/
def write (text : List Char) : EventStream := { x with wire := x.wire ++ text }

/-- The comment that opens a stream. -/
def connectedText : List Char := StreamParser.commentText " connected".toList

/-- The comment that keeps a stream alive. -/
def heartbeatText : List Char := StreamParser.commentText " heartbeat".toList

/-- What `handleStream` sets up. -/
def opened (r : ℕ) : EventStream := ⟨r, true, true, connectedText, true, .start, []⟩

/-- The listener of a stream. -/
def listen (r : ℕ) (event : ReceivedEvent F) : EventStream :=
  if x.replica = r ∧ x.listening then x.write event.text else x

/-- A chunk that the client reads. -/
def read (n : ℕ) : EventStream :=
  { x with
    wire := x.wire.drop n
    parser := (x.parser.feedAll (x.wire.take n)).1
    dispatched := x.dispatched ++ (x.parser.feedAll (x.wire.take n)).2 }

/-- The handler of `close`. -/
def close : EventStream := { x with listening := false, heartbeat := false }

/-- `removeAllListeners`. -/
def unlisten (r : ℕ) : EventStream := if x.replica = r then { x with listening := false } else x

end EventStream

/-! ### The system -/

/-- The subscribers of the replicas, and the streams that their clients hold. -/
structure StreamSystem where
  subscribers : List Subscriber
  streams : List EventStream

/-- What can happen to the replicas, to Redis and to the clients. -/
inductive StreamStep
  /-- `safePublish`; the channel may be out of reach. -/
  | publish (event : IncidentEvent) (reached : Bool)
  /-- Something else is published on the channel. -/
  | publishOther (message : List Char)
  /-- `start` of a subscriber, the subscription of a connection, and the end of `start`. -/
  | start (r : ℕ)
  | subscribed (r c : ℕ)
  | started (r c : ℕ)
  /-- A connection is lost, with what was on its way. -/
  | disconnected (r c : ℕ)
  /-- The listener for `message`. -/
  | received (r c : ℕ)
  /-- `stop`, and its end. -/
  | stop (r : ℕ)
  | stopped (r : ℕ)
  /-- `GET /stream`. -/
  | request (r : ℕ) (token : Option String) (now : Instant)
  | heartbeat (j : ℕ)
  /-- A client reads some of what is written. -/
  | read (j n : ℕ)
  /-- A client leaves. -/
  | leave (j : ℕ)
  /-- The request of a stream emits `close`. -/
  | close (j : ℕ)

namespace StreamSystem

variable (s : StreamSystem)

/-- Every subscriber is served. -/
def broadcast (message : List Char) : StreamSystem :=
  { s with subscribers := s.subscribers.map (·.accept message) }

/-- A subscriber's connection. -/
def connection? (r c : ℕ) : Option Connection :=
  (s.subscribers[r]?).bind (·.connections[c]?)

/-- Replaces a subscriber's connection. -/
def setConnection (r c : ℕ) (conn : Connection) : StreamSystem :=
  { s with
    subscribers := s.subscribers.modify r fun S =>
      { S with connections := S.connections.modify c fun _ => conn } }

variable (F) in
/-- A message at the listener of a connection. -/
def emit (r : ℕ) (message : List Char) : StreamSystem :=
  match (receive message : Option (ReceivedEvent F)) with
  | none => s
  | some event => { s with streams := s.streams.map (·.listen r event) }

variable (F) in
/-- One event, where it is possible. -/
def step (cfg : AuthConfig) : StreamStep → Option StreamSystem
  | .publish event reached => some (if reached then s.broadcast (event.message F) else s)
  | .publishOther message => some (s.broadcast message)
  | .start r => some { s with subscribers := s.subscribers.modify r Subscriber.start }
  | .subscribed r c =>
    match s.connection? r c with
    | some ⟨.offline, starting, queue⟩ => some (s.setConnection r c ⟨.subscribed, starting, queue⟩)
    | _ => none
  | .started r c =>
    match s.connection? r c with
    | some ⟨.subscribed, true, queue⟩ =>
      let s' := s.setConnection r c ⟨.subscribed, false, queue⟩
      some { s' with
        subscribers := s'.subscribers.modify r fun S => { S with connection := some c } }
    | _ => none
  | .disconnected r c =>
    match s.connection? r c with
    | some ⟨.subscribed, starting, _⟩ => some (s.setConnection r c ⟨.offline, starting, []⟩)
    | _ => none
  | .received r c =>
    match s.connection? r c with
    | some ⟨.subscribed, starting, message :: queue⟩ =>
      some ((s.setConnection r c ⟨.subscribed, starting, queue⟩).emit F r message)
    | _ => none
  | .stop r =>
    some
      { subscribers := s.subscribers.modify r Subscriber.stop
        streams := s.streams.map (·.unlisten r) }
  | .stopped r =>
    match s.subscribers[r]? with
    | some ⟨_, _, quit :: quitting⟩ =>
      some { s with subscribers := s.subscribers.modify r (·.stopped quit quitting) }
    | _ => none
  | .request r token now =>
    match handleStream cfg token now with
    | .error _ => some s
    | .ok () =>
      if r < s.subscribers.length then some { s with streams := s.streams ++ [.opened r] }
      else none
  | .heartbeat j =>
    match s.streams[j]? with
    | some x =>
      if x.heartbeat then
        some { s with streams := s.streams.modify j (·.write EventStream.heartbeatText) }
      else none
    | none => none
  | .read j n =>
    match s.streams[j]? with
    | some x => if x.reading then some { s with streams := s.streams.modify j (·.read n) } else none
    | none => none
  | .leave j => some { s with streams := s.streams.modify j ({ · with reading := false }) }
  | .close j => some { s with streams := s.streams.modify j EventStream.close }

variable (F) in
/-- The transition system of the incident stream. -/
def lts (cfg : AuthConfig) : Lts StreamSystem StreamStep := ⟨fun s e => s.step F cfg e⟩

/-- Some replicas that have called `start`, as `index.ts` does before it listens. -/
def init (n : ℕ) : StreamSystem := ⟨List.replicate n (Subscriber.start ⟨[], none, []⟩), []⟩

end StreamSystem

end InveniOps.Realtime
