import Mathlib.Data.List.AList
import Mathlib.Data.Finset.Card
import OcppKit.Library.Transitions

/-!
# The session table of a CSMS

The server keeps one table of sessions, behind a mutex, with at most one entry an identity. A
connection goes through `accept` and `run_session` in sections, and between any two of them
those of other connections may come:

* the table is asked whether there is room (`OcppKit.Server.checkCapacity`);
* the session gets its number (`OcppKit.Server.number`);
* what the identity had in the table is taken out, and the session that was there is told to
  shut down – or it stays, and this connection goes (`OcppKit.Server.supersede`);
* the task of the session starts (`OcppKit.Server.spawn`);
* the session is entered into the table (`OcppKit.Server.insert`).

The task ends when it ends – the peer may close at any moment –, and then takes its own entry
out of the table (`OcppKit.Server.teardown`), or it is cut off before it does. And all of
`accept` is under a timeout, which drops it wherever it waits.

`OcppKit.Server.step` puts these sections together, and a run of it is one interleaving of
any number of connections.
-/

namespace OcppKit

/-! ### The server -/

/-- `SessionId`: the number of a session among all that were ever opened. -/
abbrev SessionId := ℕ

/-- Which connection. -/
abbrev ConnectionId := ℕ

/-- How far `accept` and `run_session` have come. -/
inductive ServePhase
  /-- The station has shown who it is. -/
  | handshaking
  /-- There was room in the table. -/
  | admitted
  /-- The session has its number. -/
  | numbered
  /-- What the identity had in the table was taken out. -/
  | claimed
  /-- The task of the session was started. -/
  | spawned
  /-- `run_session` has entered the session, and returned. -/
  | returned
  /-- The connection was turned away. -/
  | refused
  /-- `accept` was given up: by the handshake timeout, or before the session was begun. -/
  | timedOut
  deriving DecidableEq

/-- How far the task of a session has come. -/
inductive SessionTask
  /-- It was not started. -/
  | unborn
  /-- It runs. -/
  | running
  /-- It has ended, and taken its entry out of the table. -/
  | finished
  /-- It was cut off. -/
  | aborted
  deriving DecidableEq

/-- A connection, and the session it becomes. -/
structure Connection (I : Type) where
  /-- The identity from the path. -/
  identity : I
  /-- How far `accept` has come. -/
  phase : ServePhase
  /-- The number of the session, once it has one. -/
  id : SessionId
  /-- How far the task has come. -/
  task : SessionTask
  /-- Whether a successor has taken its entry and told it to shut down. -/
  superseded : Bool
  /-- When it took the table, counted over all connections: nothing the server keeps, but
  what older and newer mean. `0` before that. -/
  turn : ℕ
  deriving DecidableEq

/-- `Session`: an entry of the table. -/
structure Session where
  /-- The number of the session. -/
  id : SessionId
  /-- Whose handle and task these are. -/
  owner : ConnectionId
  deriving DecidableEq

/-- `SessionEvent`, as far as it concerns the table. -/
inductive SessionEvent (I : Type)
  /-- A station connected. -/
  | opened (identity : I)
  /-- It went away. -/
  | closed (identity : I)
  /-- A newer connection took its place. -/
  | superseded (identity : I)
  /-- A connection was refused. -/
  | refused (identity : I) (status : ℕ)

/-- The configuration of a `Csms`, as far as it concerns the table. -/
structure ServerConfig where
  /-- How many sessions there may be. -/
  maxConnections : ℕ
  /-- How many connections may be in the handshake at once. -/
  maxPendingHandshakes : ℕ
  /-- Whether a new connection closes the one there was. -/
  supersede : Bool

/-- The defaults of the builder. -/
def ServerConfig.default : ServerConfig := ⟨10000, 512, true⟩

/-- A `Csms` and its router. -/
structure Server (I : Type) where
  /-- The configuration. -/
  config : ServerConfig
  /-- `sessions`: the table. -/
  sessions : AList fun _ : I => Session
  /-- `next_session`: the next number. -/
  nextSession : SessionId
  /-- All connections there ever were. -/
  connections : List (Connection I)
  /-- How often the table was taken. -/
  turns : ℕ
  /-- What was sent to the subscribers. -/
  events : List (SessionEvent I)

/-- What can happen next. -/
inductive Action (I : Type)
  /-- A socket is accepted, and its upgrade request is read and authenticated. -/
  | accept (identity : I)
  /-- `accept` asks whether there is room. -/
  | checkCapacity (c : ConnectionId)
  /-- `run_session` takes a number. -/
  | number (c : ConnectionId)
  /-- `run_session` takes out what the identity had in the table. -/
  | supersede (c : ConnectionId)
  /-- `run_session` starts the task. -/
  | spawn (c : ConnectionId)
  /-- `run_session` enters the session. -/
  | insert (c : ConnectionId)
  /-- The handshake timeout drops `accept` where it waits; before there is a session a defect
  of the socket or of the request does as much. -/
  | timeOut (c : ConnectionId)
  /-- The task of the session ends: the peer closed, or the engine did. -/
  | teardown (c : ConnectionId)
  /-- A successor cuts the task off. -/
  | abort (c : ConnectionId)

namespace ServePhase

/-- `accept` is not over: it holds one of the handshake permits. -/
def pending : ServePhase → Bool
  | .returned | .refused | .timedOut => false
  | _ => true

/-- `accept` waits for something: the peer, or the mutex. -/
def waits : ServePhase → Bool
  | .handshaking | .admitted | .numbered | .spawned => true
  | _ => false

/-- `run_session` has taken the table and not yet entered the session. -/
def between : ServePhase → Bool
  | .claimed | .spawned => true
  | _ => false

end ServePhase

namespace Server

variable {I : Type}

/-- A server nobody has connected to. -/
def start (config : ServerConfig) : Server I := ⟨config, ∅, 0, [], 0, []⟩

/-- A connection becomes this. -/
def update (s : Server I) (c : ConnectionId) (f : Connection I → Connection I) : Server I :=
  { s with connections := s.connections.modify c f }

/-- A connection comes this far. -/
def advance (s : Server I) (c : ConnectionId) (phase : ServePhase) : Server I :=
  s.update c fun conn => { conn with phase := phase }

/-- An event is sent. -/
def send (s : Server I) (event : SessionEvent I) : Server I :=
  { s with events := s.events ++ [event] }

/-! ### The sections -/

/-- `serve_on`: a socket that got a permit is accepted. -/
def accept (s : Server I) (identity : I) : Option (Server I) :=
  if s.connections.countP (·.phase.pending) < s.config.maxPendingHandshakes then
    some { s with connections := s.connections ++
      [⟨identity, .handshaking, 0, .unborn, false, 0⟩] }
  else none

variable [DecidableEq I]

/-- `accept`: is there room? -/
def checkCapacity (s : Server I) (c : ConnectionId) (conn : Connection I) : Server I :=
  if s.config.maxConnections ≤ s.sessions.keys.length then
    (s.advance c .refused).send (.refused conn.identity 503)
  else s.advance c .admitted

omit [DecidableEq I] in
/-- `next_session_id` -/
def number (s : Server I) (c : ConnectionId) : Server I :=
  { s.update c fun conn => { conn with phase := .numbered, id := s.nextSession } with
    nextSession := s.nextSession + 1 }

omit [DecidableEq I] in
/-- The connection has the table to itself. -/
def take (s : Server I) (c : ConnectionId) : Server I :=
  { s.update c fun conn => { conn with phase := .claimed, turn := s.turns + 1 } with
    turns := s.turns + 1 }

/-- What the identity had in the table is taken out; with `supersede` off it is put back, and
the connection goes. -/
def supersede (s : Server I) (c : ConnectionId) (conn : Connection I) : Server I :=
  let taken : Server I := { s with sessions := s.sessions.erase conn.identity }
  match s.sessions.lookup conn.identity with
  | some previous =>
      if s.config.supersede then
        -- its successor hands it a shutdown, and cuts it off when that has taken too long
        ((taken.update previous.owner fun conn => { conn with superseded := true }).send
          (.superseded conn.identity)).take c
      else
        { taken with sessions := taken.sessions.insert conn.identity previous }.advance c .refused
  | none => taken.take c

omit [DecidableEq I] in
/-- The session is opened, and its task starts. -/
def spawn (s : Server I) (c : ConnectionId) (conn : Connection I) : Server I :=
  (s.update c fun conn => { conn with phase := .spawned, task := .running }).send
    (.opened conn.identity)

/-- The session is entered into the table. -/
def insert (s : Server I) (c : ConnectionId) (conn : Connection I) : Server I :=
  { s.advance c .returned with sessions := s.sessions.insert conn.identity ⟨conn.id, c⟩ }

/-- The task takes its own entry out of the table, and no other. -/
def teardown (s : Server I) (c : ConnectionId) (conn : Connection I) : Server I :=
  let sessions :=
    if (s.sessions.lookup conn.identity).any (fun session => session.id = conn.id) then
      s.sessions.erase conn.identity
    else s.sessions
  { s.update c fun conn => { conn with task := .finished } with sessions := sessions }.send
    (.closed conn.identity)

omit [DecidableEq I] in
/-- The task is cut off. -/
def abort (s : Server I) (c : ConnectionId) : Server I :=
  s.update c fun conn => { conn with task := .aborted }

/-! ### Steps -/

omit [DecidableEq I] in
/-- What a connection does, if it is where it does this. -/
def act (s : Server I) (c : ConnectionId) (ready : Connection I → Bool)
    (f : Connection I → Server I) : Option (Server I) :=
  (s.connections[c]?.filter ready).map f

/-- **One section**, if its turn has come. -/
def step (s : Server I) : Action I → Option (Server I)
  | .accept identity => s.accept identity
  | .checkCapacity c => s.act c (·.phase = .handshaking) (s.checkCapacity c)
  | .number c => s.act c (·.phase = .admitted) fun _ => s.number c
  | .supersede c => s.act c (·.phase = .numbered) (s.supersede c)
  | .spawn c => s.act c (·.phase = .claimed) (s.spawn c)
  | .insert c => s.act c (·.phase = .spawned) (s.insert c)
  | .timeOut c => s.act c (·.phase.waits) fun _ => s.advance c .timedOut
  | .teardown c => s.act c (·.task = .running) (s.teardown c)
  | .abort c => s.act c (fun conn => conn.superseded && conn.task = .running) fun _ => s.abort c

/-- A run: one interleaving. -/
def run (s : Server I) (actions : List (Action I)) : Option (Server I) :=
  Transitions.run step s actions

/-! ### The handle -/

/-- `CsmsHandle::session` -/
def session (s : Server I) (identity : I) : Option Session := s.sessions.lookup identity

omit [DecidableEq I] in
/-- `CsmsHandle::sessions` -/
def listed (s : Server I) : List I := s.sessions.keys

omit [DecidableEq I] in
/-- `CsmsHandle::len` -/
def len (s : Server I) : ℕ := s.sessions.keys.length

/-! ### What a section does to the connections -/

/-- This connection is in this state. -/
abbrev At (s : Server I) (c : ConnectionId) (conn : Connection I) : Prop :=
  s.connections[c]? = some conn

omit [DecidableEq I] in
theorem act_eq_some {s s' : Server I} {c : ConnectionId} {ready : Connection I → Bool}
    {f : Connection I → Server I} : s.act c ready f = some s' ↔
      ∃ conn, s.At c conn ∧ ready conn = true ∧ f conn = s' := by
  simp only [act, Option.map_eq_some_iff, Option.filter_eq_some_iff]
  constructor
  · rintro ⟨conn, ⟨hget, hready⟩, hf⟩
    exact ⟨conn, hget, hready, hf⟩
  · rintro ⟨conn, hget, hready, hf⟩
    exact ⟨conn, ⟨hget, hready⟩, hf⟩

omit [DecidableEq I] in
/-- The connection is changed, and no other. -/
theorem getElem?_update (s : Server I) (c d : ConnectionId) (f : Connection I → Connection I) :
    (s.update c f).connections[d]? =
      if c = d then s.connections[d]?.map f else s.connections[d]? := by
  rw [update, List.getElem?_modify]
  split
  · rfl
  · rw [Option.map_eq_map, Option.map_id']

omit [DecidableEq I] in
theorem eq_of_getElem?_update {s : Server I} {c d : ConnectionId}
    {f : Connection I → Connection I} {conn : Connection I}
    (h : (s.update c f).At d conn) :
    (c = d ∧ ∃ old, s.At d old ∧ conn = f old) ∨ (c ≠ d ∧ s.At d conn) := by
  rw [At, getElem?_update] at h
  split at h
  next hcd =>
    obtain ⟨old, hold, hconn⟩ := Option.map_eq_some_iff.mp h
    exact Or.inl ⟨hcd, old, hold, hconn.symm⟩
  next hcd => exact Or.inr ⟨hcd, h⟩

end Server

end OcppKit
