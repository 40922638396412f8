/-
  File:      CacheDirectory/Model/Server.lean
  Subject:   THE COORDINATOR SERVER (server.hpp, server.cpp).

  `handle` is one turn of the loop in `handle_connection`: a frame was received, the lock is
  held, the directory is called, frames are sent. `CoordinatorServer` is the directory with the
  connections that are open; `Event` is what can happen next to it: a connection is accepted, a
  frame arrives on one, one is closed (by the other side, or by a frame that `receive` refuses).
  The lock makes each of these one step. A connection keeps the exchanges on it, for the
  theorems to speak about; no step reads them.
-/
import CacheDirectory.Model.Messages
import CacheDirectory.Model.Operation

namespace CacheDirectory

open Library Protocol

/-! ## 1. Answers -/

/-- A double of the ranking has a bit pattern. -/
class WireDouble (F : Type) extends ScoreArith F where
  toBits : F → F64

instance : WireDouble Float where
  toBits x := ⟨x.toBits⟩

/-- A query result as it goes on the wire. -/
def QueryResult.onWire {F : Type} [WireDouble F] (r : QueryResult F) : QueryResult F64 :=
  { r with
    candidates := r.candidates.map fun c =>
      { c with
        score := WireDouble.toBits c.score
        factors := c.factors.map fun f =>
          { f with
            weight := WireDouble.toBits f.weight
            value := WireDouble.toBits f.value
            contribution := WireDouble.toBits f.contribution } } }

namespace CoordinatorServer

def respondAck (a : AckResult) : Frame := { kind := .ack, payload := serializeAck a }

def respondError (e : DirectoryError) (m : Bytes) : Frame :=
  { kind := .error, payload := serializeError e m }

def respondFailure (f : Failure) : Frame := respondError f.error (ascii f.errorText)

def respondMalformed (text : String) : Frame := respondError .protocolViolation (ascii text)

/-! ## 2. The cases of the switch -/

/-- What the environment decides while a frame is handled: the readings of the clock, the orders
    of the hash containers, the files. -/
structure Surroundings where
  clk : Nat → TimestampNs
  bucket : Enumeration Nat
  maps : MapOrders
  fileAt : Bytes → Option Bytes
  written : FileOutcome

/-- What a connection thread keeps between frames: the boot of the last HELLO. -/
structure Handler where
  boot : WorkerBootId := {}
  haveBoot : Bool := false
  deriving DecidableEq

/-- The case of most kinds: deserialize, call, answer. -/
def serve {α β : Type} (parsed : Deserialized α) (malformed : String)
    (call : α → Directory → Result β × Directory) (done : β → Bytes) (d : Directory) :
    List Frame × Directory :=
  match parsed with
  | .error _ => ([respondMalformed malformed], d)
  | .ok m =>
      match call m d with
      | (.error f, d') => ([respondFailure f], d')
      | (.ok b, d') => ([respondAck { message := done b }], d')

def hello (payload : Bytes) (h : Handler) (d : Directory) : List Frame × Handler × Directory :=
  match deserializeHello {} payload with
  | .error _ => ([respondMalformed "malformed hello"], h, d)
  | .ok s =>
      match d.registerWorkerSession s with
      | (.error f, d') => ([respondFailure f], h, d')
      | (.ok _, d') =>
          ([{ kind := .ack, payload := serializeEpochReply d'.epoch }],
            { boot := s.boot, haveBoot := true }, d')

/-- The inner switch of INVALIDATE: what it answers by itself, and what it leaves in `r`, which
    starts out as a failure without an error. -/
def invalidateByKind (w : Surroundings) (m : InvalidateMsg) (d : Directory) :
    List Frame × Result InvalidateResult × Directory :=
  match m.kind.toNat with
  | 0 => ([], d.invalidateState ⟨m.target⟩ ⟨m.generation⟩ m.env m.reason w.clk)
  | 1 => ([], d.invalidateCache ⟨m.target⟩ m.env m.reason w.clk)
  | 2 => ([], d.invalidateReplica ⟨m.target⟩ m.env m.reason w.clk)
  | 3 => ([], d.invalidateLocation ⟨m.target⟩ m.env m.reason w.clk)
  | 4 => ([], d.invalidateWorkerBoot ⟨m.target⟩ m.env m.reason w.clk)
  | _ => ([respondMalformed "bad invalidation kind"], .error { error := .none }, d)

def invalidate (w : Surroundings) (payload : Bytes) (d : Directory) : List Frame × Directory :=
  match deserializeInvalidate payload with
  | .error _ => ([respondMalformed "malformed invalidate"], d)
  | .ok m =>
      match invalidateByKind w m d with
      | (spoken, .error f, d') => (spoken ++ [respondFailure f], d')
      | (spoken, .ok r, d') => (spoken ++ [respondAck { message := r.message }], d')

/-- `r.value`, whether the result is a success or not. -/
def valueOf {F : Type} (r : Result (QueryResult F)) : QueryResult F :=
  match r with
  | .ok v => v
  | .error _ => {}

def query (F : Type) [WireDouble F] (w : Surroundings) (payload : Bytes) (d : Directory) :
    List Frame × Directory :=
  match deserializeQuery {} payload with
  | .error _ => ([respondMalformed "malformed query"], d)
  | .ok q =>
      let (r, d') := d.query (F := F) w.bucket q
      ([{ kind := .queryResult, payload := serializeQueryResult (valueOf r).onWire }], d')

/-- RECOVER; a read outside the buffer would answer nothing. -/
def recover (w : Surroundings) (payload : Bytes) (d : Directory) : List Frame × Directory :=
  match deserializePath payload with
  | .error _ => ([respondMalformed "malformed path"], d)
  | .ok path =>
      match d.recover (w.fileAt path) with
      | none => ([], d)
      | some (.error f, d') => ([respondFailure f], d')
      | some (.ok _, d') => ([respondAck { message := ascii "recovered" }], d')

/-- One turn of the loop in `handle_connection`. -/
def handle (F : Type) [WireDouble F] (w : Surroundings) (frame : Frame) (h : Handler)
    (d : Directory) : List Frame × Handler × Directory :=
  let kept (r : List Frame × Directory) : List Frame × Handler × Directory := (r.1, h, r.2)
  match frame.kind with
  | .hello => hello frame.payload h d
  | .registerCache =>
      kept (serve (deserializeCache {} frame.payload) "malformed cache"
        Directory.registerCache (fun _ => ascii "cache registered") d)
  | .registerLocation =>
      kept (serve (deserializeLocation {} frame.payload) "malformed location"
        Directory.registerLocation (fun _ => ascii "location registered") d)
  | .registerReplica =>
      kept (serve (deserializeReplica {} frame.payload) "malformed replica"
        Directory.registerReplica (fun _ => ascii "replica registered") d)
  | .registerEntry =>
      kept (serve (deserializeRecord {} frame.payload) "malformed record"
        (fun r => Directory.registerEntry r w.clk) (fun _ => ascii "entry registered") d)
  | .updateHealth =>
      kept (serve (deserializeUpdateHealth frame.payload) "malformed update"
        (fun m => Directory.updateHealth m.id m.health m.env (w.clk 0))
        (fun _ => ascii "health updated") d)
  | .updateFreshness =>
      kept (serve (deserializeUpdateFreshness frame.payload) "malformed update"
        (fun m => Directory.updateFreshness m.id m.freshness m.env (w.clk 0))
        (fun _ => ascii "freshness updated") d)
  | .updateReachability =>
      kept (serve (deserializeUpdateReachability frame.payload) "malformed update"
        (fun m => Directory.updateReachability m.id m.reachability m.env (w.clk 0))
        (fun _ => ascii "reachability updated") d)
  | .updateIntegrity =>
      kept (serve (deserializeUpdateIntegrity frame.payload) "malformed update"
        (fun m => Directory.updateIntegrity m.id m.integrity m.env (w.clk 0))
        (fun _ => ascii "integrity updated") d)
  | .renewLease =>
      kept (serve (deserializeRenewLease frame.payload) "malformed renew"
        (fun m => Directory.renewLease m.leaseId m.env (w.clk 0))
        (fun _ => ascii "lease renewed") d)
  | .invalidate => kept (invalidate w frame.payload d)
  | .tombstone =>
      kept (serve (deserializeTombstone {} frame.payload) "malformed tombstone"
        Directory.tombstone (fun _ => ascii "tombstone recorded") d)
  | .query => kept (query F w frame.payload d)
  | .save =>
      kept (serve (deserializePath frame.payload) "malformed path"
        (fun path d => (d.save w.maps w.written path, d)) (fun _ => ascii "saved") d)
  | .recover => kept (recover w frame.payload d)
  | _ => kept ([respondMalformed "unknown message kind"], d)

/-- The end of the loop: `receive` failed. -/
def hangUp (h : Handler) (d : Directory) : Directory :=
  if h.haveBoot then (d.onWorkerLoss h.boot (ascii "connection closed")).2 else d

end CoordinatorServer

/-! ## 3. Connections -/

/-- One frame received and what was sent for it, in order. -/
structure Exchange where
  request : Frame
  answers : List Frame
  deriving DecidableEq

/-- An open connection. -/
structure Connection where
  id : Nat
  handler : CoordinatorServer.Handler := {}
  exchanges : List Exchange := []
  deriving DecidableEq

structure CoordinatorServer where
  dir : Directory := {}
  connections : KeyedMap Connection.id := ∅

namespace CoordinatorServer

inductive Event where
  | accept (id : Nat)
  | frame (id : Nat) (w : Surroundings) (frame : Frame)
  | close (id : Nat)

/-- One event. -/
def step (F : Type) [WireDouble F] (e : Event) (s : CoordinatorServer) : CoordinatorServer :=
  match e with
  | .accept id =>
      if s.connections.contains id then s
      else { s with connections := s.connections.put { id := id } }
  | .frame id w frame =>
      match s.connections.find id with
      | none => s
      | some c =>
          let (answers, handler, dir) := handle F w frame c.handler s.dir
          { dir := dir
            connections := s.connections.put
              { c with
                handler := handler
                exchanges := c.exchanges ++ [{ request := frame, answers := answers }] } }
  | .close id =>
      match s.connections.find id with
      | none => s
      | some c =>
          { dir := hangUp c.handler s.dir, connections := s.connections.erase id }

/-- `start`: a fresh directory, or one recovered from the persist file when there is one. -/
def start (persisted : Option (Option Bytes)) : Option CoordinatorServer :=
  match persisted with
  | none => some {}
  | some contents =>
      match Directory.recover contents {} with
      | some (.ok _, d) => some { dir := d }
      | _ => none

end CoordinatorServer

end CacheDirectory
