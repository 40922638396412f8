/-
  File:      CacheDirectory/Model/Client.lean
  Subject:   THE CLIENT (client.hpp, client.cpp).

  A call of `DcdClient` sends one request and waits for one frame. `Call` lists the calls with
  their arguments, `request` is what they send, `perform` what they make of the frame: the return
  value, `err` and the last error of the client. A call that fails before a frame is there leaves
  the last error as it was. Opening the connection is left out.
-/
import CacheDirectory.Model.Messages

namespace CacheDirectory

open Protocol

namespace Client

/-- `last_error_` and `last_error_text_`. -/
structure LastError where
  error : DirectoryError := .none
  text : Bytes := []
  deriving DecidableEq

/-- What a call that returned true has written for its caller. -/
inductive Value where
  | done
  | epoch (epoch : CoordinatorEpoch)
  | result (r : QueryResult F64)

/-- False with the text in `err`, or true; and the last error behind the call. -/
abbrev Outcome (α : Type) : Type := Except Bytes α × LastError

/-! ## 1. What comes back -/

/-- The lines for an ERROR frame, three times the same. `unset` is what the two locals hold when
    `deserialize_error` gives up, which is not looked at. -/
def onError {α : Type} (unset : DirectoryError × Bytes) (payload : Bytes) : Outcome α :=
  let (e, m) := match deserializeError payload with
    | .error _ => unset
    | .ok em => em
  (.error m, { error := e, text := m })

def sendWaitAck (unset : DirectoryError × Bytes) (resp : Except Bytes Frame) (c : LastError) :
    Outcome Value :=
  match resp with
  | .error err => (.error err, c)
  | .ok resp =>
      if resp.kind = .ack then
        match deserializeAck resp.payload with
        | .error _ => (.error (ascii "malformed ack"), c)
        | .ok a =>
            if !a.ok then (.error a.message, { error := .internal, text := a.message })
            else (.ok .done, c)
      else if resp.kind = .error then onError unset resp.payload
      else (.error (ascii "unexpected response"), c)

def hello (unset : DirectoryError × Bytes) (resp : Except Bytes Frame) (c : LastError) :
    Outcome Value :=
  match resp with
  | .error err => (.error err, c)
  | .ok resp =>
      if resp.kind ≠ .ack then
        if resp.kind = .error then onError unset resp.payload
        else (.error (ascii "hello rejected"), c)
      else
        match deserializeEpochReply resp.payload with
        | .error _ => (.error (ascii "malformed hello reply"), c)
        | .ok epoch => (.ok (.epoch epoch), c)

/-- `result` is the object of the caller, which the reader pushes into. -/
def query (unset : DirectoryError × Bytes) (result : QueryResult F64) (resp : Except Bytes Frame)
    (c : LastError) : Outcome Value :=
  match resp with
  | .error err => (.error err, c)
  | .ok resp =>
      if resp.kind ≠ .queryResult then
        if resp.kind = .error then onError unset resp.payload
        else (.error (ascii "query rejected"), c)
      else
        match deserializeQueryResult result resp.payload with
        | .error _ => (.error (ascii "malformed query result"), c)
        | .ok r => (.ok (.result r), c)

/-! ## 2. The calls -/

inductive Call where
  | hello (session : WorkerSession)
  | registerCache (cache : CacheDescriptor)
  | registerLocation (loc : LocationDescriptor)
  | registerReplica (rep : ReplicaDescriptor)
  | registerEntry (record : DirectoryRecord)
  | query (q : DirectoryQuery)
  | updateHealth (m : UpdateHealthMsg)
  | updateFreshness (m : UpdateRefreshMsg)
  | updateReachability (m : UpdateReachMsg)
  | updateIntegrity (m : UpdateIntegrityMsg)
  | renewLease (m : RenewLeaseMsg)
  | invalidate (msg : InvalidateMsg)
  | tombstone (t : TombstoneRecord)
  | save (path : Bytes)
  | recover (path : Bytes)

namespace Call

/-- The frame a call sends. -/
def request : Call → Frame
  | .hello session => { kind := .hello, payload := serializeHello session }
  | .registerCache cache => { kind := .registerCache, payload := serializeCache cache }
  | .registerLocation loc => { kind := .registerLocation, payload := serializeLocation loc }
  | .registerReplica rep => { kind := .registerReplica, payload := serializeReplica rep }
  | .registerEntry record => { kind := .registerEntry, payload := serializeRecord record }
  | .query q => { kind := .query, payload := serializeQuery q }
  | .updateHealth m => { kind := .updateHealth, payload := serializeUpdateHealth m }
  | .updateFreshness m => { kind := .updateFreshness, payload := serializeUpdateFreshness m }
  | .updateReachability m =>
      { kind := .updateReachability, payload := serializeUpdateReachability m }
  | .updateIntegrity m => { kind := .updateIntegrity, payload := serializeUpdateIntegrity m }
  | .renewLease m => { kind := .renewLease, payload := serializeRenewLease m }
  | .invalidate msg => { kind := .invalidate, payload := serializeInvalidate msg }
  | .tombstone t => { kind := .tombstone, payload := serializeTombstone t }
  | .save path => { kind := .save, payload := serializePath path }
  | .recover path => { kind := .recover, payload := serializePath path }

/-- What a call makes of the frame, or of the text `send` or `receive` left in `err`. -/
def perform (call : Call) (unset : DirectoryError × Bytes) (result : QueryResult F64)
    (resp : Except Bytes Frame) (c : LastError) : Outcome Value :=
  match call with
  | .hello _ => Client.hello unset resp c
  | .query _ => Client.query unset result resp c
  | _ => sendWaitAck unset resp c

variable {unset : DirectoryError × Bytes} {result : QueryResult F64} {resp : Except Bytes Frame}
  {c : LastError}

@[simp] theorem perform_hello (session : WorkerSession) :
    (Call.hello session).perform unset result resp c = Client.hello unset resp c := rfl

@[simp] theorem perform_query (q : DirectoryQuery) :
    (Call.query q).perform unset result resp c = Client.query unset result resp c := rfl

end Call

end Client

end CacheDirectory
