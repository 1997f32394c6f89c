import Ucanopen.Sdo.Execute
import Ucanopen.Lib.Run

/-! # The H7 SDO service and its main loop

Each direction has one slot and one flag. `recv_frame` runs in the receive
interrupt, `send` and `handle_recv_frames` in `Server::run`. A step of the main
loop is one statement of theirs, so the interrupt may arrive between any two.
-/

namespace Ucanopen.H7

open Bytes

variable {α E : Type}

inductive FrameRecvStatus where
  | success
  | attrMismatch
  | overrun
  deriving Repr, DecidableEq

structure RxMessage (α : Type) where
  attr : α
  isUnhandled : Bool
  frame : CanFrame

/-- The two fields of the FDCAN header that depend on the service. -/
structure TxHeader where
  identifier : CanId
  dataLength : BitVec 8
  deriving Repr, DecidableEq

structure TxMessage where
  header : TxHeader
  notSent : Bool
  payload : CanPayload

structure SdoService (α : Type) where
  rsdo : RxMessage α
  tsdo : TxMessage

namespace SdoService

/-- The constructor, given the attribute `register_message` returned. The frame
    and the payload are indeterminate, so any values will do. -/
def init (attr : α) (node : NodeId) (frame : CanFrame) (payload : CanPayload) : SdoService α where
  rsdo := ⟨attr, false, frame⟩
  tsdo := ⟨⟨calculateCobId .tsdo node, 8⟩, false, payload⟩

def getRxAttr (s : SdoService α) : List α := [s.rsdo.attr]

def recvFrame [DecidableEq α] (s : SdoService α) (attr : α) (frame : CanFrame) :
    FrameRecvStatus × SdoService α :=
  if attr ≠ s.rsdo.attr then (.attrMismatch, s)
  else if s.rsdo.isUnhandled then (.overrun, s)
  else (.success, { s with rsdo := { s.rsdo with frame := frame, isUnhandled := true } })

end SdoService

/-- The next statement of `Server::run`, with the local variables it needs: the
    request copied from the slot, and the response computed for it. -/
inductive Point where
  /-- The services before the SDO service in `run`. -/
  | beforeSend
  /-- `if (!_tsdo.not_sent) { return; }` -/
  | sendTest
  /-- `put_frame(_tsdo.header, _tsdo.payload);` -/
  | sendPut
  /-- `_tsdo.not_sent = false;` -/
  | sendClear
  /-- The other services between `send` and `handle_recv_frames`. -/
  | afterSend
  /-- `if (!_rsdo.is_unhandled) { return; }` -/
  | handleTest
  /-- `rsdo = from_payload(_rsdo.frame.payload);` -/
  | handleCopy
  /-- `_rsdo.is_unhandled = false;` -/
  | handleClear (request : CanPayload)
  /-- `if (rsdo.cs == sdo_cs_codes::abort) { return; }` -/
  | handleAbort (request : CanPayload)
  /-- The lookup and the access to the object. -/
  | handleExecute (request : CanPayload)
  /-- `_tsdo.payload = ...;` -/
  | handleStore (request response : CanPayload)
  /-- `_tsdo.not_sent = true;` -/
  | handleFlag (request : CanPayload)
  /-- The services after the SDO service in `run`. -/
  | afterHandle
  deriving Repr, DecidableEq

/-- The service with its core and main loop, and the record of the run. -/
structure State (α E : Type) where
  sdo : SdoService α
  core : Core E
  point : Point
  errcount : BitVec 64
  /-- What `put_frame` was given, oldest first. -/
  putFrames : List (TxHeader × CanPayload)
  /-- Payloads for which `recv_frame` returned `success`. -/
  accepted : List CanPayload
  /-- Payloads for which `recv_frame` returned `overrun`. -/
  rejected : List CanPayload
  /-- Requests `handle_recv_frames` has finished with, and what it answered. -/
  handled : List (CanPayload × Option CanPayload)

inductive Event (α : Type) where
  | recv (attr : α) (frame : CanFrame)
  | main

namespace State

def init (sdo : SdoService α) (m : Machine E) : State α E where
  sdo := sdo
  core := .start m
  point := .beforeSend
  errcount := 0
  putFrames := []
  accepted := []
  rejected := []
  handled := []

/-- The requests handled, in that order. -/
def requests (s : State α E) : List CanPayload := s.handled.map (·.1)

/-- The responses to them. -/
def responses (s : State α E) : List CanPayload := s.handled.filterMap (·.2)

/-- The response waiting in `_tsdo`. -/
def pending (s : State α E) : List CanPayload :=
  if s.sdo.tsdo.notSent then [s.sdo.tsdo.payload] else []

/-- `Server::on_frame_received` for the frames `_attr_map` routes to the service:
    those with an attribute that `get_rx_attr` returned. -/
def onFrameReceived [DecidableEq α] (s : State α E) (attr : α) (frame : CanFrame) : State α E :=
  if attr ∈ s.sdo.getRxAttr then
    match s.sdo.recvFrame attr frame with
    | (.success, sdo) => { s with sdo := sdo, accepted := s.accepted ++ [frame.payload] }
    | (.attrMismatch, sdo) => { s with sdo := sdo, errcount := s.errcount + 1 }
    | (.overrun, sdo) =>
        { s with
          sdo := sdo
          errcount := s.errcount + 1
          rejected := s.rejected ++ [frame.payload] }
  else s

/-- The next statement of `Server::run`, while no undefined behaviour was reached. -/
def main (port : Port 16 E) (s : State α E) : State α E :=
  match s.core.fault with
  | some _ => s
  | none =>
      match s.point with
      | .beforeSend => { s with point := .sendTest }
      | .sendTest => { s with point := if s.sdo.tsdo.notSent then .sendPut else .afterSend }
      | .sendPut =>
          { s with
            putFrames := s.putFrames ++ [(s.sdo.tsdo.header, s.sdo.tsdo.payload)]
            point := .sendClear }
      | .sendClear =>
          { s with
            sdo := { s.sdo with tsdo := { s.sdo.tsdo with notSent := false } }
            point := .afterSend }
      | .afterSend => { s with point := .handleTest }
      | .handleTest =>
          { s with point := if s.sdo.rsdo.isUnhandled then .handleCopy else .afterHandle }
      | .handleCopy => { s with point := .handleClear s.sdo.rsdo.frame.payload }
      | .handleClear request =>
          { s with
            sdo := { s.sdo with rsdo := { s.sdo.rsdo with isUnhandled := false } }
            point := .handleAbort request }
      | .handleAbort request =>
          if (ExpeditedSdo.fromPayload request).cs = SdoCsCodes.abort then
            { s with handled := s.handled ++ [(request, none)], point := .afterHandle }
          else { s with point := .handleExecute request }
      | .handleExecute request =>
          match port.execute s.core request with
          | (none, core) => { s with core := core }
          | (some response, core) => { s with core := core, point := .handleStore request response }
      | .handleStore request response =>
          { s with
            sdo := { s.sdo with tsdo := { s.sdo.tsdo with payload := response } }
            point := .handleFlag request }
      | .handleFlag request =>
          { s with
            sdo := { s.sdo with tsdo := { s.sdo.tsdo with notSent := true } }
            handled := s.handled ++ [(request, some s.sdo.tsdo.payload)]
            point := .afterHandle }
      | .afterHandle => { s with point := .beforeSend }

def step [DecidableEq α] (port : Port 16 E) (s : State α E) : Event α → State α E
  | .recv attr frame => s.onFrameReceived attr frame
  | .main => s.main port

/-- A whole run of a freshly constructed server. -/
def runFrom [DecidableEq α] (port : Port 16 E) (sdo : SdoService α) (m : Machine E)
    (schedule : List (Event α)) : State α E :=
  Run.run (step port) (init sdo m) schedule

end State

end Ucanopen.H7
