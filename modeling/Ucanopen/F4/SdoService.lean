import Ucanopen.Sdo.Execute
import Ucanopen.Lib.BoundedQueue
import Ucanopen.Lib.Run

/-! # The F4 SDO service and its main loop

`recv` runs in the receive interrupt and fills `rsdo_queue_`; `handle` and
`send` run in `Server::run` and move requests to `tsdo_queue_` and responses to
the CAN module. A step of the main loop is one iteration of their loops, or one
of the phases around them, and the interrupt may arrive between any two steps.
-/

namespace Ucanopen.F4

open Bytes

variable {α E : Type}

structure SdoService (α : Type) where
  rsdoRxattr : α
  rsdoQueue : BoundedQueue CanPayload 16
  tsdoId : CanId
  tsdoQueue : BoundedQueue CanPayload 16

/-- How `recv` left: `overrun` is the path that calls `on_sdo_overrun()`. -/
inductive Reception where
  | mismatch
  | overrun
  | pushed
  deriving Repr, DecidableEq

namespace SdoService

def tsdoLen : BitVec 8 := cobSizes .tsdo

/-- The constructor, given the attribute `register_rxmessage` returned. -/
def init (attr : α) (node : NodeId) : SdoService α where
  rsdoRxattr := attr
  rsdoQueue := .nil
  tsdoId := calculateCobId .tsdo node
  tsdoQueue := .nil

def recv [DecidableEq α] (s : SdoService α) (attr : α) (frame : CanFrame) :
    SdoService α × Reception :=
  if attr ≠ s.rsdoRxattr then (s, .mismatch)
  else if full : s.rsdoQueue.full then (s, .overrun)
  else
    ({ s with rsdoQueue := s.rsdoQueue.push frame.payload (Bool.eq_false_iff.mpr full) }, .pushed)

/-- `if (!tsdo_queue_.full()) tsdo_queue_.push(tsdo_payload);` -/
def pushResponse (s : SdoService α) (tsdoPayload : CanPayload) : SdoService α :=
  if full : s.tsdoQueue.full then s
  else { s with tsdoQueue := s.tsdoQueue.push tsdoPayload (Bool.eq_false_iff.mpr full) }

/-- One round of the loop of `handle`, on a request taken from the queue. -/
def handleIteration (port : Port 8 E) (s : SdoService α) (core : Core E) (request : CanPayload) :
    SdoService α × Core E :=
  let s := { s with rsdoQueue := s.rsdoQueue.pop }
  let outcome := port.execute core request
  match outcome.1 with
  | none => (s, outcome.2)
  | some tsdoPayload => (s.pushResponse tsdoPayload, outcome.2)

/-- One round of the loop of `send`, on a response taken from the queue: the
    frame given to `put_frame`, and the service after `pop`. -/
def sendIteration (s : SdoService α) (payload : CanPayload) : CanFrame × SdoService α :=
  (⟨s.tsdoId, tsdoLen, payload⟩, { s with tsdoQueue := s.tsdoQueue.pop })

end SdoService

/-- A matching frame, as `recv` met it. -/
structure Arrival where
  payload : CanPayload
  accepted : Bool
  deriving Repr, DecidableEq

/-- A popped request: what it was answered, in which activation of `handle`, and
    whether `tsdo_queue_` was full when the answer was ready. -/
structure Served where
  request : CanPayload
  response : Option CanPayload
  activation : Nat
  queueFull : Bool
  deriving Repr, DecidableEq

/-- Where `Server::run` stands. The stages around the SDO phases are those of the
    other services and of the application. -/
inductive Stage where
  | beforeSend
  | send
  | beforeHandle
  | handle
  | afterHandle
  deriving Repr, DecidableEq

/-- The service with its core and main loop, and the record of the run. -/
structure State (α E : Type) where
  sdo : SdoService α
  core : Core E
  stage : Stage
  /-- Calls of `on_sdo_overrun()`. -/
  overruns : Nat
  /-- Arguments of `put_frame`, oldest first. -/
  putFrames : List CanFrame
  arrivals : List Arrival
  served : List Served
  activations : Nat

inductive Event (α : Type) where
  | recv (attr : α) (frame : CanFrame)
  | main

namespace State

def init (attr : α) (node : NodeId) (m : Machine E) : State α E where
  sdo := .init attr node
  core := .start m
  stage := .beforeSend
  overruns := 0
  putFrames := []
  arrivals := []
  served := []
  activations := 0

/-- Requests `recv` pushed, in arrival order. -/
def accepted (s : State α E) : List CanPayload := (s.arrivals.filter (·.accepted)).map (·.payload)

/-- Matching frames `recv` did not push. -/
def rejected (s : State α E) : List CanPayload := (s.arrivals.filter (!·.accepted)).map (·.payload)

/-- Requests `handle` popped, in that order. -/
def popped (s : State α E) : List CanPayload := s.served.map (·.request)

/-- Every response `handle` computed. -/
def produced (s : State α E) : List CanPayload := s.served.filterMap (·.response)

/-- What left `handle`: handed to `put_frame` or still in `tsdo_queue_`. -/
def delivered (s : State α E) : List CanPayload :=
  s.putFrames.map (·.payload) ++ s.sdo.tsdoQueue.items

/-- The interrupt. -/
def recv [DecidableEq α] (s : State α E) (attr : α) (frame : CanFrame) : State α E :=
  match s.sdo.recv attr frame with
  | (_, .mismatch) => s
  | (_, .overrun) =>
      { s with overruns := s.overruns + 1, arrivals := s.arrivals ++ [⟨frame.payload, false⟩] }
  | (sdo, .pushed) => { s with sdo := sdo, arrivals := s.arrivals ++ [⟨frame.payload, true⟩] }

def handleIteration (port : Port 8 E) (s : State α E) (request : CanPayload) : State α E :=
  let (sdo, core) := s.sdo.handleIteration port s.core request
  { s with
    sdo := sdo
    core := core
    served := s.served ++ [{
      request := request
      response := (port.execute s.core request).1
      activation := s.activations
      queueFull := s.sdo.tsdoQueue.full }] }

def sendIteration (s : State α E) (payload : CanPayload) : State α E :=
  let (frame, sdo) := s.sdo.sendIteration payload
  { s with sdo := sdo, putFrames := s.putFrames ++ [frame] }

/-- The next step of `Server::run`, while no undefined behaviour was reached. -/
def main (port : Port 8 E) (s : State α E) : State α E :=
  match s.core.fault with
  | some _ => s
  | none =>
      match s.stage with
      | .beforeSend => { s with stage := .send }
      | .send =>
          match s.sdo.tsdoQueue.front? with
          | none => { s with stage := .beforeHandle }
          | some payload => s.sendIteration payload
      | .beforeHandle => { s with stage := .handle, activations := s.activations + 1 }
      | .handle =>
          match s.sdo.rsdoQueue.front? with
          | none => { s with stage := .afterHandle }
          | some request => s.handleIteration port request
      | .afterHandle => { s with stage := .beforeSend }

def step [DecidableEq α] (port : Port 8 E) (s : State α E) : Event α → State α E
  | .recv attr frame => s.recv attr frame
  | .main => s.main port

/-- A whole run of a freshly constructed server. -/
def runFrom [DecidableEq α] (port : Port 8 E) (attr : α) (node : NodeId) (m : Machine E)
    (schedule : List (Event α)) : State α E :=
  Run.run (step port) (init attr node m) schedule

end State

end Ucanopen.F4
