import Mathlib.Data.List.Forall2
import Mathlib.Data.List.Induction
import Ucanopen.Sdo.Work

/-! # Requests and responses as a client sees them

A client takes the responses in the order of its requests, of which all but the abort
frames are answered. Each response names the object that its request named, so a client
that has lost count can tell.
-/

namespace Ucanopen

open Exec

variable {w : Nat} {E : Type}

/-- The response names the object that the request names. -/
structure Echoes (request response : CanPayload) : Prop where
  index : (ExpeditedSdo.fromPayload response).index = (ExpeditedSdo.fromPayload request).index
  subindex :
    (ExpeditedSdo.fromPayload response).subindex = (ExpeditedSdo.fromPayload request).subindex

/-- Abort frames get no response. -/
def expectsResponse (p : CanPayload) : Bool :=
  (ExpeditedSdo.fromPayload p).cs != SdoCsCodes.abort

namespace Port

variable {port : Port w E}

/-- The abort frames of the port name the object they are built for. -/
def Keyed (port : Port w E) : Prop :=
  ∀ index subindex code, (port.abortSdo index subindex code).index = index ∧
    (port.abortSdo index subindex code).subindex = subindex

/-- A confirmation names the object of its request. -/
theorem Dispatched.key {rsdo : ExpeditedSdo} {m m' : Machine E} {tsdo : ExpeditedSdo}
    {r : EStateM.Result Fault (Machine E) (SdoAbortCode × ExpeditedSdo)}
    (ends : port.Dispatched rsdo m r) (ok : r = .ok (.noError, tsdo) m') :
    tsdo.index = rsdo.index ∧ tsdo.subindex = rsdo.subindex := by
  cases ends with
  | absent | command | readDenied | writeDenied =>
      exact absurd (EStateM.Result.ok.inj ok).1 nofun
  | @read a r found command permission ends =>
      cases r with
      | error => exact absurd ok nofun
      | ok outcome m'' =>
          obtain ⟨same, -⟩ := EStateM.Result.ok.inj ok
          obtain ⟨code, confirmed⟩ := Prod.mk.inj same
          rw [if_pos code] at confirmed
          rw [← confirmed]
          exact ⟨rfl, rfl⟩
  | @write a r found command permission ends =>
      cases r with
      | error => exact absurd ok nofun
      | ok code m'' =>
          obtain ⟨same, -⟩ := EStateM.Result.ok.inj ok
          obtain ⟨code, confirmed⟩ := Prod.mk.inj same
          rw [if_pos code] at confirmed
          rw [← confirmed]
          exact ⟨rfl, rfl⟩

theorem encode_echoes (keyed : port.Keyed) {p : CanPayload} {m m' : Machine E}
    {outcome : SdoAbortCode × ExpeditedSdo}
    (ran : (port.dispatch (ExpeditedSdo.fromPayload p)).run m = .ok outcome m') :
    Echoes p (port.encode (ExpeditedSdo.fromPayload p) outcome) := by
  obtain ⟨code, tsdo⟩ := outcome
  cases code with
  | noError =>
      obtain ⟨index, subindex⟩ := (port.dispatched (ExpeditedSdo.fromPayload p) m).key ran
      have decoded : ExpeditedSdo.fromPayload (port.encode (ExpeditedSdo.fromPayload p)
          (.noError, tsdo)) = tsdo := ExpeditedSdo.fromPayload_toPayload tsdo
      exact ⟨by rw [decoded, index], by rw [decoded, subindex]⟩
  | _ =>
      obtain ⟨index, subindex⟩ := keyed (ExpeditedSdo.fromPayload p).index
        (ExpeditedSdo.fromPayload p).subindex _
      constructor
      · exact (AbortSdo.key_of_fromPayload _).1.trans index
      · exact (AbortSdo.key_of_fromPayload _).2.trans subindex

end Port

/-- A request with its answer, as it should be. -/
def Exchanged : CanPayload × Option CanPayload → Prop
  | (p, none) => expectsResponse p = false
  | (p, some r) => expectsResponse p = true ∧ Echoes p r

theorem Port.execute_exchanged {port : Port w E} (keyed : port.Keyed) {c : Core E}
    {p : CanPayload} (alive : (port.execute c p).2.fault = none) :
    Exchanged (p, (port.execute c p).1) := by
  have before := port.execute_alive alive
  by_cases abort : (ExpeditedSdo.fromPayload p).cs = SdoCsCodes.abort
  · rw [port.execute_abort c abort]
    simp [Exchanged, expectsResponse, abort]
  · have request : expectsResponse p = true := by simp [expectsResponse, abort]
    rw [port.execute_dispatch before abort] at alive ⊢
    cases ran : (port.dispatch (ExpeditedSdo.fromPayload p)).run c.machine with
    | ok outcome m => exact ⟨request, Port.encode_echoes keyed ran⟩
    | error f m =>
        rw [ran] at alive
        exact absurd alive nofun

namespace Work

variable {port : Port w E}

theorem perform_alive {c : Core E} {work : Work E}
    (alive : (work.perform port c).2.fault = none) : c.fault = none := by
  cases work with
  | request p => exact port.execute_alive alive
  | application f => exact alive

/-- Unless undefined behaviour is reached, every request among the work is answered as
    it should be. -/
theorem exchanges_exchanged (keyed : port.Keyed) {c : Core E} (work : List (Work E))
    (alive : (Server.after (perform port) c work).fault = none) :
    ∀ exchange ∈ exchanges port c work, Exchanged exchange := by
  induction work using List.reverseRecOn with
  | nil => nofun
  | append_singleton work last ih =>
      rw [Server.after_concat] at alive
      intro exchange member
      rw [exchanges_concat, List.mem_append, Option.mem_toList] at member
      rcases member with earlier | here
      · exact ih (perform_alive alive) exchange earlier
      · cases last with
        | application f => exact absurd here nofun
        | request p =>
            obtain rfl := Option.some.inj here
            exact Port.execute_exchanged keyed alive

end Work

/-! ## Counting responses -/

/-- The responses belong to the requests that expect one, in order. -/
theorem responses_echo (exchanges : List (CanPayload × Option CanPayload))
    (all : ∀ exchange ∈ exchanges, Exchanged exchange) :
    List.Forall₂ Echoes ((exchanges.map (·.1)).filter expectsResponse)
      (exchanges.filterMap (·.2)) := by
  induction exchanges with
  | nil => exact .nil
  | cons exchange exchanges ih =>
      have rest := ih fun exchange member => all exchange (.tail _ member)
      have here := all exchange (.head _)
      obtain ⟨p, response⟩ := exchange
      cases response with
      | none =>
          have silent : expectsResponse p = false := here
          simpa [silent] using rest
      | some r =>
          obtain ⟨request, echoes⟩ := here
          simpa [request] using And.intro echoes rest

/-- What is heard first belongs to what was asked first. -/
theorem heard_echo {requests heard waiting : List CanPayload} (later : List CanPayload)
    (all : List.Forall₂ Echoes (requests.filter expectsResponse) (heard ++ waiting)) :
    List.Forall₂ Echoes (((requests ++ later).filter expectsResponse).take heard.length) heard := by
  have length := all.length_eq
  rw [List.length_append] at length
  have first := List.forall₂_take heard.length all
  rw [List.take_left] at first
  rw [List.filter_append, List.take_append_of_le_length (by omega)]
  exact first

end Ucanopen
