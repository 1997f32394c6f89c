import Ucanopen.F4.DeviceWindow
import Ucanopen.Sdo.Session

/-! # A client that keeps its window

A client sends requests to a running device and listens to the identifier of the
responses. While at most sixteen of its requests have no response, it hears one for each
request that expects one, in the order of its requests and within three passes of the main
loop, whatever else the device has to do.
-/

namespace Ucanopen.F4

open Run

variable {α φ E : Type}

instance [DecidableEq α] (w : Nat) (d : Device α φ E) :
    (e : DeviceEvent α) → Decidable (Device.Windowed w d e)
  | .interrupt attr _ =>
      inferInstanceAs (Decidable (attr = d.sdo.sdo.rsdoRxattr →
        d.sdo.arrivals.length < d.sdo.putFrames.length + w))
  | .main | .advance _ | .start | .stop => .isTrue trivial

theorem port_keyed (d : ObjectDictionary 8 E) : (port d).Keyed := fun _ _ _ => ⟨rfl, rfl⟩

namespace State

variable {d : ObjectDictionary 8 E} {m : Machine E} {work : List (Work E)} {s : State α E} {w : Nat}

theorem Lossless.accepted (lossless : s.Lossless w) : s.accepted = s.arrivals.map (·.payload) := by
  rw [State.accepted, Server.taken_of_none_refused lossless.rejected]

/-- What the service has served, it has answered as it should. -/
theorem Interleaved.exchanged (served : Interleaved (port d) m work s)
    (alive : s.core.fault = none) : ∀ r ∈ s.served, Exchanged (r.request, r.response) := by
  intro r member
  rw [served.core] at alive
  have exchanged := Work.exchanges_exchanged (port_keyed d) work alive
  rw [served.answers] at exchanged
  exact exchanged _ (List.mem_map_of_mem member)

/-- The responses to some of the requests that were served, in order. -/
theorem responses_of {records : List Served}
    (all : ∀ r ∈ records, Exchanged (r.request, r.response)) :
    List.Forall₂ Echoes ((records.map (·.request)).filter expectsResponse)
      (records.filterMap (·.response)) := by
  have exchanged : ∀ exchange ∈ records.map fun r => (r.request, r.response),
      Exchanged exchange := by
    intro exchange member
    obtain ⟨r, inside, rfl⟩ := List.mem_map.mp member
    exact all r inside
  have echo := responses_echo _ exchanged
  rwa [List.map_map, List.filterMap_map] at echo

/-- What is on the bus belongs to the first of the requests. -/
theorem Lossless.echo (lossless : s.Lossless w) (served : Interleaved (port d) m work s)
    (alive : s.core.fault = none) :
    List.Forall₂ Echoes ((s.accepted.filter expectsResponse).take s.putFrames.length)
      (s.putFrames.map (·.payload)) := by
  have echo := responses_of (served.exchanged alive)
  have delivered : s.delivered = s.produced := lossless.noSilentLoss served
  change List.Forall₂ Echoes (s.popped.filter expectsResponse) s.produced at echo
  rw [← delivered] at echo
  have heard := heard_echo s.sdo.rsdoQueue.items echo
  rwa [served.order, List.length_map] at heard

end State

namespace Setup

variable [DecidableEq α]

/-- The requests that expect a response, as the bus brings them. -/
def asked (setup : Setup α φ E) (schedule : List (DeviceEvent α)) : List CanPayload :=
  ((Device.wire setup.rsdoRxattr schedule).map (·.payload)).filter expectsResponse

theorem asked_accepted (setup : Setup α φ E) (app : Application φ E) (port : Port 8 E)
    {schedule : List (DeviceEvent α)} {w : Nat}
    (lossless : (setup.run app port schedule).sdo.Lossless w) :
    (setup.run app port schedule).sdo.accepted.filter expectsResponse = setup.asked schedule := by
  rw [lossless.accepted, asked]
  exact congrArg (List.filter expectsResponse)
    (Device.arrivals_run app port setup.device_map_ne_nil setup.sdo_routed schedule)

/-- A client with a window of sixteen gets its responses one by one: what it hears
    belongs to its requests in order, and what it asked is answered once the main loop has
    had the steps of three passes. -/
theorem window_answered (setup : Setup α φ E) (app : Application φ E) (d : ObjectDictionary 8 E)
    (placed : Placed setup.nodeId.id) (keeps : setup.KeepsTsdo)
    (before after : List (DeviceEvent α))
    (windowed : StepsMeet (Device.step app (port d)) (Device.Windowed 16) setup.device
      (before ++ after))
    (alive : (setup.run app (port d) (before ++ after)).sdo.core.fault = none) :
    List.Forall₂ Echoes
        ((setup.asked (before ++ after)).take (setup.heard app (port d) (before ++ after)).length)
        (setup.heard app (port d) (before ++ after)) ∧
      (setup.passBound * 3 + after.countP DeviceEvent.isInterrupt <
          after.countP DeviceEvent.isMain →
        (setup.asked before).length ≤ (setup.heard app (port d) (before ++ after)).length) := by
  have lossless := (setup.lossless_run app (port d) le_rfl windowed).1
  have early := (setup.lossless_run app (port d) le_rfl windowed.left).1
  have served := setup.interleaved_run app (port d) (before ++ after)
  rw [setup.heard_payloads app (port d) placed keeps, List.length_map,
    ← setup.asked_accepted app (port d) lossless, ← setup.asked_accepted app (port d) early]
  refine ⟨lossless.echo served alive, fun enough => ?_⟩
  have later := setup.passes_later app (port d) before after alive enough
  have passed : (setup.run app (port d) before).turns .sdoHandle + 2 ≤
      (setup.run app (port d) (before ++ after)).turns .sdoSend := by
    simp only [Device.turns]
    split <;> split <;> omega
  have executed := setup.executed_in_time app (port d) before after passed
  have put := (setup.settled_run app (port d) before after).put passed
  generalize setup.run app (port d) before = b at executed put ⊢
  generalize setup.run app (port d) (before ++ after) = t at executed put lossless served alive ⊢
  have answered := State.responses_of fun r member =>
    served.exchanged alive r (List.mem_of_mem_take (i := b.sdo.accepted.length) member)
  rw [lossless.none_full (List.take_subset _ _)] at put
  rw [executed] at answered
  calc (b.sdo.accepted.filter expectsResponse).length
      = ((t.sdo.served.take b.sdo.accepted.length).filterMap (·.response)).length :=
        answered.length_eq
    _ ≤ (t.sdo.putFrames.map (·.payload)).length := put.length_le
    _ = t.sdo.putFrames.length := List.length_map _

theorem window_answered_sample :
    List.Forall₂ Echoes
        ((sample.asked (readingRun 0 ++ List.replicate 320 .main)).take
          (sample.heard .idle (F4.port F4.sample)
            (readingRun 0 ++ List.replicate 320 .main)).length)
        (sample.heard .idle (F4.port F4.sample) (readingRun 0 ++ List.replicate 320 .main)) ∧
      (sample.asked (readingRun 0)).length ≤
        (sample.heard .idle (F4.port F4.sample)
          (readingRun 0 ++ List.replicate 320 .main)).length := by
  have keeps : sample.KeepsTsdo := by
    intro k r member
    rw [List.mem_singleton.mp member]
    decide
  have answered := window_answered sample .idle F4.sample (by decide) keeps (readingRun 0)
    (List.replicate 320 .main) (by decide +kernel) (by decide +kernel)
  exact ⟨answered.1, answered.2 (by decide +kernel)⟩

/-- There the client hears the one response it waits for. -/
example : (sample.asked (readingRun 0)).length = 1 := by decide +kernel

end Setup

end Ucanopen.F4
