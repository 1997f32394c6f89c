import Ucanopen.F4.DeviceBus
import Ucanopen.H7.DeviceBus

/-! # What a client of the H7 port hears

The SDO service puts its responses while the main loop stands in `send`, and nowhere
else. As no other message has their identifier, a client that filters by it hears the
responses, each once and in order.
-/

namespace Ucanopen.H7

open F4 (Source Put puts_source)

variable {α φ E : Type} {app : Application φ E} {port : Port 16 E}

/-! ## Where the service stands -/

/-- The statements of `send`. -/
def Point.sending : Point → Prop
  | .beforeSend | .sendTest | .sendPut | .sendClear => True
  | _ => False

/-- The statements of `handle_recv_frames`. -/
def Point.handling : Point → Prop
  | .afterSend | .handleTest | .handleCopy => True
  | .handleClear _ | .handleAbort _ | .handleExecute _ => True
  | .handleStore _ _ | .handleFlag _ => True
  | _ => False

/-- Statements until the function that the service is in, or enters next, returns. -/
def Point.left : Point → Nat
  | .beforeSend => 4
  | .sendTest => 3
  | .sendPut => 2
  | .sendClear => 1
  | .afterSend => 8
  | .handleTest => 7
  | .handleCopy => 6
  | .handleClear _ => 5
  | .handleAbort _ => 4
  | .handleExecute _ => 3
  | .handleStore _ _ => 2
  | .handleFlag _ => 1
  | .afterHandle => 1

namespace State

variable {s : State α E}

theorem sending_next (port : Port 16 E) (alive : s.core.fault = none)
    (sending : s.point.sending) :
    (s.main port).point.sending ∧ (s.main port).point.left + 1 ≤ s.point.left ∨
      (s.main port).point = .afterSend := by
  unfold main
  simp only [alive]
  cases at_point : s.point with
  | beforeSend | sendPut => exact .inl ⟨trivial, le_rfl⟩
  | sendTest =>
      cases notSent : s.sdo.tsdo.notSent with
      | true => exact .inl ⟨trivial, le_rfl⟩
      | false => exact .inr rfl
  | sendClear => exact .inr rfl
  | _ =>
      rw [at_point] at sending
      exact absurd sending id

/-- Only a fault keeps a request from being finished. -/
theorem handling_next (port : Port 16 E) (alive : s.core.fault = none)
    (handling : s.point.handling) :
    (s.main port).point.handling ∧
        (s.Flags s.point → (s.main port).core.fault = none →
          (s.main port).point.left + 1 ≤ s.point.left) ∨
      (s.main port).point = .afterHandle := by
  unfold main
  simp only [alive]
  cases at_point : s.point with
  | afterSend | handleCopy | handleClear | handleStore => exact .inl ⟨trivial, fun _ _ => le_rfl⟩
  | handleTest =>
      cases occupied : s.sdo.rsdo.isUnhandled with
      | true => exact .inl ⟨trivial, fun _ _ => le_rfl⟩
      | false => exact .inr rfl
  | handleAbort request =>
      by_cases abort : (ExpeditedSdo.fromPayload request).cs = SdoCsCodes.abort
      · dsimp only
        rw [if_pos abort]
        exact .inr rfl
      · dsimp only
        rw [if_neg abort]
        exact .inl ⟨trivial, fun _ _ => le_rfl⟩
  | handleExecute request =>
      cases ran : port.execute s.core request with
      | mk answer core =>
          dsimp only
          rw [ran]
          cases answer with
          | none =>
              refine .inl ⟨trivial, fun flags still => ?_⟩
              have answered := port.execute_answers (c := s.core) (by rw [ran]; exact still) flags.2
              exact absurd answered (by simp [ran])
          | some response => exact .inl ⟨trivial, fun _ _ => le_rfl⟩
  | handleFlag request => exact .inr rfl
  | _ =>
      rw [at_point] at handling
      exact absurd handling id

theorem idle_next (port : Port 16 E) (alive : s.core.fault = none)
    (idle : s.point = .afterHandle) : (s.main port).point = .beforeSend := by
  unfold main
  simp only [alive, idle]

end State

/-- Outside `send` the service puts nothing. -/
theorem State.puts_quiet {s : State α E} (elsewhere : ¬ s.point.sending) : s.puts = [] := by
  unfold State.puts
  split
  · rename_i at_point
    rw [at_point] at elsewhere
    exact absurd trivial elsewhere
  · rfl

namespace Device

variable [DecidableEq α]

/-- Where the main loop stands and where the SDO service stands go together. -/
def Synced (d : Device α φ E) : Prop :=
  match d.phase with
  | .heartbeat | .sync | .tpdo => d.sdo.point = .beforeSend
  | .sdoSend => d.sdo.point.sending
  | .nodeSend _ | .rpdoHandle => d.sdo.point = .afterSend
  | .sdoHandle => d.sdo.point.handling
  | .nodeHandle _ | .nodeOnRun _ | .onRun => d.sdo.point = .afterHandle

theorem Synced.step (app : Application φ E) (port : Port 16 E) {d : Device α φ E}
    (synced : d.Synced) (e : DeviceEvent α) : (d.step app port e).Synced := by
  cases e with
  | interrupt attr frame =>
      change (d.deliver attr frame).Synced
      have step := d.interrupt_step attr frame
      generalize d.deliver attr frame = t at step ⊢
      cases step with
      | sdo owner =>
          have point := (d.sdo.recv_header attr frame).2.2.1
          unfold Synced
          simp only [point]
          exact synced
      | _ => exact synced
  | main =>
      change (d.work app port).Synced
      have step := d.main_step app port
      generalize d.work app port = t at step ⊢
      generalize d.emitted port = puts at step
      unfold Synced at synced
      cases step with
      | stopped => exact synced
      | heartbeat alive at_phase | sync alive at_phase =>
          rw [at_phase] at synced
          exact synced
      | tpdo alive at_phase =>
          rw [at_phase] at synced
          change State.point _ = _ at synced
          simp [Synced, State.apply, synced, Point.sending]
      | sdoSend alive at_phase =>
          rw [at_phase] at synced
          obtain ⟨sending, _⟩ | done := d.sdo.sending_next port alive synced
          · have elsewhere : (d.sdo.main port).point ≠ .afterSend := by
              intro done
              rw [done] at sending
              exact sending
            simp [Synced, elsewhere, sending]
          · simp [Synced, done]
      | sent alive at_phase | nodeSend alive at_phase =>
          rw [at_phase] at synced
          exact synced
      | rpdoHandle alive at_phase =>
          rw [at_phase] at synced
          change d.sdo.point = _ at synced
          by_cases done : d.rpdo.main.point = .outside
          · simp [Synced, done, State.apply, synced, Point.handling]
          · simp [Synced, done, State.apply, synced]
      | sdoHandle alive at_phase =>
          rw [at_phase] at synced
          obtain ⟨handling, _⟩ | done := d.sdo.handling_next port alive synced
          · have elsewhere : (d.sdo.main port).point ≠ .afterHandle := by
              intro done
              rw [done] at handling
              exact handling
            simp [Synced, elsewhere, handling]
          · simp [Synced, done]
      | handled alive at_phase | nodeOnRun alive at_phase =>
          rw [at_phase] at synced
          exact synced
      | @nodeHandle k node alive at_phase =>
          rw [at_phase] at synced
          change d.sdo.point = _ at synced
          by_cases done : node.rx.main.point = .outside
          · simp [Synced, done, State.apply, synced]
          · simp [Synced, done, State.apply, synced]
      | onRun alive at_phase =>
          rw [at_phase] at synced
          exact State.idle_next port (s := d.sdo.apply app.onRun) alive synced
  | _ => exact synced

/-! ## The frames of the SDO service -/

/-- The call of `put_frame` with a header and a payload. -/
def framed (put : TxHeader × CanPayload) : CanFrame := put.1.frame put.2

omit [DecidableEq α] in
/-- What a step puts for the SDO service is what the service puts. -/
theorem emitted_sdo (app : Application φ E) (port : Port 16 E) {d : Device α φ E}
    (synced : d.Synced) :
    (d.work app port).sdo.putFrames.map framed =
      d.sdo.putFrames.map framed ++ ((d.emitted port).filter (·.source = .sdo)).map (·.frame) := by
  have put := d.sdo.main_put port
  have step := d.main_step app port
  generalize d.work app port = t at step ⊢
  generalize d.emitted port = puts at step ⊢
  unfold Synced at synced
  cases step with
  | heartbeat | sync | tpdo | nodeSend =>
      rw [puts_source (by simp)]
      exact (List.append_nil _).symm
  | sdoSend =>
      change (d.sdo.main port).putFrames.map framed = _
      rw [put.2, List.drop_left, List.map_append]
      congr 1
      simp [List.filter_map, Function.comp_def, framed]
  | sdoHandle alive at_phase =>
      rw [at_phase] at synced
      change (d.sdo.main port).putFrames.map framed = _
      have elsewhere : ¬ d.sdo.point.sending := by
        intro sending
        cases at_point : d.sdo.point <;> simp_all [Point.sending, Point.handling]
      rw [put.2, State.puts_quiet elsewhere]
      simp
  | onRun alive at_phase =>
      rw [at_phase] at synced
      have put := (d.sdo.apply app.onRun).main_put port
      change ((d.sdo.apply app.onRun).main port).putFrames.map framed = _
      have elsewhere : ¬ (d.sdo.apply app.onRun).point.sending := by
        intro sending
        change d.sdo.point.sending at sending
        rw [synced] at sending
        exact sending
      rw [put.2, State.puts_quiet elsewhere]
      simp [State.apply]
  | _ => exact (List.append_nil _).symm

/-- The device stands where its service stands, and the bus has seen what the service put. -/
structure Heard (d : Device α φ E) : Prop where
  synced : d.Synced
  sdo : (d.bus.filter (·.source = .sdo)).map (·.frame) = d.sdo.putFrames.map framed

theorem Heard.step {d : Device α φ E} (heard : d.Heard) (e : DeviceEvent α) :
    (d.step app port e).Heard := by
  refine ⟨heard.synced.step app port e, ?_⟩
  cases e with
  | interrupt attr frame =>
      change ((d.deliver attr frame).bus.filter _).map _ =
        (d.deliver attr frame).sdo.putFrames.map framed
      have step := d.interrupt_step attr frame
      generalize d.deliver attr frame = t at step ⊢
      cases step with
      | sdo =>
          rw [(d.sdo.recv_header attr frame).2.1]
          exact heard.sdo
      | _ => exact heard.sdo
  | main =>
      change ((d.bus ++ d.emitted port).filter _).map _ = (d.work app port).sdo.putFrames.map framed
      rw [List.filter_append, List.map_append, heard.sdo, emitted_sdo app port heard.synced]
  | _ => exact heard.sdo

end Device

namespace Setup

variable [DecidableEq α] (app : Application φ E) (port : Port 16 E)

/-- The bus has seen what the service put. -/
theorem payloads_heard (setup : Setup α φ E) (schedule : List (DeviceEvent α)) :
    ((setup.run app port schedule).bus.filter (·.source = .sdo)).map (·.frame.payload) =
      (setup.run app port schedule).sdo.putFrames.map (·.2) := by
  have heard : (setup.run app port schedule).Heard :=
    Run.invariant Device.Heard (show setup.device.Heard from ⟨rfl, rfl⟩)
      (fun _ e heard => heard.step e) schedule
  have frames := congrArg (List.map CanFrame.payload) heard.sdo
  rw [List.map_map, List.map_map] at frames
  exact frames

/-- The nodes leave the identifier of the SDO responses to the server. -/
def KeepsTsdo (setup : Setup α φ E) : Prop :=
  ∀ k, ∀ r ∈ setup.txMessages k, r.header.identifier ≠ calculateCobId .tsdo setup.nodeId

omit [DecidableEq α] in
/-- Then no other message has it. -/
theorem tsdo_only (setup : Setup α φ E) (placed : F4.Placed setup.nodeId.id)
    (keeps : setup.KeepsTsdo) {source : Source} {length : BitVec 8}
    (here : (setup.announcement source).map Announcement.header =
      some ⟨calculateCobId .tsdo setup.nodeId, length⟩) : source = .sdo := by
  obtain ⟨message, found, header⟩ := Option.map_eq_some_iff.mp here
  have same : message.header.identifier = calculateCobId .tsdo setup.nodeId :=
    congrArg TxHeader.identifier header
  cases source with
  | sdo => rfl
  | heartbeat =>
      cases found
      exact absurd same (F4.tsdo_alone placed (.head _))
  | sync =>
      cases found
      exact absurd same (F4.tsdo_alone placed (.tail _ (.head _)))
  | tpdo i =>
      obtain ⟨cob, inside, rfl⟩ := Option.map_eq_some_iff.mp found
      have sent := List.mem_of_getElem? inside
      exact absurd same (F4.tsdo_alone placed (by simp_all))
  | node k i =>
      simp only [announcement, Option.ite_none_right_eq_some] at found
      obtain ⟨r, inside, rfl⟩ := Option.map_eq_some_iff.mp found.2
      exact absurd same (keeps k r (List.mem_of_getElem? inside))

/-- What a client hears under the identifier of the responses. -/
def heard (setup : Setup α φ E) (app : Application φ E) (port : Port 16 E)
    (schedule : List (DeviceEvent α)) : List CanPayload :=
  ((setup.run app port schedule).bus.filter fun put =>
    put.frame.id = calculateCobId .tsdo setup.nodeId).map (·.frame.payload)

theorem heard_payloads (setup : Setup α φ E) (placed : F4.Placed setup.nodeId.id)
    (keeps : setup.KeepsTsdo) (schedule : List (DeviceEvent α)) :
    setup.heard app port schedule =
      (setup.run app port schedule).sdo.putFrames.map (·.2) := by
  have same : (setup.run app port schedule).bus.filter
        (fun put => put.frame.id = calculateCobId .tsdo setup.nodeId) =
      (setup.run app port schedule).bus.filter (·.source = .sdo) := by
    apply List.filter_congr
    intro put member
    have headed := setup.put_header app port schedule member
    apply decide_eq_decide.mpr
    constructor
    · intro tsdo
      rw [tsdo] at headed
      exact setup.tsdo_only placed keeps headed
    · intro source
      rw [source] at headed
      exact (congrArg TxHeader.identifier (Option.some.inj headed)).symm
  rw [heard, same, setup.payloads_heard]

/-- A client that listens to the identifier of the responses hears what the SDO service
    answered to the requests it has finished, in order, all of it but the response that
    waits to be put, and nothing else. -/
theorem responses_heard (setup : Setup α φ E) (placed : F4.Placed setup.nodeId.id)
    (keeps : setup.KeepsTsdo) (schedule : List (DeviceEvent α)) :
    let d := setup.run app port schedule
    (d.bus.filter fun put => put.frame.id = calculateCobId .tsdo setup.nodeId).map
        (·.frame.payload) ++ d.sdo.unsent = d.sdo.responses := by
  intro d
  have payloads := setup.heard_payloads app port placed keeps schedule
  rw [heard] at payloads
  rw [payloads]
  exact (setup.work_run app port schedule).sent

theorem responses_heard_asked :
    let d := sample.run .idle emptyPort (askingRun 40)
    (d.bus.filter fun put => put.frame.id = calculateCobId .tsdo ⟨5⟩).map (·.frame.payload) ++
      d.sdo.unsent = d.sdo.responses := by
  apply responses_heard .idle emptyPort sample (by decide)
  intro k r member
  rw [List.mem_singleton.mp member]
  decide

end Setup

end Ucanopen.H7
