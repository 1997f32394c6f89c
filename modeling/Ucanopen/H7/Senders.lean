import Ucanopen.H7.SdoService
import Ucanopen.F4.Puts

/-! # Periodic senders of the H7 port

The loops and tests are those of the other port, but a message keeps a whole header and
a disabled node sends nothing. A disabled node's timers stand still: its messages are
late when it is enabled again, and are sent at its next turn.
-/

namespace Ucanopen.H7

open F4 (Creator sendAll sendAll_at sendAll_none timerOf timerOf_pos)
open Run (Polled)

variable {E μ : Type}

/-- The frame that `put_frame` makes of a header and a payload. -/
def TxHeader.frame (header : TxHeader) (payload : CanPayload) : CanFrame :=
  ⟨header.identifier, header.dataLength, payload⟩

namespace TpdoService

structure Message (E : Type) where
  period : Int
  timepoint : Int
  header : TxHeader
  creator : Option (Creator E)

/-- The constructor. -/
def init (node : NodeId) : List (Message E) :=
  [Cob.tpdo1, .tpdo2, .tpdo3, .tpdo4].map fun cob =>
    { period := 0, timepoint := 0, header := ⟨calculateCobId cob node, 8⟩, creator := none }

/-- What `register_tpdo` is given, and the time it reads. -/
structure Registration (E : Type) where
  tpdo : Fin 4
  period : Int
  creator : Option (Creator E)
  now : Int

def registerTpdo (messages : List (Message E)) (r : Registration E) : List (Message E) :=
  messages.modify r.tpdo fun m =>
    { m with period := r.period, timepoint := r.now, creator := r.creator }

/-- The body of the loop. -/
def sendMessage (now : Int) (msg : Message E) (e : E) : Message E × Option CanFrame × E :=
  match msg.creator with
  | none => (msg, none, e)
  | some creator =>
      if msg.period ≤ 0 then (msg, none, e)
      else if now < msg.timepoint + msg.period then (msg, none, e)
      else
        let created := creator e
        ({ msg with timepoint := now }, some (msg.header.frame created.1), created.2)

def send (messages : List (Message E)) (now : Int) (e : E) :
    List (Message E) × List (Option CanFrame) × E := sendAll (sendMessage now) messages e

end TpdoService

namespace Node

structure TxMessage (E : Type) where
  period : Int
  timepoint : Int
  header : TxHeader
  /-- `std::function`, called without a test, so it is not empty. -/
  creator : Creator E

/-- What `register_tx_message` is given, and the time it reads. -/
structure TxRegistration (E : Type) where
  header : TxHeader
  period : Int
  creator : Creator E
  now : Int

def registerTxMessage (messages : List (TxMessage E)) (r : TxRegistration E) :
    List (TxMessage E) :=
  messages ++ [{ period := r.period, timepoint := r.now, header := r.header, creator := r.creator }]

/-- The body of the loop. -/
def sendMessage (now : Int) (message : TxMessage E) (e : E) : TxMessage E × Option CanFrame × E :=
  if message.period ≤ 0 then (message, none, e)
  else if now < message.timepoint + message.period then (message, none, e)
  else
    let created := message.creator e
    ({ message with timepoint := now }, some (message.header.frame created.1), created.2)

def send (enabled : Bool) (messages : List (TxMessage E)) (now : Int) (e : E) :
    List (TxMessage E) × List (Option CanFrame) × E :=
  if !enabled then (messages, [], e) else sendAll (sendMessage now) messages e

end Node

structure HeartbeatService where
  period : Int
  timepoint : Int
  header : TxHeader
  deriving Repr, DecidableEq

namespace HeartbeatService

/-- The constructor. -/
def init (node : NodeId) (period now : Int) : HeartbeatService where
  period := period
  timepoint := now
  header := ⟨calculateCobId .heartbeat node, 1⟩

/-- The first byte of the payload is the state of the server. -/
def send (s : HeartbeatService) (nmtState : NmtState) (now : Int) :
    HeartbeatService × Option CanFrame :=
  if s.period ≤ 0 then (s, none)
  else if now ≥ s.timepoint + s.period then
    ({ s with timepoint := now }, some (s.header.frame (nmtState.toUnderlying.setWidth 64)))
  else (s, none)

end HeartbeatService

structure SyncService where
  period : Int
  timepoint : Int
  header : TxHeader
  deriving Repr, DecidableEq

namespace SyncService

/-- The constructor. -/
def init (node : NodeId) (period now : Int) : SyncService where
  period := period
  timepoint := now
  header := ⟨calculateCobId .sync node, 0⟩

def send (s : SyncService) (now : Int) : SyncService × Option CanFrame :=
  if s.period ≤ 0 then (s, none)
  else if now ≥ s.timepoint + s.period then
    ({ s with timepoint := now }, some (s.header.frame 0))
  else (s, none)

end SyncService

/-! ## Messages as the bus knows them -/

/-- The header of a message, and its period with the time that it runs from, unless the
    message is off. -/
structure Announcement where
  header : TxHeader
  timer : Option (Int × Int)

/-- What a poll makes of a message, if there is one, and the frame it puts. -/
inductive Announced (now : Int) :
    Option Announcement → Option Announcement → Option CanFrame → Prop
  | absent : Announced now none none none
  | off {header : TxHeader} : Announced now (some ⟨header, none⟩) (some ⟨header, none⟩) none
  | early {header : TxHeader} {period start : Int} (before : now < start + period) :
      Announced now (some ⟨header, some (period, start)⟩) (some ⟨header, some (period, start)⟩) none
  | late {header : TxHeader} {period start : Int} (payload : CanPayload)
      (after : ¬ now < start + period) :
      Announced now (some ⟨header, some (period, start)⟩) (some ⟨header, some (period, now)⟩)
        (some (header.frame payload))

namespace Announced

variable {now : Int} {before after : Option Announcement} {frame : Option CanFrame}

theorem header (poll : Announced now before after frame) :
    after.map Announcement.header = before.map Announcement.header := by
  cases poll with
  | _ => rfl

theorem framed (poll : Announced now before after frame) {f : CanFrame} (put : frame = some f) :
    before.map Announcement.header = some ⟨f.id, f.len⟩ := by
  cases poll with
  | late payload =>
      cases put
      rfl
  | _ => exact absurd put nofun

theorem polled (poll : Announced now before after frame) :
    Polled now (before.bind Announcement.timer) (after.bind Announcement.timer)
      (if frame.isSome then [now] else []) := by
  cases poll with
  | absent => exact .off
  | off => exact .off
  | early before => exact .early before
  | late payload after => exact .late after

/-- A sender tests its period first, then whether the period has passed. -/
theorem of_tests {header : TxHeader} {period timepoint : Int} {after : Announcement}
    (off : period ≤ 0 → after = ⟨header, timerOf period timepoint⟩ ∧ frame = none)
    (early : 0 < period → now < timepoint + period →
      after = ⟨header, timerOf period timepoint⟩ ∧ frame = none)
    (late : 0 < period → ¬ now < timepoint + period →
      after = ⟨header, timerOf period now⟩ ∧ ∃ payload, frame = some (header.frame payload)) :
    Announced now (some ⟨header, timerOf period timepoint⟩) (some after) frame := by
  by_cases positive : 0 < period
  · by_cases before : now < timepoint + period
    · obtain ⟨rfl, rfl⟩ := early positive before
      rw [timerOf_pos positive]
      exact .early before
    · obtain ⟨rfl, payload, rfl⟩ := late positive before
      rw [timerOf_pos positive, timerOf_pos positive]
      exact .late payload before
  · obtain ⟨rfl, rfl⟩ := off (not_lt.mp positive)
    rw [timerOf, if_neg positive]
    exact .off

end Announced

/-- In a loop over several messages each is polled as it is alone. -/
theorem sendAll_announced {now : Int} {sendOne : μ → E → μ × Option CanFrame × E}
    {announcement : μ → Announcement}
    (each : ∀ m e, Announced now (some (announcement m)) (some (announcement (sendOne m e).1))
      (sendOne m e).2.1)
    (ms : List μ) (e : E) (i : Nat) :
    Announced now (ms[i]?.map announcement) ((sendAll sendOne ms e).1[i]?.map announcement)
      (sendAll sendOne ms e).2.1[i]?.join := by
  cases here : ms[i]? with
  | none =>
      obtain ⟨message, frame⟩ := sendAll_none sendOne here e
      rw [message, frame]
      exact .absent
  | some m =>
      obtain ⟨e', message, frame⟩ := sendAll_at sendOne here e
      rw [message, frame]
      exact each m e'

/-- A TPDO without a creator is off, whatever its period. -/
def TpdoService.Message.announcement (msg : Message E) : Announcement :=
  ⟨msg.header, timerOf (if msg.creator.isSome then msg.period else 0) msg.timepoint⟩

theorem TpdoService.announced (now : Int) (msg : Message E) (e : E) :
    Announced now (some msg.announcement) (some (sendMessage now msg e).1.announcement)
      (sendMessage now msg e).2.1 := by
  unfold sendMessage
  cases creator : msg.creator with
  | none =>
      unfold Message.announcement
      rw [creator]
      exact .off
  | some create =>
      have on : msg.announcement = ⟨msg.header, timerOf msg.period msg.timepoint⟩ := by
        unfold Message.announcement
        rw [creator]
        rfl
      rw [on]
      apply Announced.of_tests
      · intro inactive
        dsimp only
        rw [if_pos inactive]
        exact ⟨on, rfl⟩
      · intro positive early
        dsimp only
        rw [if_neg (not_le.mpr positive), if_pos early]
        exact ⟨on, rfl⟩
      · intro positive late
        dsimp only
        rw [if_neg (not_le.mpr positive), if_neg late]
        exact ⟨rfl, _, rfl⟩

def Node.TxMessage.announcement (message : TxMessage E) : Announcement :=
  ⟨message.header, timerOf message.period message.timepoint⟩

theorem Node.announced (now : Int) (message : TxMessage E) (e : E) :
    Announced now (some message.announcement) (some (sendMessage now message e).1.announcement)
      (sendMessage now message e).2.1 := by
  unfold sendMessage
  apply Announced.of_tests
  · intro inactive
    rw [if_pos inactive]
    exact ⟨rfl, rfl⟩
  · intro positive early
    rw [if_neg (not_le.mpr positive), if_pos early]
    exact ⟨rfl, rfl⟩
  · intro positive late
    rw [if_neg (not_le.mpr positive), if_neg late]
    exact ⟨rfl, _, rfl⟩

def HeartbeatService.announcement (s : HeartbeatService) : Announcement :=
  ⟨s.header, timerOf s.period s.timepoint⟩

theorem HeartbeatService.announced (s : HeartbeatService) (nmtState : NmtState) (now : Int) :
    Announced now (some s.announcement) (some (s.send nmtState now).1.announcement)
      (s.send nmtState now).2 := by
  unfold send
  apply Announced.of_tests
  · intro inactive
    rw [if_pos inactive]
    exact ⟨rfl, rfl⟩
  · intro positive early
    rw [if_neg (not_le.mpr positive), if_neg (not_le.mpr early)]
    exact ⟨rfl, rfl⟩
  · intro positive late
    rw [if_neg (not_le.mpr positive), if_pos (not_lt.mp late)]
    exact ⟨rfl, _, rfl⟩

/-- What a heartbeat says. -/
theorem HeartbeatService.send_payload {s : HeartbeatService} {nmtState : NmtState} {now : Int}
    {f : CanFrame} (put : (s.send nmtState now).2 = some f) :
    f.payload = nmtState.toUnderlying.setWidth 64 := by
  unfold send at put
  split at put
  · exact absurd put nofun
  · split at put
    · rw [← Option.some.inj put]
      rfl
    · exact absurd put nofun

def SyncService.announcement (s : SyncService) : Announcement :=
  ⟨s.header, timerOf s.period s.timepoint⟩

theorem SyncService.announced (s : SyncService) (now : Int) :
    Announced now (some s.announcement) (some (s.send now).1.announcement) (s.send now).2 := by
  unfold send
  apply Announced.of_tests
  · intro inactive
    rw [if_pos inactive]
    exact ⟨rfl, rfl⟩
  · intro positive early
    rw [if_neg (not_le.mpr positive), if_neg (not_le.mpr early)]
    exact ⟨rfl, rfl⟩
  · intro positive late
    rw [if_neg (not_le.mpr positive), if_pos (not_lt.mp late)]
    exact ⟨rfl, _, rfl⟩

end Ucanopen.H7
