import Ucanopen.Def
import Ucanopen.Lib.Periodic

/-! # Periodic senders of the F4 port

TPDOs, the messages of a node, the heartbeat and the sync message are sent by
`send` functions that the main loop calls. Each message carries its period and
the time it was last sent, or registered; whatever else the same function sends,
each message is a periodic timer that is polled by these calls.
-/

namespace Ucanopen.F4

open Periodic

variable {E μ ρ σ α : Type}

/-- `canpayload_t (*creator)()`. It may use and change the state of the application. -/
abbrev Creator (E : Type) := E → CanPayload × E

/-- The loop of the `send` functions: each message in turn puts a frame or does not. -/
def sendAll (sendOne : μ → E → μ × Option CanFrame × E) :
    List μ → E → List μ × List (Option CanFrame) × E
  | [], e => ([], [], e)
  | m :: ms, e =>
      let first := sendOne m e
      let rest := sendAll sendOne ms first.2.2
      (first.1 :: rest.1, first.2.1 :: rest.2.1, rest.2.2)

namespace TpdoService

structure Message (E : Type) where
  id : CanId
  period : Int
  timepoint : Int
  creator : Option (Creator E)

def len : BitVec 8 := 8

/-- The constructor. -/
def init (node : NodeId) : List (Message E) :=
  [Cob.tpdo1, .tpdo2, .tpdo3, .tpdo4].map fun cob =>
    { id := calculateCobId cob node, period := 0, timepoint := 0, creator := none }

def registerTpdo (messages : List (Message E)) (tpdo : Fin 4) (period : Int)
    (creator : Option (Creator E)) (now : Int) : List (Message E) :=
  messages.modify tpdo fun m => { m with period := period, timepoint := now, creator := creator }

/-- The body of the loop. -/
def sendMessage (now : Int) (msg : Message E) (e : E) : Message E × Option CanFrame × E :=
  match msg.creator with
  | none => (msg, none, e)
  | some creator =>
      if msg.period ≤ 0 then (msg, none, e)
      else if now < msg.timepoint + msg.period then (msg, none, e)
      else
        let created := creator e
        ({ msg with timepoint := now }, some ⟨msg.id, len, created.1⟩, created.2)

def send (messages : List (Message E)) (now : Int) (e : E) :
    List (Message E) × List (Option CanFrame) × E := sendAll (sendMessage now) messages e

end TpdoService

namespace Node

/-- `TxMessage`. Its creator is called without a test, so it is not null. -/
structure TxMessage (E : Type) where
  period : Int
  timepoint : Int
  id : CanId
  len : BitVec 8
  creator : Creator E

def registerTxMessage (messages : List (TxMessage E)) (id : CanId) (len : BitVec 8) (period : Int)
    (creator : Creator E) (now : Int) : List (TxMessage E) :=
  messages ++ [{ period := period, timepoint := now, id := id, len := len, creator := creator }]

/-- The body of the loop. -/
def sendMessage (now : Int) (message : TxMessage E) (e : E) : TxMessage E × Option CanFrame × E :=
  if message.period ≤ 0 then (message, none, e)
  else if now < message.timepoint + message.period then (message, none, e)
  else
    let created := message.creator e
    ({ message with timepoint := now }, some ⟨message.id, message.len, created.1⟩, created.2)

def send (messages : List (TxMessage E)) (now : Int) (e : E) :
    List (TxMessage E) × List (Option CanFrame) × E := sendAll (sendMessage now) messages e

end Node

structure HeartbeatService where
  id : CanId
  period : Int
  timepoint : Int
  deriving Repr, DecidableEq

namespace HeartbeatService

def len : BitVec 8 := cobSizes .heartbeat

/-- The constructor. -/
def init (node : NodeId) (period now : Int) : HeartbeatService where
  id := calculateCobId .heartbeat node
  period := period
  timepoint := now

/-- The first byte of the payload is the state of the server. -/
def send (s : HeartbeatService) (nmtState : NmtState) (now : Int) :
    HeartbeatService × Option CanFrame :=
  if s.period ≤ 0 then (s, none)
  else if now ≥ s.timepoint + s.period then
    ({ s with timepoint := now }, some ⟨s.id, len, nmtState.toUnderlying.setWidth 64⟩)
  else (s, none)

end HeartbeatService

structure SyncService where
  id : CanId
  period : Int
  timepoint : Int
  deriving Repr, DecidableEq

namespace SyncService

def len : BitVec 8 := cobSizes .sync

/-- The constructor. -/
def init (node : NodeId) (period now : Int) : SyncService where
  id := calculateCobId .sync node
  period := period
  timepoint := now

def send (s : SyncService) (now : Int) : SyncService × Option CanFrame :=
  if s.period ≤ 0 then (s, none)
  else if now ≥ s.timepoint + s.period then
    ({ s with timepoint := now }, some ⟨s.id, len, 0⟩)
  else (s, none)

end SyncService

/-! ## Timers

A message or a service that is polled puts a frame or does not, and goes on from
its new state.
-/

/-- The times at which it puts a frame. -/
def sentAt (send : σ → α → σ × Option CanFrame) (time : α → Int) : σ → List α → List Int
  | _, [] => []
  | s, poll :: polls =>
      (if (send s poll).2.isSome then [time poll] else []) ++
        sentAt send time (send s poll).1 polls

/-- It is off, or a timer with a period and the time it runs from. -/
structure Timed (send : σ → α → σ × Option CanFrame) (time : α → Int)
    (timer : σ → Option (Int × Int)) : Prop where
  off : ∀ {s}, timer s = none → ∀ poll, send s poll = (s, none)
  early : ∀ {s period start}, timer s = some (period, start) →
    ∀ {poll}, time poll < start + period → send s poll = (s, none)
  late : ∀ {s period start}, timer s = some (period, start) →
    ∀ {poll}, ¬ time poll < start + period →
      timer (send s poll).1 = some (period, time poll) ∧ (send s poll).2.isSome = true

theorem Timed.sentAt_eq {send : σ → α → σ × Option CanFrame} {time : α → Int}
    {timer : σ → Option (Int × Int)} (timed : Timed send time timer) (s : σ) (polls : List α) :
    sentAt send time s polls =
      match timer s with
      | none => []
      | some (period, start) => firings period start (polls.map time) := by
  induction polls generalizing s with
  | nil =>
      cases timer s <;> rfl
  | cons poll polls ih =>
      unfold sentAt
      rw [ih]
      cases on : timer s with
      | none =>
          rw [timed.off on, on]
          rfl
      | some setting =>
          obtain ⟨period, start⟩ := setting
          change _ = if time poll < start + period then _ else _
          by_cases early : time poll < start + period
          · rw [timed.early on early, on, if_pos early]
            rfl
          · obtain ⟨restarted, sends⟩ := timed.late on early
            rw [restarted, sends, if_neg early]
            rfl

/-- What runs with a period only when the period is positive. -/
def timerOf (period timepoint : Int) : Option (Int × Int) :=
  if 0 < period then some (period, timepoint) else none

theorem timerOf_none {period timepoint : Int} (isOff : timerOf period timepoint = none) :
    period ≤ 0 := by simpa [timerOf] using isOff

theorem timerOf_some {period timepoint : Int} {setting : Int × Int}
    (isOn : timerOf period timepoint = some setting) :
    0 < period ∧ setting = (period, timepoint) := by
  unfold timerOf at isOn
  split at isOn
  · exact ⟨‹_›, (Option.some.inj isOn).symm⟩
  · exact absurd isOn nofun

theorem timerOf_pos {period timepoint : Int} (positive : 0 < period) :
    timerOf period timepoint = some (period, timepoint) := if_pos positive

/-- What tests its period first, then whether the period has passed, is a timer. -/
theorem timed_of_tests {send : σ → α → σ × Option CanFrame} {time : α → Int}
    {period timepoint : σ → Int}
    (off : ∀ s poll, period s ≤ 0 → send s poll = (s, none))
    (early : ∀ s poll, 0 < period s → time poll < timepoint s + period s →
      send s poll = (s, none))
    (late : ∀ s poll, 0 < period s → ¬ time poll < timepoint s + period s →
      period (send s poll).1 = period s ∧ timepoint (send s poll).1 = time poll ∧
        (send s poll).2.isSome = true) :
    Timed send time fun s => timerOf (period s) (timepoint s) where
  off := by
    intro s isOff poll
    exact off s poll (timerOf_none isOff)
  early := by
    intro s period' start isOn poll before
    obtain ⟨positive, same⟩ := timerOf_some isOn
    obtain ⟨rfl, rfl⟩ := Prod.mk.inj same
    exact early s poll positive before
  late := by
    intro s period' start isOn poll after
    obtain ⟨positive, same⟩ := timerOf_some isOn
    obtain ⟨rfl, rfl⟩ := Prod.mk.inj same
    obtain ⟨kept, restarted, sends⟩ := late s poll positive after
    rw [kept, restarted]
    exact ⟨timerOf_pos positive, sends⟩

theorem HeartbeatService.timed :
    Timed (fun (s : HeartbeatService) (poll : NmtState × Int) => s.send poll.1 poll.2) Prod.snd
      fun s => timerOf s.period s.timepoint := by
  apply timed_of_tests
  · intro s poll inactive
    exact if_pos inactive
  · intro s poll positive early
    unfold send
    rw [if_neg (not_le.mpr positive), if_neg (not_le.mpr early)]
  · intro s poll positive late
    unfold send
    rw [if_neg (not_le.mpr positive), if_pos (not_lt.mp late)]
    exact ⟨rfl, rfl, rfl⟩

theorem SyncService.timed :
    Timed SyncService.send (fun now => now) fun s => timerOf s.period s.timepoint := by
  apply timed_of_tests
  · intro s now inactive
    exact if_pos inactive
  · intro s now positive early
    unfold send
    rw [if_neg (not_le.mpr positive), if_neg (not_le.mpr early)]
  · intro s now positive late
    unfold send
    rw [if_neg (not_le.mpr positive), if_pos (not_lt.mp late)]
    exact ⟨rfl, rfl, rfl⟩

/-- A message that is polled at a time, and in a state of the application. -/
def alone (sendOne : Int → μ → E → μ × Option CanFrame × E) (m : μ) (poll : Int × E) :
    μ × Option CanFrame := ((sendOne poll.1 m poll.2).1, (sendOne poll.1 m poll.2).2.1)

/-- A TPDO without a creator is off, whatever its period. -/
def TpdoService.Message.timer (msg : Message E) : Option (Int × Int) :=
  if msg.creator.isSome then timerOf msg.period msg.timepoint else none

theorem TpdoService.Message.timer_eq (msg : Message E) :
    msg.timer = timerOf (if msg.creator.isSome then msg.period else 0) msg.timepoint := by
  unfold timer
  cases msg.creator <;> rfl

theorem TpdoService.timed : Timed (alone (sendMessage (E := E))) Prod.fst Message.timer := by
  rw [funext Message.timer_eq]
  apply timed_of_tests
  · intro m poll inactive
    unfold alone sendMessage
    cases creator : m.creator with
    | none => rfl
    | some f =>
        rw [creator, Option.isSome_some, if_pos rfl] at inactive
        dsimp only
        rw [if_pos inactive]
  · intro m poll positive early
    unfold alone sendMessage
    cases creator : m.creator with
    | none => rfl
    | some f =>
        rw [creator, Option.isSome_some, if_pos rfl] at positive early
        dsimp only
        rw [if_neg (not_le.mpr positive), if_pos early]
  · intro m poll positive late
    cases creator : m.creator with
    | none =>
        rw [creator] at positive
        exact absurd positive (lt_irrefl 0)
    | some f =>
        rw [creator, Option.isSome_some, if_pos rfl] at positive late
        have sent : alone sendMessage m poll =
            ({ m with timepoint := poll.1 }, some ⟨m.id, len, (f poll.2).1⟩) := by
          unfold alone sendMessage
          rw [creator]
          dsimp only
          rw [if_neg (not_le.mpr positive), if_neg late]
        rw [sent, ← creator]
        exact ⟨rfl, rfl, rfl⟩

theorem Node.timed :
    Timed (alone (sendMessage (E := E))) Prod.fst fun m => timerOf m.period m.timepoint := by
  apply timed_of_tests
  · intro m poll inactive
    unfold alone sendMessage
    rw [if_pos inactive]
  · intro m poll positive early
    unfold alone sendMessage
    rw [if_neg (not_le.mpr positive), if_pos early]
  · intro m poll positive late
    unfold alone sendMessage
    rw [if_neg (not_le.mpr positive), if_neg late]
    exact ⟨rfl, rfl, rfl⟩

/-! ## One message among others -/

/-- What a program does with a sender: it registers messages, and the main loop
    calls `send`. -/
inductive SenderCall (ρ : Type) where
  | register (r : ρ)
  | send (now : Int)

/-- The times of the calls of `send`. -/
def polls (calls : List (SenderCall ρ)) : List Int :=
  calls.filterMap fun
    | .register _ => none
    | .send now => some now

/-- The messages of a sender, and the state their creators share. -/
structure Sender (μ E : Type) where
  messages : List μ
  env : E

/-- In the loop each message does what it does alone, in some state of the application. -/
theorem sendAll_at (sendOne : μ → E → μ × Option CanFrame × E) {ms : List μ} {i : Nat} {m : μ}
    (here : ms[i]? = some m) (e : E) :
    ∃ e', (sendAll sendOne ms e).1[i]? = some (sendOne m e').1 ∧
      (sendAll sendOne ms e).2.1[i]? = some (sendOne m e').2.1 := by
  induction ms generalizing i e with
  | nil => exact absurd here (by simp)
  | cons m' ms ih =>
      cases i with
      | zero =>
          obtain rfl : m' = m := by simpa using here
          exact ⟨e, rfl, rfl⟩
      | succ i => exact ih here _

theorem length_sendAll (sendOne : μ → E → μ × Option CanFrame × E) (ms : List μ) (e : E) :
    (sendAll sendOne ms e).1.length = ms.length := by
  induction ms generalizing e with
  | nil => rfl
  | cons m ms ih => exact congrArg (· + 1) (ih _)

namespace Sender

section Runs

variable (register : ρ → List μ → List μ) (sendOne : Int → μ → E → μ × Option CanFrame × E)

def step (s : Sender μ E) : SenderCall ρ → Sender μ E
  | .register r => { s with messages := register r s.messages }
  | .send now =>
      let sent := sendAll (sendOne now) s.messages s.env
      ⟨sent.1, sent.2.2⟩

def run (s : Sender μ E) (calls : List (SenderCall ρ)) : Sender μ E :=
  calls.foldl (step register sendOne) s

/-- Whether message `i` puts a frame when `send` is called. -/
def sends (i : Nat) (s : Sender μ E) (now : Int) : Bool :=
  match (sendAll (sendOne now) s.messages s.env).2.1[i]? with
  | some (some _) => true
  | _ => false

/-- The times at which message `i` puts a frame. -/
def sentBy (i : Nat) : Sender μ E → List (SenderCall ρ) → List Int
  | _, [] => []
  | s, .register r :: calls => sentBy i (s.step register sendOne (.register r)) calls
  | s, .send now :: calls =>
      (if s.sends sendOne i now then [now] else []) ++
        sentBy i (s.step register sendOne (.send now)) calls

end Runs

variable {register : ρ → List μ → List μ} {sendOne : Int → μ → E → μ × Option CanFrame × E}

variable (sendOne) in
/-- A message that nobody registers again sends as it does alone, polled at the
    same times: what the other messages do reaches its creator at most. -/
theorem sentBy_alone {i : Nat} (calls : List (SenderCall ρ))
    (kept : ∀ r, .register r ∈ calls → ∀ (ms : List μ) (m : μ), ms[i]? = some m →
      (register r ms)[i]? = some m)
    {s : Sender μ E} {m : μ} (here : s.messages[i]? = some m) :
    ∃ polled : List (Int × E), polled.map Prod.fst = polls calls ∧
      s.sentBy register sendOne i calls = sentAt (alone sendOne) Prod.fst m polled := by
  induction calls generalizing s m with
  | nil => exact ⟨[], rfl, rfl⟩
  | cons call calls ih =>
      have kept' := fun r member => kept r (.tail _ member)
      cases call with
      | register r =>
          apply ih kept'
          exact kept r (.head _) s.messages m here
      | send now =>
          obtain ⟨e, message, frame⟩ := sendAll_at (sendOne now) here s.env
          obtain ⟨polled, times, later⟩ :=
            ih kept' (s := s.step register sendOne (.send now)) message
          have sends : s.sends sendOne i now = (alone sendOne m (now, e)).2.isSome := by
            unfold sends
            rw [frame]
            change _ = (sendOne now m e).2.1.isSome
            cases (sendOne now m e).2.1 <;> rfl
          refine ⟨(now, e) :: polled, congrArg (now :: ·) times, ?_⟩
          unfold sentBy sentAt
          rw [sends, later]
          rfl

/-- So it is a timer, whatever happens to the others. -/
theorem sentBy_eq {timer : μ → Option (Int × Int)}
    (timed : Timed (alone sendOne) Prod.fst timer) {i : Nat} (calls : List (SenderCall ρ))
    (kept : ∀ r, .register r ∈ calls → ∀ (ms : List μ) (m : μ), ms[i]? = some m →
      (register r ms)[i]? = some m)
    {s : Sender μ E} {m : μ} (here : s.messages[i]? = some m) :
    s.sentBy register sendOne i calls =
      match timer m with
      | none => []
      | some (period, start) => firings period start (polls calls) := by
  obtain ⟨polled, times, same⟩ := sentBy_alone sendOne calls kept here
  rw [same, timed.sentAt_eq, times]

end Sender

/-! ## The rate of every message -/

namespace TpdoService

/-- What `registerTpdo` is given, and the time it reads. -/
structure Registration (E : Type) where
  tpdo : Fin 4
  period : Int
  creator : Option (Creator E)
  now : Int

def register (r : Registration E) (messages : List (Message E)) : List (Message E) :=
  registerTpdo messages r.tpdo r.period r.creator r.now

/-- The service after calls from its construction on. -/
def runFrom (node : NodeId) (env : E) (calls : List (SenderCall (Registration E))) :
    Sender (Message E) E :=
  Sender.run register sendMessage ⟨init node, env⟩ calls

theorem length_step (s : Sender (Message E) E) (call : SenderCall (Registration E)) :
    (s.step register sendMessage call).messages.length = s.messages.length := by
  cases call with
  | register r => exact List.length_modify ..
  | send now => exact length_sendAll ..

/-- There is always a message for each of the four objects. -/
theorem length_runFrom (node : NodeId) (env : E) (calls : List (SenderCall (Registration E))) :
    (runFrom node env calls).messages.length = 4 := by
  unfold runFrom Sender.run
  induction calls using List.reverseRecOn with
  | nil => rfl
  | append_singleton calls call ih =>
      rw [List.foldl_append]
      exact (length_step _ call).trans ih

theorem register_at {messages : List (Message E)} (r : Registration E) {m : Message E}
    (here : messages[r.tpdo.val]? = some m) :
    (register r messages)[r.tpdo.val]? =
      some { m with period := r.period, timepoint := r.now, creator := r.creator } := by
  unfold register registerTpdo
  rw [List.getElem?_modify_eq, here]
  rfl

theorem register_other {messages : List (Message E)} (r : Registration E) {tpdo : Fin 4}
    (other : r.tpdo ≠ tpdo) : (register r messages)[tpdo.val]? = messages[tpdo.val]? := by
  unfold register registerTpdo
  apply List.getElem?_modify_ne
  intro same
  exact other (Fin.ext same)

/-- A TPDO sends by its own registration, as long as it is not registered again. -/
theorem sentBy_registered (node : NodeId) (env : E)
    (before after : List (SenderCall (Registration E))) (r : Registration E)
    (kept : ∀ r', .register r' ∈ after → r'.tpdo ≠ r.tpdo) :
    ((runFrom node env before).step register sendMessage (.register r)).sentBy
        register sendMessage r.tpdo after =
      if r.creator.isSome ∧ 0 < r.period then firings r.period r.now (polls after) else [] := by
  have inside : r.tpdo.val < (runFrom node env before).messages.length := by
    rw [length_runFrom]
    exact r.tpdo.isLt
  have here := register_at r (List.getElem?_eq_getElem inside)
  rw [Sender.sentBy_eq timed after _ here]
  · unfold Message.timer timerOf
    by_cases active : r.creator.isSome <;> by_cases positive : 0 < r.period <;>
      simp [active, positive]
  · intro r' member messages m at_
    rw [register_other r' (kept r' member)]
    exact at_

end TpdoService

namespace Node

/-- What `registerTxMessage` is given, and the time it reads. -/
structure TxRegistration (E : Type) where
  id : CanId
  len : BitVec 8
  period : Int
  creator : Creator E
  now : Int

def register (r : TxRegistration E) (messages : List (TxMessage E)) : List (TxMessage E) :=
  registerTxMessage messages r.id r.len r.period r.creator r.now

/-- The node after calls from its construction on. -/
def runFrom (env : E) (calls : List (SenderCall (TxRegistration E))) : Sender (TxMessage E) E :=
  Sender.run register sendMessage ⟨[], env⟩ calls

/-- A message keeps its place, and so sends by its registration for ever. -/
theorem sentBy_registered (env : E) (before after : List (SenderCall (TxRegistration E)))
    (r : TxRegistration E) :
    ((runFrom env before).step register sendMessage (.register r)).sentBy
        register sendMessage (runFrom env before).messages.length after =
      if 0 < r.period then firings r.period r.now (polls after) else [] := by
  have here : (register r (runFrom env before).messages)[(runFrom env before).messages.length]? =
      some ⟨r.period, r.now, r.id, r.len, r.creator⟩ := List.getElem?_concat_length
  rw [Sender.sentBy_eq timed after _ here]
  · unfold timerOf
    by_cases positive : 0 < r.period <;> simp [positive]
  · intro r' _ messages m at_
    exact (List.getElem?_append_left (List.getElem?_eq_some_iff.mp at_).1).trans at_

end Node

/-- The heartbeat sends by its period from its construction on, whatever the node's state. -/
theorem HeartbeatService.sentAt_init (node : NodeId) (period now : Int)
    (polls : List (NmtState × Int)) :
    sentAt (fun s poll => s.send poll.1 poll.2) Prod.snd (init node period now) polls =
      if 0 < period then firings period now (polls.map Prod.snd) else [] := by
  rw [timed.sentAt_eq]
  unfold timerOf init
  by_cases positive : 0 < period <;> simp [positive]

theorem SyncService.sentAt_init (node : NodeId) (period now : Int) (polls : List Int) :
    sentAt send (fun now => now) (init node period now) polls =
      if 0 < period then firings period now polls else [] := by
  rw [timed.sentAt_eq]
  unfold timerOf init
  by_cases positive : 0 < period <;> simp [positive]

/-- Whatever is called before a message is registered and after it, the times the
    message is sent at are a function of its period, the time of its registration
    and the times of the polls, and that function keeps the rate. -/
theorem senders_keep_rate :
    (∀ (node : NodeId) (env : E) (before after : List (SenderCall (TpdoService.Registration E)))
      (r : TpdoService.Registration E),
      (∀ r', .register r' ∈ after → r'.tpdo ≠ r.tpdo) →
      ((TpdoService.runFrom node env before).step TpdoService.register TpdoService.sendMessage
          (.register r)).sentBy TpdoService.register TpdoService.sendMessage r.tpdo after =
        if r.creator.isSome ∧ 0 < r.period then firings r.period r.now (polls after) else []) ∧
    (∀ (env : E) (before after : List (SenderCall (Node.TxRegistration E)))
      (r : Node.TxRegistration E),
      ((Node.runFrom env before).step Node.register Node.sendMessage (.register r)).sentBy
          Node.register Node.sendMessage (Node.runFrom env before).messages.length after =
        if 0 < r.period then firings r.period r.now (polls after) else []) ∧
    (∀ (node : NodeId) (period now : Int) (polls : List (NmtState × Int)),
      sentAt (fun s poll => s.send poll.1 poll.2) Prod.snd
          (HeartbeatService.init node period now) polls =
        if 0 < period then firings period now (polls.map Prod.snd) else []) ∧
    (∀ (node : NodeId) (period now : Int) (polls : List Int),
      sentAt SyncService.send (fun now => now) (SyncService.init node period now) polls =
        if 0 < period then firings period now polls else []) ∧
    ∀ period now, 0 < period → KeepsRate period now (firings period now) :=
  ⟨TpdoService.sentBy_registered, Node.sentBy_registered, HeartbeatService.sentAt_init,
    SyncService.sentAt_init, fun _ now positive => firings_keepsRate positive now⟩

/-- The second TPDO is registered with a period of 10 at time 5; the first is
    registered later. -/
theorem senders_keep_rate_secondTpdo :
    ((TpdoService.runFrom ⟨1⟩ () []).step TpdoService.register TpdoService.sendMessage
        (.register ⟨1, 10, some fun e => (0, e), 5⟩)).sentBy TpdoService.register
          TpdoService.sendMessage (1 : Fin 4)
          [.send 12, .register ⟨0, 3, some fun e => (0, e), 14⟩, .send 20, .send 28, .send 31] =
        [20, 31] ∧
      KeepsRate 10 5 (firings 10 5) := by
  apply And.intro
  · apply (senders_keep_rate.1 ⟨1⟩ () [] _ ⟨1, 10, some fun e => (0, e), 5⟩ _).trans
    · decide
    · intro r' member
      have others : r' = ⟨0, 3, some fun e => (0, e), 14⟩ := by simpa using member
      rw [others]
      decide
  · apply (senders_keep_rate (E := Unit)).2.2.2.2
    decide

end Ucanopen.F4
