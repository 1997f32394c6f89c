import Ucanopen.F4.SdoService
import Ucanopen.F4.Reception

/-! # Which receiver a frame is given to

`Server::start` builds `rxattr_map_` from what its receivers hold at that time,
and later starts leave it as it is. An attribute that a receiver got before the
first start is therefore routed to it for as long as it holds it, and one that
it got later is not routed at all.
-/

namespace Ucanopen.F4

open Ucanopen.Reception

variable {n : Nat} {α φ : Type}

/-! ## The server and its receivers -/

def RpdoService.getRxAttr (t : Table 4 α φ) : List α :=
  (List.finRange 4).filterMap fun i =>
    if (t i).handler.isSome then some (t i).attr else none

def SdoService.getRxAttr (s : SdoService α) : List α := [s.rsdoRxattr]

def Node.getRxAttr (t : Table n α φ) : List α := (List.finRange n).map fun i => (t i).attr

/-- What an `impl::FrameReceiver*` of the server points to; nodes by their place in
    `nodes`. -/
inductive FrameReceiver where
  | rpdoService
  | sdoService
  | node (k : Nat)
  deriving Repr, DecidableEq

structure Server (α φ : Type) where
  rpdoService : Table 4 α φ
  sdoService : SdoService α
  nodes : List (Σ n, Table n α φ)
  rxattrMap : List (α × FrameReceiver)
  nmtState : NmtState

namespace Server

/-- The constructor, given what the RPDO slots happen to contain and the attribute
    the SDO service got. -/
def init (attr : Fin 4 → α) (frame : Fin 4 → CanFrame) (rsdoRxattr : α) (node : NodeId) :
    Server α φ where
  rpdoService := RpdoService.init attr frame
  sdoService := .init rsdoRxattr node
  nodes := []
  rxattrMap := []
  nmtState := .preOperational

/-- `add_node`, which the constructor of a node calls. -/
def addNode (s : Server α φ) : Server α φ := { s with nodes := s.nodes ++ [⟨0, Node.init⟩] }

/-- The entries `start` pushes: those of the RPDO service, of the SDO service and of
    each node, in this order. -/
def routes (s : Server α φ) : List (α × FrameReceiver) :=
  (RpdoService.getRxAttr s.rpdoService).map (fun attr => (attr, .rpdoService)) ++
    s.sdoService.getRxAttr.map (fun attr => (attr, .sdoService)) ++
    s.nodes.zipIdx.flatMap fun (node, k) =>
      (Node.getRxAttr node.2).map fun attr => (attr, .node k)

def start (s : Server α φ) : Server α φ :=
  { s with
    rxattrMap := if s.rxattrMap.isEmpty then s.routes else s.rxattrMap
    nmtState := .operational }

def stop (s : Server α φ) : Server α φ := { s with nmtState := .stopped }

/-- The receiver whose `recv` is called for a frame with this attribute. -/
def receiver [DecidableEq α] (s : Server α φ) (attr : α) : Option FrameReceiver :=
  (s.rxattrMap.find? fun item => decide (item.1 = attr)).map Prod.snd

def onFrameReceived [DecidableEq α] (s : Server α φ) (attr : α) (frame : CanFrame) (now : Int) :
    Server α φ :=
  match s.receiver attr with
  | none => s
  | some .rpdoService =>
      { s with rpdoService := (RpdoService.recv s.rpdoService attr frame now).2 }
  | some .sdoService => { s with sdoService := (s.sdoService.recv attr frame).1 }
  | some (.node k) =>
      { s with nodes := s.nodes.modify k fun node => ⟨node.1, (Node.recv node.2 attr frame now).2⟩ }

/-- The calls a program configures and runs a server with. Where `register_rxmessage`
    is called, the attribute it returns is given. -/
inductive Call (α φ : Type) where
  | registerRpdo (rpdo : Fin 4) (attr : α) (timeout : Int) (handler : Option φ) (now : Int)
  | addNode
  | registerRxMessage (k : Nat) (attr : α) (timeout : Int) (handler : Option φ) (now : Int)
  | start
  | stop

def step (s : Server α φ) : Call α φ → Server α φ
  | .registerRpdo rpdo attr timeout handler now =>
      { s with rpdoService := RpdoService.registerRpdo s.rpdoService rpdo attr timeout handler now }
  | .addNode => s.addNode
  | .registerRxMessage k attr timeout handler now =>
      { s with
        nodes := s.nodes.modify k fun node =>
          ⟨node.1 + 1, Node.registerRxMessage node.2 attr timeout handler now⟩ }
  | .start => s.start
  | .stop => s.stop

/-- The attribute the call got from `register_rxmessage`. -/
def Call.attr? : Call α φ → Option α
  | .registerRpdo _ attr _ _ _ => some attr
  | .registerRxMessage _ attr _ _ _ => some attr
  | _ => none

/-- The receiver currently holds the attribute, and wants its frames. -/
def Holds (s : Server α φ) (attr : α) : FrameReceiver → Prop
  | .rpdoService => ∃ i, (s.rpdoService i).attr = attr ∧ (s.rpdoService i).handler.isSome = true
  | .sdoService => s.sdoService.rsdoRxattr = attr
  | .node k => ∃ node, s.nodes[k]? = some node ∧ ∃ i, (node.2 i).attr = attr

/-! ## The entries are what is held -/

theorem mem_rpdo_attrs {t : Table 4 α φ} {attr : α} :
    attr ∈ RpdoService.getRxAttr t ↔ ∃ i, (t i).attr = attr ∧ (t i).handler.isSome = true := by
  simp [RpdoService.getRxAttr, and_comm]

theorem mem_node_attrs {t : Table n α φ} {attr : α} :
    attr ∈ Node.getRxAttr t ↔ ∃ i, (t i).attr = attr := by
  simp [Node.getRxAttr]

theorem mem_routes_iff (s : Server α φ) (attr : α) (owner : FrameReceiver) :
    (attr, owner) ∈ s.routes ↔ s.Holds attr owner := by
  unfold routes
  cases owner with
  | rpdoService => simp [Holds, mem_rpdo_attrs]
  | sdoService => simp [Holds, SdoService.getRxAttr, eq_comm]
  | node k =>
      simp only [List.mem_append, List.mem_map, List.mem_flatMap, Prod.mk.injEq, reduceCtorEq,
        and_false, exists_false, false_or, Prod.exists, Holds]
      constructor
      · rintro ⟨node, j, inside, _, holds, rfl, same⟩
        obtain rfl := FrameReceiver.node.inj same
        exact ⟨node, List.mem_zipIdx_iff_getElem?.mp inside, mem_node_attrs.mp holds⟩
      · rintro ⟨node, inside, holds⟩
        exact ⟨node, k, List.mem_zipIdx_iff_getElem?.mpr inside, attr, mem_node_attrs.mpr holds,
          rfl, rfl⟩

theorem routes_ne_nil (s : Server α φ) : s.routes ≠ [] := by
  have holds : (s.sdoService.rsdoRxattr, .sdoService) ∈ s.routes := (s.mem_routes_iff _ _).mpr rfl
  exact List.ne_nil_of_mem holds

/-- Looking an attribute up in the entries finds its only owner. -/
theorem receiver_eq_some [DecidableEq α] {s t : Server α φ} (built : s.rxattrMap = t.routes)
    {attr : α} {owner : FrameReceiver} (holds : t.Holds attr owner)
    (unique : ∀ owner', t.Holds attr owner' → owner' = owner) : s.receiver attr = some owner := by
  unfold receiver
  rw [built]
  have member := (t.mem_routes_iff attr owner).mpr holds
  cases found : t.routes.find? fun item => decide (item.1 = attr) with
  | none =>
      have absent := List.find?_eq_none.mp found _ member
      exact absurd (decide_eq_true rfl) absent
  | some item =>
      obtain ⟨attr', owner'⟩ := item
      have met := List.find?_some found
      obtain rfl : attr' = attr := of_decide_eq_true met
      have holds' := (t.mem_routes_iff _ _).mp (List.mem_of_find?_eq_some found)
      exact congrArg some (unique owner' holds')

theorem receiver_eq_none [DecidableEq α] {s t : Server α φ} (built : s.rxattrMap = t.routes)
    {attr : α} (nowhere : ∀ owner, ¬ t.Holds attr owner) : s.receiver attr = none := by
  unfold receiver
  rw [built]
  have absent : ∀ item ∈ t.routes, ¬ decide (item.1 = attr) = true := by
    rintro ⟨attr', owner⟩ member same
    obtain rfl : attr' = attr := of_decide_eq_true same
    exact nowhere owner ((t.mem_routes_iff _ _).mp member)
  rw [List.find?_eq_none.mpr absent]
  rfl

/-! ## What a call can change -/

/-- Who holds the attribute that the call got. -/
def Call.owner : Call α φ → Option FrameReceiver
  | .registerRpdo _ _ _ _ _ => some .rpdoService
  | .registerRxMessage k _ _ _ _ => some (.node k)
  | _ => none

theorem holds_of_register {t : Table n α φ} {attr attr' : α} {timeout now : Int}
    {handler : Option φ}
    (has : ∃ i, (Node.registerRxMessage t attr' timeout handler now i).attr = attr) :
    (∃ i, (t i).attr = attr) ∨ attr' = attr := by
  obtain ⟨i, same⟩ := has
  induction i using Fin.lastCases with
  | last => exact .inr (by simpa [Node.registerRxMessage] using same)
  | cast i => exact .inl ⟨i, by simpa [Node.registerRxMessage] using same⟩

/-- A new node holds nothing. -/
theorem holds_of_addNode {s : Server α φ} {attr : α} {owner : FrameReceiver}
    (holds : (s.step .addNode).Holds attr owner) : s.Holds attr owner := by
  cases owner with
  | rpdoService => exact holds
  | sdoService => exact holds
  | node k =>
      obtain ⟨node, inside, i, same⟩ := holds
      change (s.nodes ++ [⟨0, Node.init⟩])[k]? = some node at inside
      by_cases old : k < s.nodes.length
      · rw [List.getElem?_append_left old] at inside
        exact ⟨node, inside, i, same⟩
      · rw [List.getElem?_append_right (Nat.le_of_not_lt old)] at inside
        have member := List.mem_of_getElem? inside
        obtain rfl := List.mem_singleton.mp member
        exact i.elim0

theorem holds_of_registerRpdo {s : Server α φ} {rpdo : Fin 4} {attr attr' : α}
    {timeout now : Int} {handler : Option φ} {owner : FrameReceiver}
    (holds : (s.step (.registerRpdo rpdo attr' timeout handler now)).Holds attr owner) :
    s.Holds attr owner ∨ attr' = attr ∧ owner = .rpdoService := by
  cases owner with
  | rpdoService =>
      obtain ⟨i, same, wants⟩ := holds
      by_cases here : i = rpdo
      · subst here
        have new : attr' = attr := by simpa [step, RpdoService.registerRpdo] using same
        exact .inr ⟨new, rfl⟩
      · simp only [step, RpdoService.registerRpdo, Function.update_of_ne here] at same wants
        exact .inl ⟨i, same, wants⟩
  | sdoService => exact .inl holds
  | node k => exact .inl holds

theorem holds_of_registerRxMessage {s : Server α φ} {k : Nat} {attr attr' : α}
    {timeout now : Int} {handler : Option φ} {owner : FrameReceiver}
    (holds : (s.step (.registerRxMessage k attr' timeout handler now)).Holds attr owner) :
    s.Holds attr owner ∨ attr' = attr ∧ owner = .node k := by
  cases owner with
  | rpdoService => exact .inl holds
  | sdoService => exact .inl holds
  | node k' =>
      obtain ⟨node, inside, has⟩ := holds
      simp only [step, List.getElem?_modify, Option.map_eq_map, Option.map_eq_some_iff] at inside
      obtain ⟨before, inside, made⟩ := inside
      by_cases here : k = k'
      · subst here
        rw [if_pos rfl] at made
        subst made
        obtain old | new := holds_of_register has
        · exact .inl ⟨before, inside, old⟩
        · exact .inr ⟨new, rfl⟩
      · rw [if_neg here] at made
        subst made
        exact .inl ⟨before, inside, has⟩

/-- A receiver holds after a call what it held before, or what the call gave it. -/
theorem holds_of_step {s : Server α φ} {c : Call α φ} {attr : α} {owner : FrameReceiver}
    (holds : (s.step c).Holds attr owner) :
    s.Holds attr owner ∨ c.attr? = some attr ∧ c.owner = some owner := by
  cases c with
  | start => exact .inl (by cases owner <;> exact holds)
  | stop => exact .inl (by cases owner <;> exact holds)
  | addNode => exact .inl (holds_of_addNode holds)
  | registerRpdo rpdo attr' timeout handler now =>
      obtain old | ⟨rfl, rfl⟩ := holds_of_registerRpdo holds
      · exact .inl old
      · exact .inr ⟨rfl, rfl⟩
  | registerRxMessage k attr' timeout handler now =>
      obtain old | ⟨rfl, rfl⟩ := holds_of_registerRxMessage holds
      · exact .inl old
      · exact .inr ⟨rfl, rfl⟩

/-! ## Whole lives of a server -/

/-- What `register_rxmessage` returned, in order. -/
def attrs (calls : List (Call α φ)) : List α := calls.flatMap fun c => c.attr?.toList

@[simp] theorem attrs_cons (c : Call α φ) (calls : List (Call α φ)) :
    attrs (c :: calls) = c.attr?.toList ++ attrs calls := rfl

/-- Whatever is held was returned, and has one owner. -/
structure Owned (s : Server α φ) (returned : List α) : Prop where
  mem : ∀ attr owner, s.Holds attr owner → attr ∈ returned
  unique : ∀ attr owner owner', s.Holds attr owner → s.Holds attr owner' → owner = owner'

theorem Owned.init (attr : Fin 4 → α) (frame : Fin 4 → CanFrame) (rsdoRxattr : α) (node : NodeId) :
    Owned (init (φ := φ) attr frame rsdoRxattr node) [rsdoRxattr] := by
  have only : ∀ a owner, (Server.init (φ := φ) attr frame rsdoRxattr node).Holds a owner →
      a = rsdoRxattr ∧ owner = .sdoService := by
    intro a owner holds
    cases owner with
    | rpdoService =>
        obtain ⟨i, _, wants⟩ := holds
        exact absurd wants nofun
    | sdoService => exact ⟨Eq.symm holds, rfl⟩
    | node k =>
        obtain ⟨node, inside, _⟩ := holds
        exact absurd inside nofun
  constructor
  · intro a owner holds
    exact List.mem_singleton.mpr (only a owner holds).1
  · intro a owner owner' holds holds'
    exact (only a owner holds).2.trans (only a owner' holds').2.symm

theorem Owned.step {s : Server α φ} {returned : List α} (owned : Owned s returned)
    (c : Call α φ) (fresh : (returned ++ c.attr?.toList).Nodup) :
    Owned (s.step c) (returned ++ c.attr?.toList) := by
  have isNew : ∀ attr, c.attr? = some attr → attr ∉ returned := by
    intro attr got old
    rw [got] at fresh
    exact (List.nodup_append.mp fresh).2.2 attr old attr (by simp) rfl
  constructor
  · intro attr owner holds
    obtain old | ⟨got, _⟩ := holds_of_step holds
    · exact List.mem_append_left _ (owned.mem attr owner old)
    · exact List.mem_append_right _ (by simp [got])
  · intro attr owner owner' holds holds'
    obtain old | ⟨got, here⟩ := holds_of_step holds
    · obtain old' | ⟨got', _⟩ := holds_of_step holds'
      · exact owned.unique attr owner owner' old old'
      · exact absurd (owned.mem attr owner old) (isNew attr got')
    · obtain old' | ⟨_, here'⟩ := holds_of_step holds'
      · exact absurd (owned.mem attr owner' old') (isNew attr got)
      · exact Option.some.inj (here.symm.trans here')

theorem Owned.run {s : Server α φ} {returned : List α} (owned : Owned s returned)
    (calls : List (Call α φ)) (fresh : (returned ++ attrs calls).Nodup) :
    Owned (Run.run Server.step s calls) (returned ++ attrs calls) := by
  induction calls generalizing s returned with
  | nil => simpa [attrs] using owned
  | cons c calls ih =>
      rw [attrs_cons, ← List.append_assoc] at fresh ⊢
      exact ih (owned.step c (List.Nodup.of_append_left fresh)) fresh

/-- What a later call did not give was held before. -/
theorem holds_before {s : Server α φ} {calls : List (Call α φ)} {attr : α} {owner : FrameReceiver}
    (holds : (Run.run step s calls).Holds attr owner) (old : attr ∉ attrs calls) :
    s.Holds attr owner := by
  induction calls generalizing s with
  | nil => exact holds
  | cons c calls ih =>
      rw [attrs_cons, List.mem_append, not_or] at old
      obtain before | ⟨got, _⟩ := holds_of_step (ih holds old.2)
      · exact before
      · exact absurd (by simp [got]) old.1

theorem map_step {s : Server α φ} (built : s.rxattrMap ≠ []) (c : Call α φ) :
    (s.step c).rxattrMap = s.rxattrMap := by
  cases c with
  | start => exact if_neg (by simpa using built)
  | _ => rfl

/-- The entries are built once. -/
theorem map_run {s : Server α φ} (built : s.rxattrMap ≠ []) (calls : List (Call α φ)) :
    (Run.run step s calls).rxattrMap = s.rxattrMap := by
  induction calls generalizing s with
  | nil => rfl
  | cons c calls ih =>
      have same := map_step built c
      rw [Run.run_cons, ih (by rwa [same]), same]

theorem map_before_start {s : Server α φ} (empty : s.rxattrMap = []) {calls : List (Call α φ)}
    (never : .start ∉ calls) : (Run.run step s calls).rxattrMap = [] := by
  induction calls generalizing s with
  | nil => exact empty
  | cons c calls ih =>
      rw [List.mem_cons, not_or] at never
      apply ih _ never.2
      cases c with
      | start => exact absurd rfl never.1
      | _ => exact empty

theorem holds_start {s : Server α φ} {attr : α} {owner : FrameReceiver} :
    s.start.Holds attr owner ↔ s.Holds attr owner := by
  cases owner <;> exact Iff.rfl

/-- From the first start on, what is held is routed to its owner if it was got
    before that start, and not routed if it was got later. -/
theorem routed_iff_before_first_start [DecidableEq α] (attr : Fin 4 → α) (frame : Fin 4 → CanFrame)
    (rsdoRxattr : α) (node : NodeId) (before after : List (Call α φ)) (first : .start ∉ before)
    (fresh : (rsdoRxattr :: (attrs before ++ attrs after)).Nodup) :
    let s := Run.run step (init attr frame rsdoRxattr node) (before ++ .start :: after)
    ∀ a owner, s.Holds a owner →
      (a = rsdoRxattr ∨ a ∈ attrs before) ∧ s.receiver a = some owner ∨
        a ∈ attrs after ∧ s.receiver a = none := by
  intro s a owner holds
  have fresh' : ((rsdoRxattr :: attrs before) ++ attrs after).Nodup := fresh
  obtain ⟨s₁, reached⟩ : ∃ s₁, Run.run step (init attr frame rsdoRxattr node) before = s₁ := ⟨_, rfl⟩
  have later : s = Run.run step s₁.start after := by
    rw [← reached]
    exact List.foldl_append
  have owned : Owned s₁ (rsdoRxattr :: attrs before) := by
    rw [← reached]
    exact (Owned.init attr frame rsdoRxattr node).run before fresh'.of_append_left
  have empty : s₁.rxattrMap = [] := by
    rw [← reached]
    exact map_before_start rfl first
  have start : s₁.start.rxattrMap = s₁.routes := if_pos (by simp [empty])
  have built : s.rxattrMap = s₁.routes := by
    rw [later, map_run (by rw [start]; exact s₁.routes_ne_nil), start]
  rw [later] at holds
  by_cases late : a ∈ attrs after
  · refine .inr ⟨late, receiver_eq_none built fun owner' held => ?_⟩
    have early := owned.mem a owner' held
    exact (List.nodup_append.mp fresh').2.2 a early a late rfl
  · have held := holds_start.mp (holds_before holds late)
    refine .inl ⟨List.mem_cons.mp (owned.mem a owner held), receiver_eq_some built held ?_⟩
    intro owner' held'
    exact owned.unique a owner' owner held' held

section Restarted

/-- The server is started and stopped before its first RPDO is registered. -/
def restarted : List (Call Nat Unit) :=
  [.start, .stop, .registerRpdo rpdo1 7 100 (some ()) 0, .start]

def restartedServer : Server Nat Unit :=
  Run.run step (init (fun _ => 0) (fun _ => ⟨0, 0, 0⟩) 5 ⟨1⟩) restarted

/-- Right after the second start, frames for the RPDO go nowhere. -/
theorem restarted_drops :
    restartedServer.Holds 7 .rpdoService ∧ restartedServer.receiver 7 = none := by
  refine ⟨⟨rpdo1, ?_⟩, ?_⟩
  all_goals decide

theorem routed_iff_before_first_start_restarted :
    (7 = 5 ∨ 7 ∈ attrs ([] : List (Call Nat Unit))) ∧
        restartedServer.receiver 7 = some .rpdoService ∨
      7 ∈ attrs ([.stop, .registerRpdo rpdo1 7 100 (some ()) 0, .start] : List (Call Nat Unit)) ∧
        restartedServer.receiver 7 = none := by
  have held : restartedServer.Holds 7 .rpdoService := ⟨rpdo1, by decide⟩
  apply routed_iff_before_first_start (fun _ => 0) (fun _ => ⟨0, 0, 0⟩) 5 ⟨1⟩ []
    [.stop, .registerRpdo rpdo1 7 100 (some ()) 0, .start]
  · exact List.not_mem_nil
  · decide
  · exact held

end Restarted

end Server

end Ucanopen.F4
