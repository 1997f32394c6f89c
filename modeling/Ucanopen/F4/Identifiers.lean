import Ucanopen.F4.Routing
import Ucanopen.F4.Senders
import Ucanopen.F4.Startup

/-! # The identifiers servers use on a bus

The constructor of a server makes its services, and each derives its identifiers
from the node's: a function code plus the node identifier. Function codes are
multiples of `0x80`, so servers keep apart as long as their node identifiers
differ within one such block. Nothing tests that: `NodeId::valid` is never called.
-/

namespace Ucanopen.F4

variable {α φ E : Type}

/-! ## Construction -/

/-- What the constructor reads of it. -/
structure ServerConfig where
  nodeId : BitVec 32
  heartbeatPeriodMs : BitVec 32
  syncPeriodMs : BitVec 32
  deriving Repr, DecidableEq

inductive CobRpdo where
  | rpdo1 | rpdo2 | rpdo3 | rpdo4
  deriving Repr, DecidableEq

def CobRpdo.toCob : CobRpdo → Cob
  | .rpdo1 => .rpdo1
  | .rpdo2 => .rpdo2
  | .rpdo3 => .rpdo3
  | .rpdo4 => .rpdo4

/-- The identifier of an RPDO: the one given to `register_rpdo`, or for 0 the one that
    `calculate_cob_id` derives. The APM32 driver is given its low 16 bits alone. -/
def RpdoService.rpdoId (rpdo : CobRpdo) (id : CanId) (node : NodeId) : CanId :=
  if id = 0 then calculateCobId rpdo.toCob node else id

/-- The identifier of the requests, as `calculate_cob_id` derives it. -/
def SdoService.rsdoId (node : NodeId) : CanId := calculateCobId .rsdo node

/-- What a server finds when it is constructed: the application's dictionary, the
    leftovers in its RPDO slots, what `register_rxmessage` returns, and the times
    its services read. -/
structure Surroundings (α E : Type) where
  objectDictionary : List (ODEntry 8 E)
  attr : Fin 4 → α
  frame : Fin 4 → CanFrame
  rsdoRxattr : α
  heartbeatNow : Int
  syncNow : Int

/-- A server with all its services. -/
structure BusServer (α φ E : Type) extends Server α φ where
  nodeId : NodeId
  dictionary : ObjectDictionary 8 E
  heartbeatService : HeartbeatService
  syncService : SyncService
  tpdoService : List (TpdoService.Message E)

namespace BusServer

/-- The constructor, over a given `std::sort`. It completes unless an assertion about
    the dictionary fails. -/
def construct (sort : List (ODEntry 8 E) → List (ODEntry 8 E)) (config : ServerConfig)
    (found : Surroundings α E) : Option (BusServer α φ E) :=
  (initWith sort found.objectDictionary).map fun dictionary =>
    let node : NodeId := ⟨config.nodeId⟩
    { toServer := .init found.attr found.frame found.rsdoRxattr node
      nodeId := node
      dictionary := dictionary
      heartbeatService := .init node config.heartbeatPeriodMs.toNat found.heartbeatNow
      syncService := .init node config.syncPeriodMs.toNat found.syncNow
      tpdoService := TpdoService.init node }

/-- The identifiers that are the server's own. -/
def identifiers (s : BusServer α φ E) : List CanId :=
  s.heartbeatService.id :: s.tpdoService.map TpdoService.Message.id ++
    [s.sdoService.tsdoId, SdoService.rsdoId s.nodeId] ++
    [CobRpdo.rpdo1, .rpdo2, .rpdo3, .rpdo4].map fun rpdo => RpdoService.rpdoId rpdo 0 s.nodeId

/-- They fit into eleven bits and are no one else's on the same node. -/
structure WellNumbered (s : BusServer α φ E) : Prop where
  short : ∀ id ∈ s.identifiers, id.toNat ≤ 0x7FF
  distinct : s.identifiers.Nodup
  notBroadcast : s.identifiers.Disjoint
    ([Cob.nmt, .sync, .time].map fun cob => calculateCobId cob s.nodeId)

end BusServer

/-! ## Function codes -/

/-- The function codes of the objects that are a server's own, in the order of `identifiers`. -/
def functionCodes : List CanId :=
  [.heartbeat, .tpdo1, .tpdo2, .tpdo3, .tpdo4, .tsdo, .rsdo, .rpdo1, .rpdo2, .rpdo3, .rpdo4].map
    cobFunctionCodes

/-- The identifiers of the broadcast objects. -/
def broadcastIds : List CanId := [Cob.nmt, .sync, .time].map cobFunctionCodes

theorem functionCodes_nodup : functionCodes.Nodup := by decide

/-- Each function code begins a block of `0x80` identifiers, past the broadcast ones. -/
theorem functionCodes_blocks :
    ∀ code ∈ functionCodes, 0x180 ≤ code.toNat ∧ code.toNat ≤ 0x700 ∧ code.toNat % 0x80 = 0 := by
  unfold functionCodes
  rw [List.forall_mem_map]
  decide

theorem broadcastIds_blocks : ∀ id ∈ broadcastIds, id.toNat ≤ 0x100 ∧ id.toNat % 0x80 = 0 := by
  unfold broadcastIds
  rw [List.forall_mem_map]
  decide

theorem eq_of_aligned {id : CanId} (aligned : id.toNat % 0x80 = 0) :
    id = BitVec.ofNat 32 (0x80 * (id.toNat / 0x80)) := by
  rw [Nat.mul_div_cancel' (Nat.dvd_of_mod_eq_zero aligned)]
  simp

theorem mem_broadcastIds {id : CanId} (low : id.toNat ≤ 0x100) (aligned : id.toNat % 0x80 = 0) :
    id ∈ broadcastIds := by
  have blocks : ∀ k < 3, BitVec.ofNat 32 (0x80 * k) ∈ broadcastIds := by decide
  rw [eq_of_aligned aligned]
  apply blocks
  omega

/-- No block between those of TPDO1 and RSDO is left out. -/
theorem mem_functionCodes {id : CanId} (low : 0x180 ≤ id.toNat) (high : id.toNat ≤ 0x600)
    (aligned : id.toNat % 0x80 = 0) : id ∈ functionCodes := by
  have blocks : ∀ k < 13, 3 ≤ k → BitVec.ofNat 32 (0x80 * k) ∈ functionCodes := by decide
  rw [eq_of_aligned aligned]
  apply blocks <;> omega

theorem lowest_mem : 0x180#32 ∈ functionCodes := by decide

theorem highest_mem : 0x700#32 ∈ functionCodes := by decide

/-! ## One server -/

/-- The node identifiers a server can number its objects from: small ones, and those
    that are negative as 32-bit numbers, as long as no block comes to begin at a
    broadcast identifier or below all of them. -/
def Placed (node : BitVec 32) : Prop :=
  node.toNat ≤ 0xFF ∨ 2 ^ 32 - 0x180 < node.toNat ∧ ¬ 0x80 ∣ node.toNat

instance (node : BitVec 32) : Decidable (Placed node) := inferInstanceAs (Decidable (_ ∨ _ ∧ _))

theorem short_iff (node : BitVec 32) :
    (∀ code ∈ functionCodes, (code + node).toNat ≤ 0x7FF) ↔
      node.toNat ≤ 0xFF ∨ 2 ^ 32 - 0x180 ≤ node.toNat := by
  have bound := node.isLt
  constructor
  · intro short
    -- The highest code is the first to pass the end, the lowest the last to wrap around.
    have highest := short _ highest_mem
    have lowest := short _ lowest_mem
    rw [BitVec.toNat_add, BitVec.toNat_ofNat] at highest lowest
    omega
  · intro range code member
    obtain ⟨low, high, _⟩ := functionCodes_blocks code member
    rw [BitVec.toNat_add]
    omega

/-- Where all identifiers are short, none is a broadcast one exactly on placed nodes. -/
theorem notBroadcast_iff {node : BitVec 32}
    (range : node.toNat ≤ 0xFF ∨ 2 ^ 32 - 0x180 ≤ node.toNat) :
    (∀ code ∈ functionCodes, code + node ∉ broadcastIds) ↔ Placed node := by
  have bound := node.isLt
  constructor
  · intro apart
    apply range.imp_right
    intro top
    by_contra low
    apply apart _ lowest_mem
    apply mem_broadcastIds
    · rw [BitVec.toNat_add, BitVec.toNat_ofNat]
      omega
    · rw [BitVec.toNat_add, BitVec.toNat_ofNat]
      omega
  · intro placed code member among
    obtain ⟨low, high, aligned⟩ := functionCodes_blocks code member
    obtain ⟨below, block⟩ := broadcastIds_blocks _ among
    rw [BitVec.toNat_add] at below block
    obtain small | ⟨top, unaligned⟩ := placed
    · omega
    · omega

theorem Placed.range {node : BitVec 32} (placed : Placed node) :
    node.toNat ≤ 0xFF ∨ 2 ^ 32 - 0x180 ≤ node.toNat := placed.imp_right fun top => top.1.le

namespace BusServer

variable {sort : List (ODEntry 8 E) → List (ODEntry 8 E)} {config : ServerConfig}
  {found : Surroundings α E} {s : BusServer α φ E}

theorem identifiers_eq (made : construct sort config found = some s) :
    s.identifiers = functionCodes.map (· + config.nodeId) := by
  obtain ⟨dictionary, _, rfl⟩ := Option.map_eq_some_iff.mp made
  rfl

/-- What decides is the node identifier alone. -/
theorem wellNumbered_iff (made : construct sort config found = some s) :
    s.WellNumbered ↔ Placed config.nodeId := by
  constructor
  · intro numbered
    have short := numbered.short
    have apart := numbered.notBroadcast
    rw [identifiers_eq made] at short apart
    have range := (short_iff _).mp (List.forall_mem_map.mp short)
    apply (notBroadcast_iff range).mp
    intro code member among
    exact apart (List.mem_map_of_mem member) among
  · intro placed
    constructor
    · rw [identifiers_eq made, List.forall_mem_map]
      exact (short_iff _).mpr placed.range
    · rw [identifiers_eq made]
      apply functionCodes_nodup.map
      intro code code' same
      exact (BitVec.add_left_inj _).mp same
    · rw [identifiers_eq made]
      intro id own among
      obtain ⟨code, member, rfl⟩ := List.mem_map.mp own
      exact (notBroadcast_iff placed.range).mpr placed code member among

end BusServer

/-! ## Two servers -/

/-- Adding a function code keeps the place within a block. -/
theorem mod_of_code {code : CanId} (member : code ∈ functionCodes) (node : BitVec 32) :
    (code + node).toNat % 0x80 = node.toNat % 0x80 := by
  obtain ⟨_, _, aligned⟩ := functionCodes_blocks code member
  rw [BitVec.toNat_add]
  omega

/-- The lowest identifier of a placed node is within five blocks. -/
theorem Placed.lowest {node : BitVec 32} (placed : Placed node) :
    (0x180#32 + node).toNat ≤ 0x27F := by
  have range := placed.range
  rw [BitVec.toNat_add, BitVec.toNat_ofNat]
  omega

/-- Of two placed nodes with the same place within a block, the lower one has an
    object where the higher one has TPDO1. -/
theorem shared_of_lower {a b : BitVec 32} (placed : Placed b)
    (same : a.toNat % 0x80 = b.toNat % 0x80) (lower : (0x180#32 + a).toNat < (0x180#32 + b).toNat) :
    ∃ code ∈ functionCodes, code + a = 0x180#32 + b := by
  have near := placed.lowest
  have place := mod_of_code lowest_mem a
  have place' := mod_of_code lowest_mem b
  have moved : 0x180#32 + b - a + a = 0x180#32 + b := BitVec.sub_add_cancel _ _
  have code : (0x180#32 + b - a).toNat =
      0x180 + ((0x180#32 + b).toNat - (0x180#32 + a).toNat) := by
    bv_omega
  refine ⟨0x180#32 + b - a, ?_, moved⟩
  apply mem_functionCodes <;> omega

/-- Placed nodes share no identifier exactly when their places within a block differ. -/
theorem disjoint_iff {a b : BitVec 32} (differ : a ≠ b) (placed : Placed a) (placed' : Placed b) :
    (functionCodes.map (· + a)).Disjoint (functionCodes.map (· + b)) ↔
      a.toNat % 0x80 ≠ b.toNat % 0x80 := by
  constructor
  · intro apart same
    obtain lower | equal | higher :=
      lt_trichotomy (0x180#32 + a).toNat (0x180#32 + b).toNat
    · obtain ⟨code, member, shared⟩ := shared_of_lower placed' same lower
      apply apart (List.mem_map_of_mem member)
      exact shared ▸ List.mem_map_of_mem lowest_mem
    · exact differ ((BitVec.add_right_inj _).mp (BitVec.eq_of_toNat_eq equal))
    · obtain ⟨code, member, shared⟩ := shared_of_lower placed same.symm higher
      apply apart (List.mem_map_of_mem lowest_mem)
      exact shared ▸ List.mem_map_of_mem member
  · intro apart id own other
    obtain ⟨code, member, rfl⟩ := List.mem_map.mp own
    obtain ⟨code', member', same⟩ := List.mem_map.mp other
    rw [← mod_of_code member a, ← mod_of_code member' b] at apart
    exact apart (congrArg (·.toNat % 0x80) same.symm)

theorem range_of_valid {node : NodeId} (valid : node.valid = true) :
    1 ≤ node.id.toNat ∧ node.id.toNat ≤ 127 := by
  simpa [NodeId.valid] using valid

theorem placed_of_valid {node : NodeId} (valid : node.valid = true) : Placed node.id := by
  have range := range_of_valid valid
  left
  omega

namespace BusServer

variable {β ψ F : Type} {sort : List (ODEntry 8 E) → List (ODEntry 8 E)}
  {sort' : List (ODEntry 8 F) → List (ODEntry 8 F)} {a b : ServerConfig}
  {found : Surroundings α E} {found' : Surroundings β F} {s : BusServer α φ E}
  {t : BusServer β ψ F}

/-- Two servers with different node identifiers are well numbered and share nothing
    exactly when both are placed, at different places within a block. -/
theorem apart_iff_placed (made : construct sort a found = some s)
    (made' : construct sort' b found' = some t) (differ : a.nodeId ≠ b.nodeId) :
    s.WellNumbered ∧ t.WellNumbered ∧ s.identifiers.Disjoint t.identifiers ↔
      Placed a.nodeId ∧ Placed b.nodeId ∧ a.nodeId.toNat % 0x80 ≠ b.nodeId.toNat % 0x80 := by
  rw [wellNumbered_iff made, wellNumbered_iff made', identifiers_eq made, identifiers_eq made']
  constructor
  · rintro ⟨placed, placed', apart⟩
    exact ⟨placed, placed', (disjoint_iff differ placed placed').mp apart⟩
  · rintro ⟨placed, placed', apart⟩
    exact ⟨placed, placed', (disjoint_iff differ placed placed').mpr apart⟩

/-- Identifiers that `valid` accepts are enough. -/
theorem apart_of_valid (made : construct sort a found = some s)
    (made' : construct sort' b found' = some t) (differ : a.nodeId ≠ b.nodeId)
    (valid : (NodeId.mk a.nodeId).valid = true) (valid' : (NodeId.mk b.nodeId).valid = true) :
    s.WellNumbered ∧ t.WellNumbered ∧ s.identifiers.Disjoint t.identifiers := by
  have numbered := (wellNumbered_iff made).mpr (placed_of_valid valid)
  have numbered' := (wellNumbered_iff made').mpr (placed_of_valid valid')
  refine ⟨numbered, numbered', ?_⟩
  rw [identifiers_eq made, identifiers_eq made']
  apply (disjoint_iff differ (placed_of_valid valid) (placed_of_valid valid')).mpr
  intro same
  apply differ
  obtain ⟨_, small⟩ := range_of_valid valid
  obtain ⟨_, small'⟩ := range_of_valid valid'
  rw [Nat.mod_eq_of_lt (Nat.lt_succ_of_le small), Nat.mod_eq_of_lt (Nat.lt_succ_of_le small')] at same
  exact BitVec.eq_of_toNat_eq same

section Overlapping

/-- An application without a dictionary. -/
def bare : Surroundings Nat Unit where
  objectDictionary := []
  attr _ := 0
  frame _ := ⟨0, 0, 0⟩
  rsdoRxattr := 5
  heartbeatNow := 0
  syncNow := 0

/-- What its server is with this node identifier. -/
def bareServer (node : BitVec 32) : BusServer Nat Unit Unit where
  toServer := .init (fun _ => 0) (fun _ => ⟨0, 0, 0⟩) 5 ⟨node⟩
  nodeId := ⟨node⟩
  dictionary := .empty
  heartbeatService := .init ⟨node⟩ 1000 0
  syncService := .init ⟨node⟩ 0 0
  tpdoService := TpdoService.init ⟨node⟩

theorem construct_bare (node : BitVec 32) :
    construct (fun l => l.mergeSort fun a b => !b.lt a) ⟨node, 1000, 0⟩ bare =
      some (bareServer node) := by
  have made : initWith (fun l => l.mergeSort fun a b => !b.lt a) bare.objectDictionary =
      some .empty := initWith_eq_some.mpr List.mergeSort_nil.symm
  unfold construct
  rw [made]
  rfl

/-- TPDO1 of node 129 has the identifier of RPDO1 of node 1. -/
theorem unchecked_overlap :
    construct (fun l => l.mergeSort fun a b => !b.lt a) ⟨1, 1000, 0⟩ bare =
        some (bareServer 1) ∧
      construct (fun l => l.mergeSort fun a b => !b.lt a) ⟨129, 1000, 0⟩ bare =
        some (bareServer 129) ∧
      0x201#32 ∈ (bareServer 1).identifiers ∧ 0x201#32 ∈ (bareServer 129).identifiers := by
  refine ⟨construct_bare 1, construct_bare 129, ?_, ?_⟩
  all_goals decide

theorem apart_iff_placed_neighbours :
    (bareServer 1).WellNumbered ∧ (bareServer 2).WellNumbered ∧
        (bareServer 1).identifiers.Disjoint (bareServer 2).identifiers ↔
      Placed 1 ∧ Placed 2 ∧ (1#32).toNat % 0x80 ≠ (2#32).toNat % 0x80 :=
  apart_iff_placed (construct_bare 1) (construct_bare 2) (by decide)

end Overlapping

end BusServer

end Ucanopen.F4
