import Tracefs.MsgQueue.Rings
import Tracefs.Vfs.Mount

/-!
# Indices into the message arrays

Every node holds an array of `TRFS_MQ_MAX_NO_OF_MSGS` messages, while the ring wraps at the
`maxMsgs` of the attribute record it was opened with.  Opening compares the two nowhere and clears
the slots `0` to `maxMsgs`, the last one included, so the array has to be longer than the ring.
Then no later put or get leaves it.
-/

namespace Tracefs

open Transition

variable {Ptr : Type}

/-- A use of the queues: `trfsMqOpen`, or one of the two inner functions on the node of an id. -/
inductive MqUse (Ptr : Type) where
  | openQueue (mq : Option TrfsMqAttr) (mqIdGiven : Bool)
  | call (mqId : Int) (call : MqCall Ptr)

def MqTable.use (table : MqTable Ptr) : MqUse Ptr → MqTable Ptr
  | .openQueue mq mqIdGiven => (trfsMqOpen table mq mqIdGiven).table
  | .call mqId call =>
      match trfsMqGetNodeById table mqId with
      | none => table
      | some index => table.setNode index ((table.nodes index).call call).1

/-- The values of `jj` in the loop of `trfsMqOpen`. -/
def TrfsMqAttr.initIndices (mq : TrfsMqAttr) : List Int :=
  (List.range (mq.maxMsgs + 1).toNat).map Int.ofNat

namespace TrfsMqInfo

/-- The indices into `msg` that a call evaluates. -/
def indices (node : TrfsMqInfo Ptr) : MqCall Ptr → List Int
  | .put _ _ _ => if node.attr.counter = node.attr.maxMsgs then [] else [node.writeIndex]
  | .get _ => if node.attr.counter = 0 then [] else [node.readIndex]

/-- The right operands of `%` that a call evaluates. -/
def divisors (node : TrfsMqInfo Ptr) : MqCall Ptr → List Int
  | .put _ _ _ => if node.attr.counter = node.attr.maxMsgs then [] else [node.attr.maxMsgs]
  | .get copyOnly => if node.attr.counter = 0 ∨ copyOnly then [] else [node.attr.maxMsgs]

/-- A call stores nothing outside its indices. -/
theorem call_msg_of_not_mem (node : TrfsMqInfo Ptr) (call : MqCall Ptr) {slot : Int}
    (unused : slot ∉ node.indices call) : (node.call call).1.msg slot = node.msg slot := by
  cases call with
  | put msgP msgLen priority =>
      simp only [TrfsMqInfo.call, trfsMqPutMsg]
      by_cases full : node.attr.counter = node.attr.maxMsgs
      · rw [if_pos full]
      · rw [indices, if_neg full, List.mem_singleton] at unused
        rw [if_neg full]
        exact Function.update_of_ne unused ..
  | get copyOnly =>
      simp only [TrfsMqInfo.call, trfsMqGetMsg]
      split
      · rfl
      · cases copyOnly <;> rfl

/-- What a call answers is read at its indices. -/
theorem call_answer_of_agree (node : TrfsMqInfo Ptr) (call : MqCall Ptr)
    {msg : Int → TrfsMqMsg Ptr} (agree : ∀ slot ∈ node.indices call, msg slot = node.msg slot) :
    (TrfsMqInfo.call { node with msg := msg } call).2 = (node.call call).2 := by
  cases call with
  | put msgP msgLen priority =>
      simp only [TrfsMqInfo.call, trfsMqPutMsg]
      split <;> rfl
  | get copyOnly =>
      simp only [TrfsMqInfo.call, trfsMqGetMsg]
      by_cases empty : node.attr.counter = 0
      · simp only [empty, if_true]
      · rw [indices, if_neg empty] at agree
        simp only [empty, if_false, agree node.readIndex (List.mem_singleton_self _)]

def InArray (slot : Int) : Prop := 0 ≤ slot ∧ slot < trfsMqMaxNoOfMsgs

structure SafeCall (node : TrfsMqInfo Ptr) (call : MqCall Ptr) : Prop where
  indices : ∀ slot ∈ node.indices call, InArray slot
  divisors : ∀ divisor ∈ node.divisors call, divisor ≠ 0

variable {node : TrfsMqInfo Ptr}

theorem RingInvariant.safeCall (invariant : node.RingInvariant)
    (fits : node.attr.maxMsgs ≤ trfsMqMaxNoOfMsgs) (call : MqCall Ptr) : node.SafeCall call := by
  have read := invariant.readIndex
  have write := invariant.writeIndex
  constructor
  · intro slot member
    cases call <;> simp only [indices] at member <;> split at member <;>
      simp only [List.not_mem_nil, List.mem_singleton] at member
    · subst member
      exact ⟨write.1, by omega⟩
    · subst member
      exact ⟨read.1, by omega⟩
  · intro divisor member
    cases call <;> simp only [divisors] at member <;> split at member <;>
      simp only [List.not_mem_nil, List.mem_singleton] at member <;> omega

end TrfsMqInfo

open TrfsMqInfo

theorem TrfsMqAttr.forall_initIndices_iff (mq : TrfsMqAttr) (positive : 0 < mq.maxMsgs) :
    (∀ jj ∈ mq.initIndices, InArray jj) ↔ mq.maxMsgs < trfsMqMaxNoOfMsgs := by
  constructor
  · intro inside
    -- the loop's last round
    have last : mq.maxMsgs ∈ mq.initIndices := by
      refine List.mem_map.mpr ⟨mq.maxMsgs.toNat, List.mem_range.mpr (by omega), ?_⟩
      exact Int.toNat_of_nonneg positive.le
    exact (inside _ last).2
  · intro fits jj member
    obtain ⟨round, below, rfl⟩ := List.mem_map.mp member
    have bound := List.mem_range.mp below
    refine ⟨Int.natCast_nonneg round, ?_⟩
    show (round : Int) < trfsMqMaxNoOfMsgs
    omega

namespace MqTable

/-- Every index into a message array lies in it, and no remainder by zero is taken. -/
def SafeUse (table : MqTable Ptr) : MqUse Ptr → Prop
  | .openQueue mq mqIdGiven => (trfsMqOpen table mq mqIdGiven).ret = 0 →
      ∀ attr, mq = some attr → ∀ jj ∈ attr.initIndices, InArray jj
  | .call mqId call => ∀ index, trfsMqGetNodeById table mqId = some index →
      (table.nodes index).SafeCall call

/-- An accepted attribute record leaves the array one slot longer than the ring. -/
def OpensBelowArray (table : MqTable Ptr) : MqUse Ptr → Prop
  | .openQueue mq mqIdGiven => (trfsMqOpen table mq mqIdGiven).ret = 0 →
      ∀ attr, mq = some attr → attr.maxMsgs < trfsMqMaxNoOfMsgs
  | .call _ _ => True

/-- What opens that leave room and calls keep. -/
structure RingsInArray (table : MqTable Ptr) : Prop extends table.Rings where
  fits : ∀ index < table.numAfdxQs, (table.nodes index).attr.maxMsgs ≤ trfsMqMaxNoOfMsgs

namespace RingsInArray

variable {table : MqTable Ptr}

/-- A slot that is not opened yet is full and empty at once, so that a call on it touches
nothing. -/
theorem safeCall (inArray : table.RingsInArray) (index : Nat) (call : MqCall Ptr) :
    (table.nodes index).SafeCall call := by
  by_cases opened : index < table.numAfdxQs
  · exact (inArray.rings index opened).safeCall (inArray.fits index opened) call
  · obtain ⟨_, noRoom, nothing, _, _⟩ :=
      inArray.wellFormed.unopened index (Nat.le_of_not_lt opened)
    constructor <;> cases call <;> simp [TrfsMqInfo.indices, TrfsMqInfo.divisors, noRoom, nothing]

theorem safeUse_iff (inArray : table.RingsInArray) (use : MqUse Ptr) :
    table.SafeUse use ↔ table.OpensBelowArray use := by
  cases use with
  | call mqId call => exact iff_of_true (fun index _ => inArray.safeCall index call) trivial
  | openQueue mq mqIdGiven =>
      apply imp_congr_right
      intro accepted
      rcases trfsMqOpen_cases table mq mqIdGiven with ⟨refused, _⟩ | ⟨attr, rfl, positive, _, _⟩
      · exact absurd (refused.symm.trans accepted) (by decide)
      · simp only [Option.some.injEq, forall_eq']
        exact attr.forall_initIndices_iff positive

theorem setCall (inArray : table.RingsInArray) (index : Nat) (call : MqCall Ptr) :
    (table.setNode index ((table.nodes index).call call).1).RingsInArray where
  toRings := inArray.toRings.call index call
  fits := by
    refine forall_nodes_setNode
      (P := fun index node => index < table.numAfdxQs → node.attr.maxMsgs ≤ trfsMqMaxNoOfMsgs)
      inArray.fits ?_
    intro fits below
    rw [call_maxMsgs]
    exact fits below

theorem addNode (inArray : table.RingsInArray) (room : table.numAfdxQs < trfsMqMaxNoOfQ)
    {mq : TrfsMqAttr} (positive : 0 < mq.maxMsgs) (fits : mq.maxMsgs ≤ trfsMqMaxNoOfMsgs) :
    (table.addNode mq).RingsInArray where
  toRings := inArray.toRings.addNode room positive
  fits := forall_nodes_addNode (P := fun _ node => node.attr.maxMsgs ≤ trfsMqMaxNoOfMsgs)
    (fun _ _ _ same => same) inArray.fits fits

theorem use (inArray : table.RingsInArray) {use : MqUse Ptr} (below : table.OpensBelowArray use) :
    (table.use use).RingsInArray := by
  cases use with
  | call mqId call =>
      simp only [MqTable.use]
      split
      next => exact inArray
      next index found => exact inArray.setCall index call
  | openQueue mq mqIdGiven =>
      simp only [MqTable.use]
      rcases trfsMqOpen_cases table mq mqIdGiven with
        ⟨_, unchanged⟩ | ⟨attr, rfl, positive, room, opened⟩
      · rw [unchanged]
        exact inArray
      · have fits : attr.maxMsgs < trfsMqMaxNoOfMsgs := below (by rw [opened]) attr rfl
        rw [opened]
        apply inArray.addNode room <;> rw [attr.withDefaultFlags_maxMsgs]
        · exact positive
        · exact fits.le

theorem boot : (MqTable.boot : MqTable Ptr).RingsInArray :=
  ⟨Rings.boot, fun _ below => absurd below (Nat.not_lt_zero _)⟩

end RingsInArray

end MqTable

/-- In a run of opens, puts and gets from the loading of the module all accesses are safe exactly
when every accepted open asks for fewer messages than the array holds. -/
theorem msg_accesses_safe_iff (uses : List (MqUse Ptr)) :
    Along MqTable.use MqTable.SafeUse MqTable.boot uses ↔
      Along MqTable.use MqTable.OpensBelowArray MqTable.boot uses := by
  refine along_iff MqTable.RingsInArray ?_ ?_ MqTable.RingsInArray.boot uses
  · intro table use inArray
    exact inArray.safeUse_iff use
  · intro table use inArray safe
    exact inArray.use ((inArray.safeUse_iff use).mp safe)

/-- The first queue of `trfs_create_log_q`: the loop clears `msg[1024]`. -/
theorem trfsCreateLogQ_leaves_array :
    (trfsMqOpen (MqTable.boot : MqTable Message) (some txQAttr) true).ret = 0 ∧
      1024 ∈ txQAttr.initIndices ∧ ¬ InArray 1024 ∧
      ¬ Along MqTable.use MqTable.SafeUse (MqTable.boot : MqTable Message)
        [.openQueue (some txQAttr) true] := by
  have last : (1024 : Int) ∈ txQAttr.initIndices :=
    List.mem_map.mpr ⟨1024, List.mem_range.mpr (by decide), rfl⟩
  have outside : ¬ InArray 1024 := fun inside => absurd inside.2 (by decide)
  refine ⟨by decide, last, outside, ?_⟩
  intro safe
  exact outside (safe.1 (by decide) txQAttr rfl 1024 last)

end Tracefs
