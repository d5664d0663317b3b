import Tracefs.MsgQueue.Rings
import Tracefs.Vfs.Mount

/-!
# Who owns a buffer

Record buffers and the placeholders that the log thread receives into are known
by the number of their allocation.  Producers, the queue and the thread hand them
on by pointer; the ledger says where each of them is, and what has been freed.
-/

namespace Tracefs

open Bytes Transition

section Messages

variable {Ptr : Type}

/-- The queue with the id, if there is one, is a ring of the capacity. -/
structure MqTable.Serves (table : MqTable Ptr) (mqId capacity : Int) : Prop where
  ring : ∀ index, trfsMqGetNodeById table mqId = some index → (table.nodes index).RingInvariant
  capacity : ∀ index, trfsMqGetNodeById table mqId = some index →
    (table.nodes index).attr.maxMsgs = capacity

end Messages

/-- What is sent: a buffer of `kmalloc`, or `exit_msg` on the stack of
`trfs_kthread_exit`. -/
inductive Pointer where
  | buffer (handle : Nat)
  | exitMsg
  deriving DecidableEq

def handleOf : Option Pointer → Option Nat
  | some (.buffer handle) => some handle
  | _ => none

/-- Where `trfs_log_write_func` stands.  Until a message is taken `msg1` and `msg2`
point to one placeholder. -/
inductive RxThread where
  | looping
  | receiving (placeholder : Option Nat)
  | tested (placeholder : Option Nat)
  | received (msg1 : Option Pointer) (msg2 : Option Nat) (failed : Bool)
  | left

def RxThread.owned : RxThread → List Nat
  | .looping | .left => []
  | .receiving placeholder | .tested placeholder => placeholder.toList
  | .received msg1 msg2 _ => (handleOf msg1).toList ++ msg2.toList

structure BufferLedger where
  table : MqTable Pointer
  thread : RxThread
  len : Int
  /-- Records that are built and not yet sent. -/
  built : List Nat
  /-- Records whose send has failed and that `TRFS_WRITE` is about to free. -/
  refused : List Nat
  freed : List Nat
  allocated : Nat

inductive LedgerAction where
  | kmallocRecord (succeeds : Bool)
  | trfsWrite (buf : Option Nat) (size : BitVec 64)
  | kfreeRefused (buf : Nat)
  | trfsKthreadExit
  | setExitFlag
  | clearExitFlag
  | kmallocPlaceholder (succeeds : Bool)
  | recvTest
  | recvTake
  | handle (complete : Bool)

/-- `trfsMqRecv` gives up before it takes a message. -/
def recvGivesUp (table : MqTable Pointer) (mqId : Int) : Bool :=
  match trfsMqGetNodeById table mqId with
  | none => true
  | some index => (trfsMqRecvTest (table.nodes index)).isSome

namespace BufferLedger

def start (table : MqTable Pointer) : BufferLedger :=
  ⟨table, .looping, 1, [], [], [], 0⟩

/-- One step of a producer or of the log thread.  A step that its program counter
does not allow changes nothing. -/
def step (mqId : Int) (ledger : BufferLedger) : LedgerAction → BufferLedger
  | .kmallocRecord succeeds =>
      if succeeds then
        { ledger with
          built := ledger.built ++ [ledger.allocated]
          allocated := ledger.allocated + 1 }
      else ledger
  | .trfsWrite none size => { ledger with table := (trfsMqSend ledger.table mqId none size 0).2 }
  | .trfsWrite (some buf) size =>
      if buf ∈ ledger.built then
        let sent := trfsMqSend ledger.table mqId (some (.buffer buf)) size 0
        { ledger with
          table := sent.2
          built := ledger.built.erase buf
          refused := if sent.1 < 0 then ledger.refused ++ [buf] else ledger.refused }
      else ledger
  | .kfreeRefused buf =>
      if buf ∈ ledger.refused then
        { ledger with refused := ledger.refused.erase buf, freed := ledger.freed ++ [buf] }
      else ledger
  -- `sizeof(char *)`; the pointer is not one of the ledger, whoever frees it
  | .trfsKthreadExit =>
      { ledger with table := (trfsMqSend ledger.table mqId (some .exitMsg) 8 0).2 }
  | .setExitFlag =>
      { ledger with table := (trfsSetExitFlag ledger.table mqId).getD ledger.table }
  | .clearExitFlag =>
      { ledger with table := (trfsClearExitFlag ledger.table mqId).getD ledger.table }
  | .kmallocPlaceholder succeeds =>
      match ledger.thread with
      | .looping =>
          if succeeds then
            { ledger with
              thread := .receiving (some ledger.allocated)
              allocated := ledger.allocated + 1 }
          else { ledger with thread := .receiving none }
      | _ => ledger
  | .recvTest =>
      match ledger.thread with
      | .receiving placeholder =>
          if recvGivesUp ledger.table mqId then
            -- `goto out`, where `msg1` and `msg2` are both freed
            { ledger with
              thread := .left
              freed := ledger.freed ++ placeholder.toList ++ placeholder.toList }
          else { ledger with thread := .tested placeholder }
      | _ => ledger
  | .recvTake =>
      match ledger.thread, trfsMqGetNodeById ledger.table mqId with
      | .tested placeholder, some index =>
          let taken :=
            trfsMqRecvTake (ledger.table.nodes index) (placeholder.map .buffer, ledger.len)
          { ledger with
            table := ledger.table.setNode index taken.2.2
            len := taken.2.1.2
            thread := .received taken.2.1.1 placeholder (taken.1 < 0) }
      | _, _ => ledger
  | .handle complete =>
      match ledger.thread with
      | .received msg1 msg2 failed =>
          { ledger with
            thread := if failed || complete then .left else .looping
            freed := ledger.freed ++ (handleOf msg1).toList ++ msg2.toList }
      | _ => ledger

def queued (mqId : Int) (ledger : BufferLedger) : List Nat :=
  (ledger.table.messages mqId).filterMap fun message => handleOf message.1

/-- Everywhere a buffer can be. -/
def places (mqId : Int) (ledger : BufferLedger) : List Nat :=
  ledger.built ++ ledger.refused ++ ledger.queued mqId ++ ledger.thread.owned ++ ledger.freed

/-- Every buffer allocated so far is in exactly one place, and there once. -/
def Accounted (mqId : Int) (ledger : BufferLedger) : Prop :=
  (ledger.places mqId).Perm (List.range ledger.allocated)

def KeepsAccount (mqId : Int) (ledger : BufferLedger) (action : LedgerAction) : Prop :=
  (ledger.step mqId action).Accounted mqId

/-- A send to a full queue has a length that is negative as an `int`, any other has
not, and the wait for a message ends with one. -/
def HandsOver (mqId : Int) (ledger : BufferLedger) : LedgerAction → Prop
  | .trfsWrite (some buf) size =>
      buf ∈ ledger.built → size.toNat = 0 ∨ ∀ index,
        trfsMqGetNodeById ledger.table mqId = some index →
          (toInt32 size.toNat < 0 ↔
            (ledger.table.nodes index).attr.counter = (ledger.table.nodes index).attr.maxMsgs)
  | .recvTest =>
      ∀ placeholder, ledger.thread = .receiving (some placeholder) → ∃ index,
        trfsMqGetNodeById ledger.table mqId = some index ∧
          (ledger.table.nodes index).attr.exitFlag ≠ 1 ∧
          (ledger.table.nodes index).attr.counter ≠ 0
  | _ => True

end BufferLedger

namespace MqTable

variable {Ptr : Type} {table : MqTable Ptr} {mqId capacity : Int}

/-- Changing the node of the queue. -/
theorem Serves.setNode (serves : table.Serves mqId capacity) {index : Nat}
    (found : trfsMqGetNodeById table mqId = some index) {node : TrfsMqInfo Ptr}
    (sameId : node.mqId = (table.nodes index).mqId) (ring : node.RingInvariant)
    (sameRoom : node.attr.maxMsgs = (table.nodes index).attr.maxMsgs) :
    (table.setNode index node).Serves mqId capacity ∧
      (table.setNode index node).messages mqId = node.contents := by
  have still := trfsMqGetNodeById_setNode table mqId sameId
  refine ⟨⟨?_, ?_⟩, ?_⟩
  · intro other foundOther
    rw [still, found] at foundOther
    obtain rfl := Option.some.inj foundOther
    rwa [nodes_setNode_same]
  · intro other foundOther
    rw [still, found] at foundOther
    obtain rfl := Option.some.inj foundOther
    rw [nodes_setNode_same, sameRoom]
    exact serves.capacity index found
  · exact messages_setNode found sameId

theorem Serves.length_messages_le (serves : table.Serves mqId capacity) (nonneg : 0 ≤ capacity) :
    ((table.messages mqId).length : Int) ≤ capacity := by
  cases found : trfsMqGetNodeById table mqId with
  | none => simpa [messages, found] using nonneg
  | some index =>
      have ring := serves.ring index found
      rw [messages_of_found found, ring.length_contents, ← serves.capacity index found]
      exact ring.counter.2

/-- A send that is refused, one that finds no room and says nothing of it, and one
that queues its message. -/
theorem Serves.send_cases (serves : table.Serves mqId capacity) (ptr : Ptr)
    (size : BitVec 64) :
    let sent := trfsMqSend table mqId (some ptr) size 0
    ((size.toNat = 0 ∨ trfsMqGetNodeById table mqId = none) ∧ sent = (-1, table)) ∨
      ∃ index, size.toNat ≠ 0 ∧ trfsMqGetNodeById table mqId = some index ∧
        sent.1 = toInt32 size.toNat ∧
        ((table.nodes index).attr.counter = (table.nodes index).attr.maxMsgs ∧ sent.2 = table ∨
          (table.nodes index).attr.counter ≠ (table.nodes index).attr.maxMsgs ∧
            sent.2.Serves mqId capacity ∧
            sent.2.messages mqId = table.messages mqId ++ [(some ptr, toInt64 size.toNat)]) := by
  intro sent
  by_cases empty : size.toNat = 0
  · have refusal : some ptr = none ∨ size.toNat ≤ 0 := .inr (Nat.le_of_eq empty)
    refine .inl ⟨.inl empty, ?_⟩
    show trfsMqSend table mqId (some ptr) size 0 = _
    rw [trfsMqSend, if_pos refusal]
  cases found : trfsMqGetNodeById table mqId with
  | none =>
      refine .inl ⟨.inr rfl, ?_⟩
      show trfsMqSend table mqId (some ptr) size 0 = _
      rw [trfsMqSend, if_neg (by simp; omega), found]
  | some index =>
      have ring := serves.ring index found
      have queues : sent = _ := trfsMqSend_found found ptr (Nat.pos_of_ne_zero empty) 0
      refine .inr ⟨index, empty, rfl, by rw [queues], ?_⟩
      rw [queues]
      by_cases full : (table.nodes index).attr.counter = (table.nodes index).attr.maxMsgs
      · refine .inl ⟨full, ?_⟩
        rw [trfsMqPutMsg_full full, setNode_self]
      · obtain ⟨-, invariant, appended⟩ := trfsMqPutMsg_room ring
          (lt_of_le_of_ne ring.counter.2 full) (some ptr) (toInt64 size.toNat) 0
        obtain ⟨still, messages⟩ := serves.setNode found (trfsMqPutMsg_mqId _ _ _ _) invariant
          (trfsMqPutMsg_maxMsgs _ _ _ _)
        refine .inr ⟨full, still, ?_⟩
        rw [messages, appended, messages_of_found found]

/-- The messages and the ring do not depend on the exit flag. -/
theorem Serves.storeExitFlag (serves : table.Serves mqId capacity) (flag : UInt8) :
    ((storeExitFlag table mqId flag).getD table).Serves mqId capacity ∧
      ((storeExitFlag table mqId flag).getD table).messages mqId = table.messages mqId := by
  unfold Tracefs.storeExitFlag
  cases found : trfsMqGetNodeById table mqId with
  | none => exact ⟨serves, rfl⟩
  | some index =>
      obtain ⟨readIndex, writeIndex, counter, behind⟩ := serves.ring index found
      rw [messages_of_found found]
      exact serves.setNode found rfl ⟨readIndex, writeIndex, counter, behind⟩ rfl

/-- A receive from a queue with messages takes the oldest. -/
theorem Serves.take (serves : table.Serves mqId capacity) {oldest : Queued Ptr}
    {later : List (Queued Ptr)} (held : table.messages mqId = oldest :: later)
    (out : Queued Ptr) :
    ∃ index, trfsMqGetNodeById table mqId = some index ∧
      let taken := trfsMqRecvTake (table.nodes index) out
      taken.2.1 = (oldest.1, toInt32 oldest.2) ∧
        (table.setNode index taken.2.2).Serves mqId capacity ∧
        (table.setNode index taken.2.2).messages mqId = later := by
  cases found : trfsMqGetNodeById table mqId with
  | none => simp [messages, found] at held
  | some index =>
      rw [messages_of_found found] at held
      obtain ⟨-, shown, ring, left⟩ := trfsMqGetMsg_cons (serves.ring index found) held false
      refine ⟨index, rfl, ?_⟩
      have sameId := trfsMqRecvTake_mqId (table.nodes index) out
      have sameRoom := trfsMqGetMsg_maxMsgs (table.nodes index) false
      rw [trfsMqRecvTake_eq] at sameId ⊢
      obtain ⟨still, messages⟩ := serves.setNode found sameId ring sameRoom
      exact ⟨by rw [shown]; rfl, still, messages.trans left⟩

end MqTable

theorem recvGivesUp_eq_false_iff {table : MqTable Pointer} {mqId : Int} :
    recvGivesUp table mqId = false ↔ ∃ index, trfsMqGetNodeById table mqId = some index ∧
      (table.nodes index).attr.exitFlag ≠ 1 ∧ (table.nodes index).attr.counter ≠ 0 := by
  cases found : trfsMqGetNodeById table mqId with
  | none => simp [recvGivesUp, found]
  | some index =>
      simp only [recvGivesUp, found, trfsMqRecvTest, Option.some.injEq, exists_eq_left']
      split
      · simp [*]
      · split <;> simp [*]

namespace BufferLedger

variable {mqId capacity : Int} {ledger next : BufferLedger}

/-- What holds at every state of a run, whatever becomes of the buffers.  No other
consumer can take away the message that ended the wait. -/
structure Ready (mqId capacity : Int) (ledger : BufferLedger) : Prop where
  serves : ledger.table.Serves mqId capacity
  waited : ∀ placeholder, ledger.thread = .tested placeholder →
    ledger.table.messages mqId ≠ []

theorem Accounted.of_moved (accounted : ledger.Accounted mqId)
    (moved : (next.places mqId).Perm (ledger.places mqId))
    (same : next.allocated = ledger.allocated) : next.Accounted mqId := by
  rw [Accounted, same]
  exact moved.trans accounted

theorem Accounted.length_places (accounted : ledger.Accounted mqId) :
    (ledger.places mqId).length = ledger.allocated := by
  rw [List.Perm.length_eq accounted, List.length_range]

theorem Accounted.allocate (accounted : ledger.Accounted mqId)
    (moved : (next.places mqId).Perm (ledger.places mqId ++ [ledger.allocated]))
    (more : next.allocated = ledger.allocated + 1) : next.Accounted mqId := by
  rw [Accounted, more, List.range_succ]
  exact moved.trans (List.Perm.append_right _ accounted)

theorem kmallocRecord (accounted : ledger.Accounted mqId) (succeeds : Bool) :
    ledger.KeepsAccount mqId (.kmallocRecord succeeds) := by
  cases succeeds with
  | false => exact accounted
  | true =>
      refine accounted.allocate ?_ rfl
      rw [List.perm_iff_count]
      intro handle
      simp only [step, if_true, places, queued, List.count_append]
      omega

theorem kfreeRefused (accounted : ledger.Accounted mqId) (buf : Nat) :
    ledger.KeepsAccount mqId (.kfreeRefused buf) := by
  by_cases member : buf ∈ ledger.refused
  · have stepped : ledger.step mqId (.kfreeRefused buf) =
        { ledger with refused := ledger.refused.erase buf, freed := ledger.freed ++ [buf] } :=
      if_pos member
    rw [KeepsAccount, stepped]
    refine accounted.of_moved ?_ rfl
    rw [List.perm_iff_count]
    intro handle
    have removed := (List.perm_cons_erase member).count_eq handle
    simp only [places, queued, List.count_append, List.count_cons, List.count_nil] at removed ⊢
    omega
  · rwa [KeepsAccount, show ledger.step mqId (.kfreeRefused buf) = ledger from if_neg member]

theorem kmallocPlaceholder (accounted : ledger.Accounted mqId) (succeeds : Bool) :
    ledger.KeepsAccount mqId (.kmallocPlaceholder succeeds) := by
  obtain ⟨table, thread, len, built, refused, freed, allocated⟩ := ledger
  cases thread with
  | looping =>
      cases succeeds with
      | false => exact accounted
      | true =>
          refine accounted.allocate ?_ rfl
          rw [List.perm_iff_count]
          intro handle
          simp only [step, if_true, places, queued, RxThread.owned, Option.toList,
            List.count_append, List.count_nil]
          omega
  | _ => exact accounted

/-- Both pointers are freed, and the thread keeps none. -/
theorem handle (accounted : ledger.Accounted mqId) (complete : Bool) :
    ledger.KeepsAccount mqId (.handle complete) := by
  obtain ⟨table, thread, len, built, refused, freed, allocated⟩ := ledger
  cases thread with
  | received msg1 msg2 failed =>
      refine accounted.of_moved ?_ rfl
      rw [List.perm_iff_count]
      intro handle
      cases stays : failed || complete <;>
        simp only [step, stays, if_true, Bool.false_eq_true, if_false, places, queued,
          RxThread.owned, List.count_append, List.count_nil] <;>
        omega
  | _ => exact accounted

theorem recvTake (accounted : ledger.Accounted mqId) (ready : ledger.Ready mqId capacity) :
    ledger.KeepsAccount mqId .recvTake := by
  obtain ⟨table, thread, len, built, refused, freed, allocated⟩ := ledger
  cases thread with
  | tested placeholder =>
      obtain ⟨oldest, later, held⟩ := List.exists_cons_of_ne_nil (ready.waited placeholder rfl)
      obtain ⟨index, found, taken, -, left⟩ :=
        ready.serves.take held (placeholder.map .buffer, len)
      refine accounted.of_moved ?_ (by simp only [step, found])
      rw [List.perm_iff_count]
      intro handle
      simp only [step, found, places, queued, left, taken, held, RxThread.owned,
        List.filterMap_cons]
      cases handleOf oldest.1 <;>
        simp only [Option.toList, List.count_append, List.count_cons, List.count_nil] <;>
        omega
  | _ => exact accounted

/-- The wait ends without a message: the one placeholder is freed through both
pointers to it. -/
theorem keepsAccount_recvTest_iff (accounted : ledger.Accounted mqId) :
    ledger.KeepsAccount mqId .recvTest ↔ ledger.HandsOver mqId .recvTest := by
  obtain ⟨table, thread, len, built, refused, freed, allocated⟩ := ledger
  cases thread with
  | receiving placeholder =>
      cases placeholder with
      | none =>
          refine iff_of_true (accounted.of_moved ?_ ?_) (by simp [HandsOver])
          · simp only [step]
            split <;> simp [places, queued, RxThread.owned]
          · simp only [step]
            split <;> rfl
      | some handle =>
          simp only [HandsOver, RxThread.receiving.injEq, Option.some.injEq, forall_eq',
            ← recvGivesUp_eq_false_iff, KeepsAccount, step]
          cases gives : recvGivesUp table mqId with
          | false =>
              simp only [Bool.false_eq_true, if_false, iff_true]
              exact accounted
          | true =>
              simp only [if_true, Bool.true_eq_false, iff_false]
              intro twice
              have before := accounted.length_places
              have after := twice.length_places
              simp [places, queued, RxThread.owned] at before after
              omega
  | _ => exact iff_of_true accounted (by simp [HandsOver])

section TrfsWrite

variable {buf : Nat} (member : buf ∈ ledger.built) (table : MqTable Pointer)

include member

/-- A buffer that leaves its producer is accounted for when it turns up once. -/
theorem accounted_sent_iff (accounted : ledger.Accounted mqId) {more : List Nat}
    (queues : (table.messages mqId).filterMap (fun message => handleOf message.1) =
      ledger.queued mqId ++ more) {freeing : List Nat}
    (once : ∀ handle ∈ more ++ freeing, handle = buf) :
    Accounted mqId { ledger with
        table := table
        built := ledger.built.erase buf
        refused := ledger.refused ++ freeing } ↔ (more ++ freeing).length = 1 := by
  have removed := List.perm_cons_erase member
  constructor
  · intro sent
    have before := accounted.length_places
    have after := sent.length_places
    have length := removed.length_eq
    simp only [places, List.length_append, List.length_cons] at before after length ⊢
    rw [queued, queues, List.length_append] at after
    omega
  · intro single
    obtain ⟨handle, alone⟩ := List.length_eq_one_iff.mp single
    obtain rfl : handle = buf := once handle (by simp [alone])
    refine accounted.of_moved ?_ rfl
    rw [List.perm_iff_count]
    intro other
    have counted := congrArg (List.count other) alone
    have erased := removed.count_eq other
    simp only [places, queued, queues, List.count_append, List.count_cons,
      List.count_nil] at counted erased ⊢
    omega

omit table in
theorem step_trfsWrite (mqId : Int) (size : BitVec 64) :
    let sent := trfsMqSend ledger.table mqId (some (.buffer buf)) size 0
    ledger.step mqId (.trfsWrite (some buf) size) =
      { ledger with
        table := sent.2
        built := ledger.built.erase buf
        refused := ledger.refused ++ if sent.1 < 0 then [buf] else [] } := by
  intro sent
  have freeing : (if sent.1 < 0 then ledger.refused ++ [buf] else ledger.refused) =
      ledger.refused ++ if sent.1 < 0 then [buf] else [] := by
    split <;> simp
  rw [← freeing, step, if_pos member]

/-- What the producer is told decides whether it frees the buffer. -/
theorem accounted_trfsWrite_iff (accounted : ledger.Accounted mqId) {more : List Nat}
    (queues : (table.messages mqId).filterMap (fun message => handleOf message.1) =
      ledger.queued mqId ++ more) (once : more = [] ∨ more = [buf]) (ret : Int) :
    Accounted mqId { ledger with
        table := table
        built := ledger.built.erase buf
        refused := ledger.refused ++ if ret < 0 then [buf] else [] } ↔ (ret < 0 ↔ more = []) := by
  have all : ∀ handle ∈ more ++ (if ret < 0 then [buf] else []), handle = buf := by
    intro handle present
    rcases List.mem_append.mp present with sent | freed
    · rcases once with rfl | rfl
      · cases sent
      · exact List.mem_singleton.mp sent
    · split at freed
      · exact List.mem_singleton.mp freed
      · cases freed
  rw [accounted_sent_iff member table accounted queues all]
  by_cases negative : ret < 0
  · rcases once with rfl | rfl <;> simp [negative]
  · rcases once with rfl | rfl <;> simp [negative]

end TrfsWrite

theorem keepsAccount_trfsWrite_iff (accounted : ledger.Accounted mqId)
    (ready : ledger.Ready mqId capacity) (buf : Nat) (size : BitVec 64) :
    ledger.KeepsAccount mqId (.trfsWrite (some buf) size) ↔
      ledger.HandsOver mqId (.trfsWrite (some buf) size) := by
  by_cases member : buf ∈ ledger.built
  · have unchanged : (ledger.table.messages mqId).filterMap (fun message => handleOf message.1) =
        ledger.queued mqId ++ [] := by rw [List.append_nil, queued]
    have cases := ready.serves.send_cases (.buffer buf) size
    rw [KeepsAccount, step_trfsWrite member]
    generalize trfsMqSend ledger.table mqId (some (.buffer buf)) size 0 = sent at cases ⊢
    rcases cases with
      ⟨nowhere, rfl⟩ | ⟨index, positive, found, result, ⟨full, kept⟩ | ⟨room, -, appended⟩⟩
    · rw [accounted_trfsWrite_iff member _ accounted unchanged (.inl rfl)]
      refine iff_of_true (by simp) fun _ => nowhere.imp_right fun missing index found => ?_
      rw [missing] at found
      cases found
    · rw [result, kept, accounted_trfsWrite_iff member _ accounted unchanged (.inl rfl)]
      simp [HandsOver, member, positive, found, full]
    · have queues : (sent.2.messages mqId).filterMap (fun message => handleOf message.1) =
          ledger.queued mqId ++ [buf] := by
        simp [appended, queued, handleOf]
      rw [result, accounted_trfsWrite_iff member _ accounted queues (.inr rfl)]
      simp [HandsOver, member, positive, found, room]
  · have same : ledger.step mqId (.trfsWrite (some buf) size) = ledger := by
      rw [step, if_neg member]
    rw [KeepsAccount, same]
    exact iff_of_true accounted fun present => absurd present member

/-- A change to the queue that puts no buffer into it and takes none out. -/
theorem Accounted.of_table (accounted : ledger.Accounted mqId) {table : MqTable Pointer}
    (same : (table.messages mqId).filterMap (fun message => handleOf message.1) =
      ledger.queued mqId) :
    Accounted mqId { ledger with table := table } := by
  refine accounted.of_moved ?_ rfl
  rw [places, queued, same]
  rfl

theorem trfsKthreadExit (accounted : ledger.Accounted mqId) (ready : ledger.Ready mqId capacity) :
    ledger.KeepsAccount mqId .trfsKthreadExit := by
  apply accounted.of_table
  rcases ready.serves.send_cases .exitMsg 8 with
    ⟨-, sent⟩ | ⟨index, -, -, -, ⟨-, kept⟩ | ⟨-, -, appended⟩⟩
  · rw [sent, queued]
  · rw [kept, queued]
  · rw [appended, List.filterMap_append, queued]
    simp [handleOf]

theorem storeExitFlag (accounted : ledger.Accounted mqId) (ready : ledger.Ready mqId capacity)
    (flag : UInt8) :
    Accounted mqId
      { ledger with
        table := (Tracefs.storeExitFlag ledger.table mqId flag).getD ledger.table } := by
  apply accounted.of_table
  rw [(ready.serves.storeExitFlag flag).2, queued]

theorem keepsAccount_iff (accounted : ledger.Accounted mqId) (ready : ledger.Ready mqId capacity)
    (action : LedgerAction) : ledger.KeepsAccount mqId action ↔ ledger.HandsOver mqId action := by
  cases action with
  | kmallocRecord succeeds => exact iff_of_true (kmallocRecord accounted succeeds) trivial
  | trfsWrite buf size =>
      cases buf with
      | none => exact iff_of_true accounted trivial
      | some buf => exact keepsAccount_trfsWrite_iff accounted ready buf size
  | kfreeRefused buf => exact iff_of_true (kfreeRefused accounted buf) trivial
  | trfsKthreadExit => exact iff_of_true (trfsKthreadExit accounted ready) trivial
  | setExitFlag => exact iff_of_true (storeExitFlag accounted ready 1) trivial
  | clearExitFlag => exact iff_of_true (storeExitFlag accounted ready 0) trivial
  | kmallocPlaceholder succeeds =>
      exact iff_of_true (kmallocPlaceholder accounted succeeds) trivial
  | recvTest => exact keepsAccount_recvTest_iff accounted
  | recvTake => exact iff_of_true (recvTake accounted ready) trivial
  | handle complete => exact iff_of_true (handle accounted complete) trivial

/-- A send never empties the queue. -/
theorem Ready.send (ready : ledger.Ready mqId capacity) (ptr : Pointer) (size : BitVec 64) :
    (trfsMqSend ledger.table mqId (some ptr) size 0).2.Serves mqId capacity ∧
      (ledger.table.messages mqId ≠ [] →
        (trfsMqSend ledger.table mqId (some ptr) size 0).2.messages mqId ≠ []) := by
  rcases ready.serves.send_cases ptr size with
    ⟨-, sent⟩ | ⟨index, -, -, -, ⟨-, kept⟩ | ⟨-, serves, appended⟩⟩
  · rw [sent]
    exact ⟨ready.serves, id⟩
  · rw [kept]
    exact ⟨ready.serves, id⟩
  · exact ⟨serves, fun _ => by simp [appended]⟩

theorem Ready.of_table (ready : ledger.Ready mqId capacity) {table : MqTable Pointer}
    (serves : table.Serves mqId capacity)
    (nonempty : ledger.table.messages mqId ≠ [] → table.messages mqId ≠ []) :
    Ready mqId capacity { ledger with table := table } :=
  ⟨serves, fun placeholder tested => nonempty (ready.waited placeholder tested)⟩

theorem Ready.storeExitFlag (ready : ledger.Ready mqId capacity) (flag : UInt8) :
    Ready mqId capacity
      { ledger with
        table := (Tracefs.storeExitFlag ledger.table mqId flag).getD ledger.table } := by
  obtain ⟨serves, messages⟩ := ready.serves.storeExitFlag flag
  apply ready.of_table serves
  rw [messages]
  exact id

theorem Ready.step (ready : ledger.Ready mqId capacity) (action : LedgerAction) :
    (ledger.step mqId action).Ready mqId capacity := by
  obtain ⟨table, thread, len, built, refused, freed, allocated⟩ := ledger
  cases action with
  | kmallocRecord succeeds =>
      cases succeeds with
      | false => exact ready
      | true => exact ⟨ready.serves, ready.waited⟩
  | trfsWrite buf size =>
      cases buf with
      | none => exact ready
      | some buf =>
          obtain ⟨serves, nonempty⟩ := ready.send (.buffer buf) size
          by_cases member : buf ∈ built
          · rw [step_trfsWrite member]
            obtain ⟨stillServes, waited⟩ := ready.of_table serves nonempty
            exact ⟨stillServes, waited⟩
          · rwa [BufferLedger.step, if_neg member]
  | kfreeRefused buf =>
      simp only [BufferLedger.step]
      split
      · exact ⟨ready.serves, ready.waited⟩
      · exact ready
  | trfsKthreadExit =>
      obtain ⟨serves, nonempty⟩ := ready.send .exitMsg 8
      exact ready.of_table serves nonempty
  | setExitFlag => exact ready.storeExitFlag 1
  | clearExitFlag => exact ready.storeExitFlag 0
  | kmallocPlaceholder succeeds =>
      cases thread with
      | looping => cases succeeds <;> exact ⟨ready.serves, by simp [BufferLedger.step]⟩
      | _ => exact ready
  | recvTest =>
      cases thread with
      | receiving placeholder =>
          cases gives : recvGivesUp table mqId with
          | true =>
              simp only [BufferLedger.step, gives, if_true]
              exact ⟨ready.serves, by simp⟩
          | false =>
              simp only [BufferLedger.step, gives, Bool.false_eq_true, if_false]
              obtain ⟨index, found, -, counter⟩ := recvGivesUp_eq_false_iff.mp gives
              refine ⟨ready.serves, fun _ _ => ?_⟩
              rwa [MqTable.messages_of_found found, Ne,
                (ready.serves.ring index found).contents_eq_nil_iff]
      | _ => exact ready
  | recvTake =>
      cases thread with
      | tested placeholder =>
          obtain ⟨oldest, later, held⟩ := List.exists_cons_of_ne_nil (ready.waited placeholder rfl)
          obtain ⟨index, found, -, serves, -⟩ :=
            ready.serves.take held (placeholder.map .buffer, len)
          simp only [BufferLedger.step, found]
          exact ⟨serves, by simp⟩
      | _ => exact ready
  | handle complete =>
      cases thread with
      | received msg1 msg2 failed =>
          refine ⟨ready.serves, fun placeholder => ?_⟩
          cases stays : failed || complete <;> simp [BufferLedger.step, stays]
      | _ => exact ready

theorem Accounted.start {table : MqTable Pointer} (empty : table.messages mqId = []) :
    (start table).Accounted mqId := by
  simp [Accounted, places, queued, BufferLedger.start, empty, RxThread.owned]

end BufferLedger

/-- The queue that records go to before the first of them, if there is such a queue. -/
structure FreshQueue where
  table : MqTable Pointer
  mqId : Int
  capacity : Int
  serves : table.Serves mqId capacity
  empty : table.messages mqId = []

namespace FreshQueue

open BufferLedger

theorem ready (queue : FreshQueue) : (start queue.table).Ready queue.mqId queue.capacity :=
  ⟨queue.serves, by simp [start]⟩

/-- Along a run of any producers and of the log thread every buffer has one owner
until it is freed, exactly when every send tells its producer where the buffer is
and every wait ends with a message. -/
theorem keepsAccount_along_iff (queue : FreshQueue) (interleaving : List LedgerAction) :
    Along (step queue.mqId) (KeepsAccount queue.mqId) (start queue.table) interleaving ↔
      Along (step queue.mqId) (HandsOver queue.mqId) (start queue.table) interleaving := by
  apply along_iff fun ledger =>
    ledger.Accounted queue.mqId ∧ ledger.Ready queue.mqId queue.capacity
  · intro ledger action sound
    exact keepsAccount_iff sound.1 sound.2 action
  · intro ledger action sound keeps
    exact ⟨keeps, sound.2.step action⟩
  · exact ⟨.start queue.empty, queue.ready⟩

end FreshQueue

section FullQueue

open BufferLedger

/-- The queues that `trfs_create_log_q` opens. -/
def logTable : MqTable Pointer :=
  MqTable.after (List.replicate trfsTxQMaxNodes (.openQueue (some txQAttr) true))

theorem trfsMqGetNodeById_logTable : trfsMqGetNodeById logTable trfsLogQid = some 1 := by decide

theorem serves_logTable : logTable.Serves trfsLogQid 1024 := by
  refine ⟨fun index found => ?_, fun index found => ?_⟩
  all_goals
    rw [trfsMqGetNodeById_logTable] at found
    obtain rfl := Option.some.inj found
  · exact ⟨by decide, by decide, by decide, by decide⟩
  · decide

theorem messages_logTable : logTable.messages trfsLogQid = [] := by
  rw [MqTable.messages_of_found trfsMqGetNodeById_logTable]
  rfl

def logQueue : FreshQueue := ⟨logTable, trfsLogQid, 1024, serves_logTable, messages_logTable⟩

/-- A signal ends the wait on the empty queue. -/
example : (run (step trfsLogQid) (start logTable)
    [.kmallocPlaceholder true, .recvTest]).freed = [0, 0] := by decide

/-- Records of 24 bytes, each of them sent when it is built. -/
def recordsSent (count : Nat) : List LedgerAction :=
  (List.range count).flatMap fun buf => [.kmallocRecord true, .trfsWrite (some buf) 24]

/-- Every send of these says that it has queued its record. -/
theorem run_recordsSent (count : Nat) :
    let ledger := run (step trfsLogQid) (start logTable) (recordsSent count)
    trfsMqGetNodeById ledger.table trfsLogQid = some 1 ∧ ledger.thread = .looping ∧
      ledger.built = [] ∧ ledger.refused = [] ∧ ledger.freed = [] ∧ ledger.allocated = count := by
  induction count with
  | zero => exact ⟨trfsMqGetNodeById_logTable, rfl, rfl, rfl, rfl, rfl⟩
  | succ count inductionHypothesis =>
      have last : recordsSent (count + 1) =
          recordsSent count ++ [.kmallocRecord true, .trfsWrite (some count) 24] := by
        simp [recordsSent, List.range_succ]
      rw [last, run_append]
      generalize run (step trfsLogQid) (start logTable) (recordsSent count) = ledger at *
      obtain ⟨table, thread, len, built, refused, freed, allocated⟩ := ledger
      obtain ⟨found, rfl, rfl, rfl, rfl, rfl⟩ := inductionHypothesis
      have positive : 0 < (24 : BitVec 64).toNat := by decide
      have accepted : ¬ toInt32 (24 : BitVec 64).toNat < 0 := by decide
      have sent := trfsMqSend_found found (Pointer.buffer allocated) positive 0
      have member : allocated ∈ [] ++ [allocated] := by simp
      rw [run_cons, run_cons, run_nil, step, if_pos rfl, step_trfsWrite member, sent,
        if_neg accepted]
      refine ⟨?_, rfl, by simp, rfl, rfl, rfl⟩
      rw [MqTable.trfsMqGetNodeById_setNode _ _ (trfsMqPutMsg_mqId _ _ _ _)]
      exact found

/-- While the thread takes nothing, what has been sent is in the queue or nowhere. -/
theorem not_keepsAccount_recordsSent {count : Nat} (many : 1024 < count) :
    ¬ Along (step trfsLogQid) (KeepsAccount trfsLogQid) (start logTable) (recordsSent count) := by
  intro along
  have initially : (start logTable).Accounted trfsLogQid ∧ (start logTable).Ready trfsLogQid 1024 :=
    ⟨.start logQueue.empty, logQueue.ready⟩
  obtain ⟨accounted, ready⟩ := along_run
    (fun ledger : BufferLedger => ledger.Accounted trfsLogQid ∧ ledger.Ready trfsLogQid 1024)
    (fun _ action sound keeps => ⟨keeps, sound.2.step action⟩) initially along
  obtain ⟨-, looping, built, refused, freed, allocated⟩ := run_recordsSent count
  generalize run (step trfsLogQid) (start logTable) (recordsSent count) = ledger at *
  have nonneg : (0 : Int) ≤ 1024 := by decide
  have bound := ready.serves.length_messages_le nonneg
  have length := accounted.length_places
  have queued : (ledger.queued trfsLogQid).length ≤ (ledger.table.messages trfsLogQid).length :=
    List.length_filterMap_le _ _
  simp only [places, looping, built, refused, freed, allocated, RxThread.owned, List.nil_append,
    List.append_nil] at length
  omega

/-- The queue of 1024 messages drops record 1025, and its producer is told that it
was queued. -/
theorem not_keepsAccount_fullQueue :
    ¬ Along (step logQueue.mqId) (KeepsAccount logQueue.mqId) (start logQueue.table)
      (recordsSent 1025) :=
  not_keepsAccount_recordsSent (Nat.lt_succ_self 1024)

end FullQueue

end Tracefs
