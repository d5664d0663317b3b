import Tracefs.Bytes.Word
import Tracefs.Ring

/-!
# The message queues

A static table of queue nodes, each a circular array of messages.  A message is
a pointer and a length; the queue never looks behind the pointer, so the type
of pointers is a parameter, and `none` is the null pointer.
-/

namespace Tracefs

open Bytes

def trfsMqMaxNoOfQ : Nat := 12

def trfsMqMaxNoOfMsgs : Int := 1024

def trfsMqMaxMsgSize : Int := 1024

def trfsErrInvalidParam : Int := -(0x00F00000 + 1)

def trfsErrMqFull : Int := -(0x00F00000 + 2)

def trfsErrMqEmpty : Int := -(0x00F00000 + 3)

def trfsFlushTimeout : Int := -99

def trfsExitWaitingQueue : Int := -2

/-- `TRFS_MQ_FIFO` and `TRFS_MQ_PRIORITY`, bits of the flags. -/
def trfsMqFifo : BitVec 32 := 1

@[inherit_doc trfsMqFifo]
def trfsMqPriority : BitVec 32 := 2

structure TrfsMqMsg (Ptr : Type) where
  pri : Int
  len : Int
  dataP : Option Ptr

/-- `trfsMqAttr_t`; the name of a queue is never read. -/
structure TrfsMqAttr where
  flags : BitVec 32
  maxMsgs : Int
  msgSize : Int
  counter : Int
  exitFlag : UInt8

/-- `trfs_mq_info_t`.  Slots are addressed by any integer, so that an index out
of bounds would show. -/
structure TrfsMqInfo (Ptr : Type) where
  mqId : Int
  attr : TrfsMqAttr
  readIndex : Int
  writeIndex : Int
  msg : Int → TrfsMqMsg Ptr
  next : Option Nat

/-- `trfs_msg_queues_g_g`, `numAfdxQs` and the static `mqIdSeq`. -/
structure MqTable (Ptr : Type) where
  nodes : Nat → TrfsMqInfo Ptr
  numAfdxQs : Nat
  mqIdSeq : Int

variable {Ptr : Type}

def MqTable.boot : MqTable Ptr where
  nodes := fun _ => ⟨0, ⟨0, 0, 0, 0, 0⟩, 0, 0, fun _ => ⟨0, 0, none⟩, none⟩
  numAfdxQs := 0
  mqIdSeq := 1

def MqTable.setNode (table : MqTable Ptr) (index : Nat) (node : TrfsMqInfo Ptr) :
    MqTable Ptr :=
  { table with nodes := Function.update table.nodes index node }

/-- The array scan of `trfs_mq_get_node_by_id`, as an index into the table. -/
def trfsMqGetNodeById (table : MqTable Ptr) (mqId : Int) : Option Nat :=
  (List.range trfsMqMaxNoOfQ).find? fun index => (table.nodes index).mqId = mqId

/-- What `trfsMqOpen` returns and stores.  `attr` is the caller's attribute
record afterwards, `mqId` what was stored through the second argument last. -/
structure OpenResult (Ptr : Type) where
  ret : Int
  attr : Option TrfsMqAttr
  mqId : Option Int
  table : MqTable Ptr

/-- The validation at the head of `trfsMqOpen`. -/
def openRefused (mq : TrfsMqAttr) : Bool :=
  (mq.flags &&& trfsMqFifo ≠ 0 ∧ mq.flags &&& trfsMqPriority ≠ 0) ∨
    (mq.maxMsgs ≤ 0 ∨ mq.msgSize ≤ 0) ∨ mq.msgSize > trfsMqMaxMsgSize

/-- The node that `trfsMqOpen` sets up in a slot.  The read and write indices
are not touched. -/
def openNode (slot : TrfsMqInfo Ptr) (mq : TrfsMqAttr) (mqId : Int) : TrfsMqInfo Ptr :=
  { slot with
    attr := { mq with counter := 0 }
    mqId := mqId
    next := none
    msg := fun jj =>
      if 0 ≤ jj ∧ jj ≤ mq.maxMsgs then { slot.msg jj with pri := 0, len := 0 }
      else slot.msg jj }

/-- `TRFS_MQ_DEFAULT_TYPE` where the caller gave no flags. -/
def TrfsMqAttr.withDefaultFlags (mq : TrfsMqAttr) : TrfsMqAttr :=
  if mq.flags = 0 then { mq with flags := trfsMqFifo } else mq

/-- The table after the next slot has been set up and linked to its predecessor. -/
def MqTable.addNode (table : MqTable Ptr) (mq : TrfsMqAttr) : MqTable Ptr :=
  let index := table.numAfdxQs
  let opened := table.setNode index (openNode (table.nodes index) mq table.mqIdSeq)
  let linked :=
    if 0 < index then
      opened.setNode (index - 1) { opened.nodes (index - 1) with next := some index }
    else opened
  { linked with numAfdxQs := index + 1, mqIdSeq := table.mqIdSeq + 1 }

/-- `trfsMqOpen`; `mqIdGiven` says that the second pointer is not null. -/
def trfsMqOpen (table : MqTable Ptr) (mq : Option TrfsMqAttr) (mqIdGiven : Bool) :
    OpenResult Ptr :=
  match mq, mqIdGiven with
  | none, _ | _, false => ⟨trfsErrInvalidParam, mq, none, table⟩
  | some attr, true =>
      if openRefused attr then ⟨trfsErrInvalidParam, mq, none, table⟩
      else
        let attr := attr.withDefaultFlags
        if table.numAfdxQs ≥ trfsMqMaxNoOfQ then
          ⟨trfsErrInvalidParam, some attr, some (-1), table⟩
        else ⟨0, some attr, some table.mqIdSeq, table.addNode attr⟩

def trfsMqPutMsg (node : TrfsMqInfo Ptr) (msgP : Option Ptr) (msgLen priority : Int) :
    Int × TrfsMqInfo Ptr :=
  if node.attr.counter = node.attr.maxMsgs then (trfsErrMqFull, node)
  else
    let wIndex := node.writeIndex
    (0, { node with
      writeIndex := (node.writeIndex + 1).tmod node.attr.maxMsgs
      msg := Function.update node.msg wIndex ⟨priority, msgLen, msgP⟩
      attr := { node.attr with counter := node.attr.counter + 1 } })

/-- What `trfsMqGetMsg` returns, what it stores through `msg_p` and `msgLen`
(nothing when the queue is empty), and the node afterwards. -/
structure GetResult (Ptr : Type) where
  ret : Int
  out : Option (Option Ptr × Int)
  node : TrfsMqInfo Ptr

def trfsMqGetMsg (node : TrfsMqInfo Ptr) (copyOnly : Bool) : GetResult Ptr :=
  if node.attr.counter = 0 then ⟨trfsErrMqEmpty, none, node⟩
  else
    let slot := node.msg node.readIndex
    ⟨0, some (slot.dataP, toInt32 slot.len),
      if copyOnly then node
      else { node with
        attr := { node.attr with counter := node.attr.counter - 1 }
        readIndex := (node.readIndex + 1).tmod node.attr.maxMsgs }⟩

/-- `trfsMqSend`, whose locked section is one step.  `msgLen` is a `size_t`. -/
def trfsMqSend (table : MqTable Ptr) (mqId : Int) (msgP : Option Ptr) (msgLen : BitVec 64)
    (msgPriority : Int) : Int × MqTable Ptr :=
  if msgP = none ∨ msgLen.toNat ≤ 0 then (-1, table)
  else
    match trfsMqGetNodeById table mqId with
    | none => (-1, table)
    | some index =>
        let put := trfsMqPutMsg (table.nodes index) msgP (toInt64 msgLen.toNat) msgPriority
        if put.1 = -1 then (-1, table.setNode index put.2)
        else (toInt32 msgLen.toNat, table.setNode index put.2)

/-- The unlocked part of `trfsMqRecv` after `wait_event_interruptible` has
returned: a result, or nothing when the call goes on to take a message.
`trfs_get_exit_flag` looks the queue up again and finds the same node. -/
def trfsMqRecvTest (node : TrfsMqInfo Ptr) : Option Int :=
  if node.attr.exitFlag = 1 then some trfsExitWaitingQueue
  else if node.attr.counter = 0 then some trfsFlushTimeout
  else none

/-- The locked part of `trfsMqRecv`.  `out` holds `*msg_p` and `*msgLen` of the
caller, before and after. -/
def trfsMqRecvTake (node : TrfsMqInfo Ptr) (out : Option Ptr × Int) :
    Int × (Option Ptr × Int) × TrfsMqInfo Ptr :=
  let get := trfsMqGetMsg node false
  let out := get.out.getD out
  if get.ret = -1 then (-1, out, get.node) else (out.2, out, get.node)

/-- Neither inner function ever returns the value that its caller takes for
failure. -/
theorem trfsMqPutMsg_ret_ne (node : TrfsMqInfo Ptr) (msgP : Option Ptr)
    (msgLen priority : Int) : (trfsMqPutMsg node msgP msgLen priority).1 ≠ -1 := by
  unfold trfsMqPutMsg
  split
  · show trfsErrMqFull ≠ -1
    decide
  · show (0 : Int) ≠ -1
    decide

theorem trfsMqGetMsg_ret_ne (node : TrfsMqInfo Ptr) (copyOnly : Bool) :
    (trfsMqGetMsg node copyOnly).ret ≠ -1 := by
  unfold trfsMqGetMsg
  split
  · show trfsErrMqEmpty ≠ -1
    decide
  · show (0 : Int) ≠ -1
    decide

/-- A send that finds its queue returns the length it was given, queued or not. -/
theorem trfsMqSend_found {table : MqTable Ptr} {mqId : Int} {index : Nat}
    (found : trfsMqGetNodeById table mqId = some index) (ptr : Ptr) {msgLen : BitVec 64}
    (nonempty : 0 < msgLen.toNat) (msgPriority : Int) :
    trfsMqSend table mqId (some ptr) msgLen msgPriority =
      (toInt32 msgLen.toNat, table.setNode index
        (trfsMqPutMsg (table.nodes index) (some ptr) (toInt64 msgLen.toNat) msgPriority).2) := by
  rw [trfsMqSend, if_neg (by simp; omega), found]
  exact if_neg (trfsMqPutMsg_ret_ne _ _ _ _)

theorem trfsMqRecvTake_eq (node : TrfsMqInfo Ptr) (out : Option Ptr × Int) :
    trfsMqRecvTake node out =
      (((trfsMqGetMsg node false).out.getD out).2, (trfsMqGetMsg node false).out.getD out,
        (trfsMqGetMsg node false).node) :=
  if_neg (trfsMqGetMsg_ret_ne node false)

/-- The store shared by the two functions that change the exit flag; `none` is the null dereference
of an unknown queue. -/
def storeExitFlag (table : MqTable Ptr) (mqId : Int) (flag : UInt8) : Option (MqTable Ptr) :=
  (trfsMqGetNodeById table mqId).map fun index =>
    table.setNode index
      { table.nodes index with attr := { (table.nodes index).attr with exitFlag := flag } }

def trfsSetExitFlag (table : MqTable Ptr) (mqId : Int) : Option (MqTable Ptr) :=
  storeExitFlag table mqId 1

def trfsClearExitFlag (table : MqTable Ptr) (mqId : Int) : Option (MqTable Ptr) :=
  storeExitFlag table mqId 0

end Tracefs
