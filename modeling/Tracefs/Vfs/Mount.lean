import Tracefs.LogThread.Basic
import Tracefs.MsgQueue.Fifo

/-!
# Mounting and unmounting

The set-up in `trfs_read_super`, the tear-down in `trfs_exit`, and what happens
between them to the queues and to the log threads.  Every call of the kernel
succeeds here.  A mount that fails is not followed by `trfs_exit`: its super
block has no root, and then `put_super` is not called.
-/

namespace Tracefs

open Bytes Transition

def trfsLogQid : Int := 2

def trfsTxQMaxNodes : Nat := 10

/-- `tx_q_attr` as `trfs_create_log_q` fills it in; its other members are static. -/
def txQAttr : TrfsMqAttr := ⟨trfsMqFifo, 1024, 100, 0, 0⟩

/-- The globals of `trfs_msgq.c`. -/
structure LogQueues where
  table : MqTable Message
  txQId : Nat → Int

/-- The loop of `trfs_create_log_q` from queue `i` on. -/
def LogQueues.openFrom (queues : LogQueues) (i : Nat) : Nat → Int × LogQueues
  | 0 => (0, queues)
  | remaining + 1 =>
      let opened := trfsMqOpen queues.table (some txQAttr) true
      let next : LogQueues :=
        ⟨opened.table, Function.update queues.txQId i (opened.mqId.getD (queues.txQId i))⟩
      if opened.ret ≠ 0 then (-1, next) else next.openFrom (i + 1) remaining

def trfsCreateLogQ (queues : LogQueues) : Int × LogQueues :=
  queues.openFrom 0 trfsTxQMaxNodes

/-- The body of `trfsMqClose` is compiled out. -/
def trfsMqClose (queues : LogQueues) (_mqId : Int) : Int × LogQueues := (0, queues)

def trfsDeleteLogQ (queues : LogQueues) : Int × LogQueues :=
  (0, (List.range trfsTxQMaxNodes).foldl (fun queues i =>
    if queues.txQId i ≠ 0 then (trfsMqClose queues (queues.txQId i)).2 else queues) queues)

/-- How a call of `trfsMqRecv` without a time limit ends. -/
inductive RecvOutcome (Ptr : Type) where
  | blocked
  | failed (table : MqTable Ptr)
  | took (msg : Ptr) (table : MqTable Ptr)

/-- `trfsMqRecv` with time-out -1, with no one else at the queue between its test
and its locked section.  A null message is dereferenced by the caller, which
ends it as a failure does. -/
def trfsMqRecv {Ptr : Type} (table : MqTable Ptr) (mqId : Int) : RecvOutcome Ptr :=
  match trfsMqGetNodeById table mqId with
  | none => .failed table
  | some index =>
      let node := table.nodes index
      -- the condition of `wait_event_interruptible`
      if node.attr.exitFlag ≠ 1 ∧ node.attr.counter = 0 then .blocked
      else
        match trfsMqRecvTest node with
        | some _ => .failed table
        | none =>
            let taken := trfsMqRecvTake node (none, 1)
            let table := table.setNode index taken.2.2
            if taken.1 < 0 then .failed table
            else
              match taken.2.1.1 with
              | none => .failed table
              | some msg => .took msg table

/-- The globals of the module and what it has acquired from the kernel.  Log
threads are numbered in the order of their creation. -/
structure TrfsModule where
  queues : LogQueues
  trfsKthread : Option Nat
  created : Nat
  /-- The log threads that have not returned. -/
  threads : List Nat
  /-- The trace file is open, the log driver allocated, the device registered. -/
  tfile : Bool
  tld : Bool
  kernelCdev : Bool

structure Resources where
  queues : Nat
  threads : List Nat
  tfile : Bool
  tld : Bool
  kernelCdev : Bool
  deriving DecidableEq

namespace TrfsModule

/-- The state in which the module is loaded. -/
def boot : TrfsModule := ⟨⟨.boot, fun _ => 0⟩, none, 0, [], false, false, false⟩

def resources (module : TrfsModule) : Resources :=
  ⟨module.queues.table.numAfdxQs, module.threads, module.tfile, module.tld, module.kernelCdev⟩

def trfsLogWriteInit (module : TrfsModule) : Option (List UInt8) → Int × TrfsModule
  | none => (-2, module)
  | some _ => (0, { module with tfile := true })

/-- The new thread is assigned to the parameter, which is a copy of the caller's
pointer, and so to no global. -/
def trfsKthreadCreate (module : TrfsModule) (_thread : Option Nat) : TrfsModule :=
  { module with
    threads := module.threads ++ [module.created]
    created := module.created + 1 }

/-- The set-up in `trfs_read_super`, for the file name parsed from the options. -/
def trfsReadSuper (module : TrfsModule) (filename : Option (List UInt8)) : Int × TrfsModule :=
  let created := trfsCreateLogQ module.queues
  let module := { module with queues := created.2 }
  if created.1 < 0 then (-22, module)
  else
    let opened := module.trfsLogWriteInit filename
    if opened.1 < 0 then (-22, opened.2)
    else
      let started := { opened.2 with tld := true }.trfsKthreadCreate opened.2.trfsKthread
      (0, { started with kernelCdev := true })

def send (module : TrfsModule) (message : Message) : TrfsModule :=
  { module with
    queues.table := (trfsMqSend module.queues.table trfsLogQid (some message)
      (BitVec.ofNat 64 message.len) 0).2 }

/-- `trfs_kthread_exit`; `kthread_stop` returns when the thread has. -/
def stopThread (module : TrfsModule) (stack : Memory) (thread : Nat) : TrfsModule :=
  let sent := module.send (trfsKthreadExit stack)
  { sent with threads := sent.threads.erase thread }

/-- `trfs_exit`.  Its flush acquires and releases nothing. -/
def trfsExit (module : TrfsModule) (stack : Memory) : TrfsModule :=
  let closed := { module with tfile := false }
  let stopped :=
    match closed.trfsKthread with
    | none => closed
    | some thread => closed.stopThread stack thread
  { stopped with
    queues := (trfsDeleteLogQ stopped.queues).2
    kernelCdev := false
    tld := false }

/-- An iteration of the loop of a log thread, as far as it decides whether the
thread goes on. -/
def turn (module : TrfsModule) (thread : Nat) : TrfsModule :=
  if thread ∈ module.threads then
    match trfsMqRecv module.queues.table trfsLogQid with
    | .blocked => module
    | .failed table =>
        { module with queues.table := table, threads := module.threads.erase thread }
    | .took message table =>
        if message.firstInt = trfsLogComplete then
          { module with queues.table := table, threads := module.threads.erase thread }
        else { module with queues.table := table }
  else module

end TrfsModule

/-- While mounted, hooks enqueue records and log threads take them. -/
inductive MountEvent where
  | trace (record : TraceRecord)
  | turn (thread : Nat)

def TrfsModule.step (module : TrfsModule) : MountEvent → TrfsModule
  | .trace record => module.send record.message
  | .turn thread => module.turn thread

/-- One mount, what happens until the unmount, and the turns that log threads
take after it. -/
structure MountCycle where
  filename : List UInt8
  events : List MountEvent
  stack : Memory
  later : List Nat

def TrfsModule.cycle (module : TrfsModule) (mount : MountCycle) : TrfsModule :=
  let mounted := module.trfsReadSuper (some mount.filename)
  if mounted.1 = 0 then
    run step ((run step mounted.2 mount.events).trfsExit mount.stack) (mount.later.map .turn)
  else mounted.2

def TrfsModule.after (cycles : List MountCycle) : TrfsModule :=
  run TrfsModule.cycle TrfsModule.boot cycles

/-- Nothing is left over from earlier mounts, and the next one succeeds and has
its log queue and its log thread to itself. -/
structure TrfsModule.MountsCleanly (module : TrfsModule) (filename : List UInt8)
    (events : List MountEvent) : Prop where
  released : module.resources = TrfsModule.boot.resources
  queues : (trfsCreateLogQ module.queues).1 = 0
  succeeds : (module.trfsReadSuper (some filename)).1 = 0
  logQueue : ∃ index, module.queues.table.numAfdxQs ≤ index ∧
    trfsMqGetNodeById (module.trfsReadSuper (some filename)).2.queues.table trfsLogQid =
      some index ∧
    ((module.trfsReadSuper (some filename)).2.queues.table.nodes index).contents = []
  noEarlier : ∀ thread ∈ (module.trfsReadSuper (some filename)).2.threads,
    thread = module.created
  one : (module.trfsReadSuper (some filename)).2.threads.length = 1
  staysOne : Along TrfsModule.step (fun module event => (module.step event).threads.length = 1)
    (module.trfsReadSuper (some filename)).2 events

/-- The message that the next receive from the log queue takes. -/
def TrfsModule.nextMessage (module : TrfsModule) : Option Message := do
  let index ← trfsMqGetNodeById module.queues.table trfsLogQid
  let queued ← (module.queues.table.nodes index).contents.head?
  queued.1

/-- No running log thread takes a message that begins with `TRFS_LOG_COMPLETE`. -/
def TrfsModule.TakesOrdinary (module : TrfsModule) : MountEvent → Prop
  | .trace _ => True
  | .turn thread => thread ∈ module.threads →
      ∀ message ∈ module.nextMessage, message.firstInt ≠ trfsLogComplete

theorem trfsMqOpen_txQAttr (table : MqTable Message) :
    trfsMqOpen table (some txQAttr) true =
      if table.numAfdxQs ≥ trfsMqMaxNoOfQ then
        ⟨trfsErrInvalidParam, some txQAttr, some (-1), table⟩
      else ⟨0, some txQAttr, some table.mqIdSeq, table.addNode txQAttr⟩ := by
  rw [trfsMqOpen, if_neg (by decide)]
  rfl

@[simp] theorem trfsDeleteLogQ_eq (queues : LogQueues) : trfsDeleteLogQ queues = (0, queues) := by
  simp [trfsDeleteLogQ, trfsMqClose]

/-- A receive leaves the table alone or takes a message from it. -/
theorem trfsMqRecv_cases {Ptr : Type} (table : MqTable Ptr) (mqId : Int) :
    trfsMqRecv table mqId = .blocked ∨ trfsMqRecv table mqId = .failed table ∨
      trfsMqRecv table mqId = .failed (table.receive mqId (none, 1)) ∨
      ∃ msg, trfsMqRecv table mqId = .took msg (table.receive mqId (none, 1)) := by
  unfold trfsMqRecv MqTable.receive
  cases trfsMqGetNodeById table mqId with
  | none => exact .inr (.inl rfl)
  | some index =>
      dsimp only
      split
      next => exact .inl rfl
      next =>
        split
        next => exact .inr (.inl rfl)
        next =>
          split
          next => exact .inr (.inr (.inl rfl))
          next =>
            split
            next => exact .inr (.inr (.inl rfl))
            next msg _ => exact .inr (.inr (.inr ⟨msg, rfl⟩))

section Receive

variable {Ptr : Type} {table : MqTable Ptr} {mqId : Int} {index : Nat} {capacity : Int}
  (found : trfsMqGetNodeById table mqId = some index)
  (noExit : (table.nodes index).attr.exitFlag = 0)

include found noExit

theorem trfsMqRecv_blocked (empty : (table.nodes index).Represents capacity []) :
    trfsMqRecv table mqId = .blocked := by
  have nothing := empty.invariant.contents_eq_nil_iff.mp empty.contents
  rw [trfsMqRecv, found]
  exact if_pos ⟨by rw [noExit]; decide, nothing⟩

theorem trfsMqRecv_took {oldest : Queued Ptr} {later : List (Queued Ptr)}
    (represents : (table.nodes index).Represents capacity (oldest :: later)) {msg : Ptr}
    (isMsg : oldest.1 = some msg) (nonneg : 0 ≤ oldest.2) :
    trfsMqRecv table mqId =
      .took msg (table.setNode index (trfsMqGetMsg (table.nodes index) false).node) := by
  have nonempty : (table.nodes index).attr.counter ≠ 0 := by
    rw [Ne, ← represents.invariant.contents_eq_nil_iff, represents.contents]
    exact List.cons_ne_nil _ _
  have passes : trfsMqRecvTest (table.nodes index) = none := by
    simp [trfsMqRecvTest, noExit, nonempty]
  have shown : (trfsMqGetMsg (table.nodes index) false).out = some oldest := by
    exact congrArg Prod.snd (represents.get false).1
  simp [trfsMqRecv, found, nonempty, passes, trfsMqRecvTake_eq, shown, isMsg, nonneg]

end Receive

theorem trfsMqGetMsg_exitFlag {Ptr : Type} (node : TrfsMqInfo Ptr) :
    (trfsMqGetMsg node false).node.attr.exitFlag = node.attr.exitFlag := by
  unfold trfsMqGetMsg
  split <;> rfl

namespace LogQueues

theorem openFrom_full {queues : LogQueues} (full : trfsMqMaxNoOfQ ≤ queues.table.numAfdxQs)
    (i remaining : Nat) :
    queues.openFrom i (remaining + 1) =
      (-1, ⟨queues.table, Function.update queues.txQId i (-1)⟩) := by
  rw [openFrom, trfsMqOpen_txQAttr, if_pos full]
  rfl

theorem openFrom_room {queues : LogQueues} (room : queues.table.numAfdxQs < trfsMqMaxNoOfQ)
    (i remaining : Nat) :
    queues.openFrom i (remaining + 1) =
      openFrom ⟨queues.table.addNode txQAttr,
        Function.update queues.txQId i queues.table.mqIdSeq⟩ (i + 1) remaining := by
  rw [openFrom, trfsMqOpen_txQAttr, if_neg (Nat.not_le_of_lt room)]
  rfl

/-- The loop opens as many queues as there is room for. -/
theorem openFrom_opens {queues : LogQueues} (wellFormed : queues.table.WellFormed)
    (i remaining : Nat) :
    (queues.openFrom i remaining).2.table.WellFormed ∧
      (queues.openFrom i remaining).2.table.numAfdxQs =
        min trfsMqMaxNoOfQ (queues.table.numAfdxQs + remaining) ∧
      (queues.openFrom i remaining).1 =
        if queues.table.numAfdxQs + remaining ≤ trfsMqMaxNoOfQ then 0 else -1 := by
  induction remaining generalizing queues i with
  | zero =>
      have bounded := wellFormed.bounded
      exact ⟨wellFormed, by simp [openFrom, bounded], by simp [openFrom, bounded]⟩
  | succ remaining inductionHypothesis =>
      rcases Nat.lt_or_ge queues.table.numAfdxQs trfsMqMaxNoOfQ with room | full
      · have moved : queues.table.numAfdxQs + (remaining + 1) =
            (queues.table.addNode txQAttr).numAfdxQs + remaining :=
          (Nat.succ_add_eq_add_succ _ _).symm
        rw [openFrom_room room, moved]
        exact inductionHypothesis (wellFormed.addNode room txQAttr) (i + 1)
      · rw [openFrom_full full, if_neg (by omega), min_eq_left (by omega)]
        exact ⟨wellFormed, le_antisymm wellFormed.bounded full, rfl⟩

/-- A node as `trfs_create_log_q` opens it. -/
def IsFresh (node : TrfsMqInfo Message) : Prop :=
  node.Represents 1024 [] ∧ node.attr.exitFlag = 0

theorem openFrom_fresh {queues : LogQueues} (wellFormed : queues.table.WellFormed) {first : Nat}
    (fresh : ∀ index, first ≤ index → index < queues.table.numAfdxQs →
      IsFresh (queues.table.nodes index)) (i remaining : Nat) :
    ∀ index, first ≤ index → index < (queues.openFrom i remaining).2.table.numAfdxQs →
      IsFresh ((queues.openFrom i remaining).2.table.nodes index) := by
  induction remaining generalizing queues i with
  | zero => exact fresh
  | succ remaining inductionHypothesis =>
      rcases Nat.lt_or_ge queues.table.numAfdxQs trfsMqMaxNoOfQ with room | full
      · rw [openFrom_room room]
        apply inductionHypothesis (wellFormed.addNode room txQAttr)
        intro index late below
        by_cases newest : index = queues.table.numAfdxQs
        · subst newest
          rw [MqTable.nodes_addNode_new]
          have positive : 0 < txQAttr.maxMsgs := by decide
          exact ⟨.openNode (wellFormed.unopened _ le_rfl) positive _, rfl⟩
        · obtain ⟨next, unchanged⟩ := MqTable.nodes_addNode_of_ne queues.table txQAttr newest
          have older : index < queues.table.numAfdxQs :=
            lt_of_le_of_ne (Nat.le_of_lt_succ below) newest
          obtain ⟨⟨⟨read, write, counter, behind⟩, capacity, contents, lengths⟩, noExit⟩ :=
            fresh index late older
          rw [unchanged]
          exact ⟨⟨⟨read, write, counter, behind⟩, capacity, contents, lengths⟩, noExit⟩
      · rw [openFrom_full full]
        exact fresh

end LogQueues

namespace TrfsModule

/-- The queue table is sound and has handed out `count` slots. -/
structure HasOpened (module : TrfsModule) (count : Nat) : Prop where
  wellFormed : module.queues.table.WellFormed
  numAfdxQs : module.queues.table.numAfdxQs = count

namespace HasOpened

variable {module : TrfsModule} {count : Nat}

theorem trfsCreateLogQ_ret (opened : module.HasOpened count) :
    (trfsCreateLogQ module.queues).1 = if count ≤ 2 then 0 else -1 := by
  have ret := (LogQueues.openFrom_opens opened.wellFormed 0 trfsTxQMaxNodes).2.2
  rw [opened.numAfdxQs] at ret
  rw [trfsCreateLogQ, ret]
  exact if_congr (by simp [trfsTxQMaxNodes, trfsMqMaxNoOfQ]) rfl rfl

/-- Work on one queue opens none. -/
theorem changesQueue (opened : module.HasOpened count) {table : MqTable Message} {mqId : Int}
    (changes : module.queues.table.ChangesQueue mqId table) (threads : List Nat) :
    { module with queues.table := table, threads := threads }.HasOpened count :=
  ⟨opened.wellFormed.changesQueue changes, changes.numAfdxQs.trans opened.numAfdxQs⟩

theorem send (opened : module.HasOpened count) (message : Message) :
    (module.send message).HasOpened count :=
  opened.changesQueue (MqTable.changesQueue_send _ _ _ _ _) module.threads

theorem receive (opened : module.HasOpened count) (mqId : Int) (out : Option Message × Int)
    (threads : List Nat) :
    { module with
      queues.table := module.queues.table.receive mqId out
      threads := threads }.HasOpened count :=
  opened.changesQueue (MqTable.changesQueue_receive _ mqId out) threads

theorem turn (opened : module.HasOpened count) (thread : Nat) :
    (module.turn thread).HasOpened count := by
  rw [TrfsModule.turn]
  split
  next =>
    rcases trfsMqRecv_cases module.queues.table trfsLogQid with
      blocked | failed | failed | ⟨message, took⟩
    · rw [blocked]
      exact opened
    · rw [failed]
      exact ⟨opened.wellFormed, opened.numAfdxQs⟩
    · rw [failed]
      exact opened.receive _ _ _
    · rw [took]
      dsimp only
      split <;> exact opened.receive _ _ _
  next => exact opened

theorem step (opened : module.HasOpened count) (event : MountEvent) :
    (module.step event).HasOpened count := by
  cases event with
  | trace record => exact opened.send record.message
  | turn thread => exact opened.turn thread

theorem run (opened : module.HasOpened count) (events : List MountEvent) :
    (Transition.run TrfsModule.step module events).HasOpened count :=
  run_invariant (HasOpened · count) (fun _ event opened => opened.step event) opened events

theorem trfsExit (opened : module.HasOpened count) (stack : Memory) :
    (module.trfsExit stack).HasOpened count := by
  have closed : { module with tfile := false }.HasOpened count :=
    ⟨opened.wellFormed, opened.numAfdxQs⟩
  rw [TrfsModule.trfsExit]
  dsimp only
  split
  next => simpa using ⟨closed.wellFormed, closed.numAfdxQs⟩
  next thread =>
    have stopped := closed.send (trfsKthreadExit stack)
    simpa using ⟨stopped.wellFormed, stopped.numAfdxQs⟩

theorem trfsReadSuper (opened : module.HasOpened count) (filename : List UInt8) :
    (module.trfsReadSuper (some filename)).2.HasOpened
      (min trfsMqMaxNoOfQ (count + trfsTxQMaxNodes)) := by
  obtain ⟨wellFormed, numAfdxQs, _⟩ :=
    LogQueues.openFrom_opens opened.wellFormed 0 trfsTxQMaxNodes
  rw [opened.numAfdxQs] at numAfdxQs
  rw [TrfsModule.trfsReadSuper]
  dsimp only
  split <;> exact ⟨wellFormed, numAfdxQs⟩

theorem cycle (opened : module.HasOpened count) (mount : MountCycle) :
    (module.cycle mount).HasOpened (min trfsMqMaxNoOfQ (count + trfsTxQMaxNodes)) := by
  have mounted := opened.trfsReadSuper mount.filename
  rw [TrfsModule.cycle]
  split
  next => exact ((mounted.run mount.events).trfsExit mount.stack).run _
  next => exact mounted

/-- Slots are never handed back. -/
theorem cycles (opened : module.HasOpened count) (cycles : List MountCycle) :
    (Transition.run TrfsModule.cycle module cycles).HasOpened
      (min trfsMqMaxNoOfQ (count + trfsTxQMaxNodes * cycles.length)) := by
  induction cycles generalizing module count with
  | nil =>
      have bounded := opened.wellFormed.bounded
      rw [opened.numAfdxQs] at bounded
      simpa [min_eq_right bounded] using opened
  | cons mount cycles inductionHypothesis =>
      have rest := inductionHypothesis (opened.cycle mount)
      have total : min trfsMqMaxNoOfQ (min trfsMqMaxNoOfQ (count + trfsTxQMaxNodes) +
            trfsTxQMaxNodes * cycles.length) =
          min trfsMqMaxNoOfQ (count + trfsTxQMaxNodes * (cycles.length + 1)) := by
        simp only [trfsMqMaxNoOfQ, trfsTxQMaxNodes]
        omega
      rwa [total] at rest

end HasOpened

theorem hasOpened_boot : boot.HasOpened 0 := ⟨MqTable.wellFormed_boot, rfl⟩

theorem hasOpened_after (cycles : List MountCycle) :
    (after cycles).HasOpened (min trfsMqMaxNoOfQ (trfsTxQMaxNodes * cycles.length)) := by
  simpa [after] using hasOpened_boot.cycles cycles

/-- A log thread has the log queue to itself, and every message in it is there. -/
structure Serving (module : TrfsModule) (thread : Nat) : Prop where
  wellFormed : module.queues.table.WellFormed
  opened : 1 < module.queues.table.numAfdxQs
  noExit : (module.queues.table.nodes 1).attr.exitFlag = 0
  queued : ∃ queue : List (Queued Message),
    (module.queues.table.nodes 1).Represents 1024 queue ∧
      ∀ message ∈ queue, message.1.isSome ∧ 0 ≤ message.2
  threads : module.threads = [thread]

namespace Serving

variable {module : TrfsModule} {thread : Nat}

theorem found (serving : module.Serving thread) :
    trfsMqGetNodeById module.queues.table trfsLogQid = some 1 :=
  serving.wellFormed.trfsMqGetNodeById_opened serving.opened

theorem trace (serving : module.Serving thread) (record : TraceRecord) :
    (module.send record.message).Serving thread := by
  obtain ⟨queue, represents, present⟩ := serving.queued
  have upper := record.call.byteSize_lt
  have lower := record.call.twenty_lt_byteSize
  have length : record.message.len = record.call.byteSize := record.len_message
  have unsigned : (BitVec.ofNat 64 record.message.len).toNat = record.message.len := by
    rw [BitVec.toNat_ofNat, Nat.mod_eq_of_lt (by omega)]
  have signed : toInt64 record.message.len = record.message.len := by
    unfold toInt64
    apply Int.bmod_eq_of_le <;> omega
  have sent := trfsMqSend_found serving.found record.message (by rw [unsigned]; omega) 0
  rw [unsigned, signed] at sent
  have range : -2 ^ 31 ≤ (record.message.len : Int) ∧ (record.message.len : Int) < 2 ^ 31 := by
    omega
  have next := (represents.put (some record.message) range 0).2
  refine ⟨serving.wellFormed.send _ _ _ _, ?_, ?_, ?_, serving.threads⟩
  all_goals dsimp only [TrfsModule.send]; rw [sent]
  · exact serving.opened
  · rw [MqTable.nodes_setNode_same, trfsMqPutMsg]
    split <;> exact serving.noExit
  · rw [MqTable.nodes_setNode_same]
    refine ⟨_, next, ?_⟩
    rw [fifoCall]
    split
    next =>
      intro message membership
      rcases List.mem_append.mp membership with older | newest
      · exact present message older
      · rw [List.mem_singleton.mp newest]
        exact ⟨rfl, Int.natCast_nonneg _⟩
    next => exact present

theorem nextMessage_eq (serving : module.Serving thread) :
    module.nextMessage =
      (module.queues.table.nodes 1).contents.head?.bind fun queued => queued.1 := by
  simp [nextMessage, serving.found]

/-- A receive takes the next message, or blocks when there is none. -/
theorem trfsMqRecv_eq (serving : module.Serving thread) :
    (module.nextMessage = none ∧ trfsMqRecv module.queues.table trfsLogQid = .blocked) ∨
      ∃ message table, module.nextMessage = some message ∧
        trfsMqRecv module.queues.table trfsLogQid = .took message table ∧
        { module with queues.table := table }.Serving thread := by
  obtain ⟨queue, represents, present⟩ := serving.queued
  rw [serving.nextMessage_eq, represents.contents]
  cases queue with
  | nil => exact .inl ⟨rfl, trfsMqRecv_blocked serving.found serving.noExit represents⟩
  | cons oldest later =>
      obtain ⟨some_, nonneg⟩ := present oldest (by simp)
      obtain ⟨message, isMessage⟩ := Option.isSome_iff_exists.mp some_
      have received := serving.wellFormed.receive trfsLogQid (none, 1)
      rw [MqTable.receive, serving.found] at received
      simp only [trfsMqRecvTake_eq] at received
      refine .inr ⟨message, _, by simp [isMessage],
        trfsMqRecv_took serving.found serving.noExit represents isMessage nonneg,
        received, serving.opened, ?_, ⟨later, ?_, ?_⟩, serving.threads⟩
      · simp [trfsMqGetMsg_exitFlag, serving.noExit]
      · simpa [TrfsMqInfo.call, fifoCall] using (represents.get false).2
      · exact fun message membership => present message (List.mem_cons_of_mem _ membership)

/-- As long as the thread takes ordinary messages it keeps running, alone. -/
theorem turn (serving : module.Serving thread) (other : Nat) :
    ((module.turn other).threads.length = 1 ↔ module.TakesOrdinary (.turn other)) ∧
      (module.TakesOrdinary (.turn other) → (module.turn other).Serving thread) := by
  have running := serving.threads
  rw [TrfsModule.turn, TakesOrdinary]
  by_cases mine : other ∈ module.threads
  · obtain rfl : other = thread := by simpa [running] using mine
    rw [if_pos mine]
    rcases serving.trfsMqRecv_eq with ⟨nothing, blocked⟩ | ⟨message, table, next, took, rest⟩
    · rw [blocked, nothing]
      exact ⟨iff_of_true (by simp [running]) (by simp), fun _ => serving⟩
    · rw [took, next]
      by_cases complete : message.firstInt = trfsLogComplete
      · simp [complete, running]
      · dsimp only
        rw [if_neg complete]
        exact ⟨iff_of_true (by simp [running]) (by simp [complete]), fun _ => rest⟩
  · rw [if_neg mine]
    exact ⟨iff_of_true (by simp [running]) fun present => absurd present mine, fun _ => serving⟩

theorem step (serving : module.Serving thread) (event : MountEvent) :
    ((module.step event).threads.length = 1 ↔ module.TakesOrdinary event) ∧
      (module.TakesOrdinary event → (module.step event).Serving thread) := by
  cases event with
  | trace record =>
      have next := serving.trace record
      exact ⟨iff_of_true (by simp [TrfsModule.step, next.threads]) trivial, fun _ => next⟩
  | turn other => exact serving.turn other

theorem staysOne_iff (serving : module.Serving thread) (events : List MountEvent) :
    Along TrfsModule.step (fun module event => (module.step event).threads.length = 1)
        module events ↔
      Along TrfsModule.step TakesOrdinary module events := by
  apply along_iff (Serving · thread)
  · exact fun module event serving => (serving.step event).1
  · exact fun module event serving one => (serving.step event).2 ((serving.step event).1.mp one)
  · exact serving

end Serving

theorem trfsReadSuper_of_created {module : TrfsModule}
    (created : (trfsCreateLogQ module.queues).1 = 0) (filename : List UInt8) :
    module.trfsReadSuper (some filename) =
      (0, ⟨(trfsCreateLogQ module.queues).2, module.trfsKthread, module.created + 1,
        module.threads ++ [module.created], true, true, true⟩) := by
  rw [trfsReadSuper, created]
  rfl

theorem boot_created : (trfsCreateLogQ boot.queues).1 = 0 := hasOpened_boot.trfsCreateLogQ_ret

theorem boot_opened (filename : List UInt8) :
    1 < (boot.trfsReadSuper (some filename)).2.queues.table.numAfdxQs := by
  rw [(hasOpened_boot.trfsReadSuper filename).numAfdxQs]
  decide

theorem boot_fresh (filename : List UInt8) :
    LogQueues.IsFresh ((boot.trfsReadSuper (some filename)).2.queues.table.nodes 1) := by
  have noneYet : ∀ index, 0 ≤ index → index < boot.queues.table.numAfdxQs →
      LogQueues.IsFresh (boot.queues.table.nodes index) :=
    fun _ _ below => absurd below (Nat.not_lt_zero _)
  have opened := boot_opened filename
  rw [trfsReadSuper_of_created boot_created] at opened ⊢
  exact LogQueues.openFrom_fresh hasOpened_boot.wellFormed noneYet 0 _ 1 (Nat.zero_le _) opened

theorem boot_serving (filename : List UInt8) :
    (boot.trfsReadSuper (some filename)).2.Serving 0 where
  wellFormed := (hasOpened_boot.trfsReadSuper filename).wellFormed
  opened := boot_opened filename
  noExit := (boot_fresh filename).2
  queued := ⟨[], (boot_fresh filename).1, by simp⟩
  threads := by
    rw [trfsReadSuper_of_created boot_created]
    rfl

/-- After the first mount there is no room for ten more queues. -/
theorem not_created_after (mount : MountCycle) (cycles : List MountCycle) :
    (trfsCreateLogQ (after (mount :: cycles)).queues).1 ≠ 0 := by
  have many : ¬ min trfsMqMaxNoOfQ (trfsTxQMaxNodes * (mount :: cycles).length) ≤ 2 := by
    simp only [trfsMqMaxNoOfQ, trfsTxQMaxNodes, List.length_cons]
    omega
  rw [(hasOpened_after _).trfsCreateLogQ_ret, if_neg many]
  decide

/-- A mount finds a clean module exactly when it is the first since the module
was loaded, and keeps its log thread exactly as long as the thread takes no
message that begins with `TRFS_LOG_COMPLETE`. -/
theorem mountsCleanly_after_iff (cycles : List MountCycle) (filename : List UInt8)
    (events : List MountEvent) :
    (after cycles).MountsCleanly filename events ↔
      cycles = [] ∧
        Along TrfsModule.step TakesOrdinary (boot.trfsReadSuper (some filename)).2 events := by
  constructor
  · intro cleanly
    obtain rfl : cycles = [] := by
      cases cycles with
      | nil => rfl
      | cons mount cycles =>
          exact absurd cleanly.queues (not_created_after mount cycles)
    exact ⟨rfl, ((boot_serving filename).staysOne_iff events).mp cleanly.staysOne⟩
  · rintro ⟨rfl, ordinary⟩
    have serving := boot_serving filename
    refine ⟨rfl, boot_created, ?_, ⟨1, Nat.zero_le _, serving.found, ?_⟩, ?_, ?_,
      (serving.staysOne_iff events).mpr ordinary⟩
    · exact congrArg Prod.fst (trfsReadSuper_of_created boot_created filename)
    · exact (boot_fresh filename).1.contents
    · intro thread running
      exact List.mem_singleton.mp (serving.threads ▸ running)
    · exact congrArg List.length serving.threads

/-- A mount with the trace file `a` and an unmount, with no call in between. -/
def idleCycle : MountCycle := ⟨[97], [], fun _ => 0, []⟩

/-- After one idle mount the next fails with `EINVAL`, ten of the twelve queues
are taken and the first log thread is still there. -/
theorem not_mountsCleanly_second :
    ((after [idleCycle]).trfsReadSuper (some [97])).1 = -22 ∧
      (after [idleCycle]).resources = ⟨10, [0], false, false, false⟩ ∧
      ¬ (after [idleCycle]).MountsCleanly [97] [] :=
  ⟨by decide, by decide, fun cleanly => not_created_after idleCycle [] cleanly.queues⟩

end TrfsModule

end Tracefs
