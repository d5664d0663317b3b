import Tracefs.MsgQueue.Rings

/-!
# Several receivers on one queue

`trfsMqRecv` looks at the counter before it takes the lock.  Between the two another receiver may
take the last message; then `trfsMqGetMsg` answers `TRFS_ERR_MQ_EMPTY`, its caller compares with
`-1`, and the call returns whatever length its caller's variable held.  Receivers are numbered; the
test and the locked section of each are steps of their own and interleave with those of the others
and with the senders.
-/

namespace Tracefs

open Bytes Transition

variable {Ptr : Type}

/-- The queues, and for each receiver past its test what its caller's `*msg_p` and `*msgLen`
hold. -/
structure Reception (Ptr : Type) where
  table : MqTable Ptr
  tested : Nat → Option (Queued Ptr)

inductive ReceptionAction (Ptr : Type) where
  | send (msgP : Option Ptr) (msgLen : BitVec 64) (msgPriority : Int)
  | setExitFlag
  | clearExitFlag
  | recvTest (receiver : Nat) (out : Queued Ptr)
  | recvTake (receiver : Nat)

/-- A call of `trfsMqRecv` that returns, with its caller's variables before and after. -/
structure Returned (Ptr : Type) where
  ret : Int
  given : Queued Ptr
  out : Queued Ptr

namespace Reception

def start (table : MqTable Ptr) : Reception Ptr := ⟨table, fun _ => none⟩

/-- One step, and the call that returns in it.  A step of a receiver that its program counter does
not allow changes nothing. -/
def act (mqId : Int) (state : Reception Ptr) :
    ReceptionAction Ptr → Reception Ptr × Option (Returned Ptr)
  | .send msgP msgLen msgPriority =>
      ({ state with table := (trfsMqSend state.table mqId msgP msgLen msgPriority).2 }, none)
  | .setExitFlag =>
      ({ state with table := (trfsSetExitFlag state.table mqId).getD state.table }, none)
  | .clearExitFlag =>
      ({ state with table := (trfsClearExitFlag state.table mqId).getD state.table }, none)
  | .recvTest receiver out =>
      match state.tested receiver, trfsMqGetNodeById state.table mqId with
      | some _, _ => (state, none)
      | none, none => (state, some ⟨-1, out, out⟩)
      | none, some index =>
          match trfsMqRecvTest (state.table.nodes index) with
          | some ret => (state, some ⟨ret, out, out⟩)
          | none =>
              ({ state with tested := Function.update state.tested receiver (some out) }, none)
  | .recvTake receiver =>
      match state.tested receiver, trfsMqGetNodeById state.table mqId with
      | some out, some index =>
          let taken := trfsMqRecvTake (state.table.nodes index) out
          (⟨state.table.setNode index taken.2.2, Function.update state.tested receiver none⟩,
            some ⟨taken.1, out, taken.2.1⟩)
      | _, _ => (state, none)

def step (mqId : Int) (state : Reception Ptr) (action : ReceptionAction Ptr) : Reception Ptr :=
  (state.act mqId action).1

/-- A call that returns has removed the oldest message, and hands it out if its result is not
negative; or it has removed nothing, says so, and has left its caller's variables alone. -/
def Truthful (mqId : Int) (state : Reception Ptr) (action : ReceptionAction Ptr) : Prop :=
  ∀ returned ∈ (state.act mqId action).2,
    let before := state.table.messages mqId
    let after := (state.step mqId action).table.messages mqId
    (∃ message, before = message :: after ∧ (0 ≤ returned.ret → returned.out = message)) ∨
      (before = after ∧ returned.ret < 0 ∧ returned.out = returned.given)

/-- A locked section finds a message whose length an `int` holds or shows as negative; on an empty
queue its caller had left a negative length. -/
def FindsMessage (mqId : Int) (state : Reception Ptr) : ReceptionAction Ptr → Prop
  | .recvTake receiver => ∀ out ∈ state.tested receiver,
      match state.table.messages mqId with
      | [] => out.2 < 0
      | oldest :: _ => toInt32 oldest.2 = oldest.2 ∨ toInt32 oldest.2 < 0
  | _ => True

structure Consistent (mqId : Int) (state : Reception Ptr) : Prop where
  rings : state.table.Rings
  found : ∀ receiver out, state.tested receiver = some out →
    ∃ index, trfsMqGetNodeById state.table mqId = some index

end Reception

theorem trfsMqRecvTest_neg {node : TrfsMqInfo Ptr} {ret : Int}
    (returned : trfsMqRecvTest node = some ret) : ret < 0 := by
  unfold trfsMqRecvTest at returned
  split at returned
  · cases returned
    decide
  · split at returned
    · cases returned
      decide
    · cases returned

namespace Reception

variable {mqId : Int} {state : Reception Ptr}

namespace Consistent

/-- Before the lock a call gives up with a negative result and has touched nothing. -/
theorem truthful_recvTest (receiver : Nat) (out : Queued Ptr) :
    state.Truthful mqId (.recvTest receiver out) := by
  have givesUp : ∀ returned ∈ (state.act mqId (.recvTest receiver out)).2,
      state.step mqId (.recvTest receiver out) = state ∧ returned.ret < 0 ∧
        returned.out = returned.given := by
    intro returned member
    unfold Reception.step
    cases waiting : state.tested receiver with
    | some held => simp [act, waiting] at member
    | none =>
        cases found : trfsMqGetNodeById state.table mqId with
        | none =>
            simp only [act, waiting, found, Option.mem_def, Option.some.injEq] at member ⊢
            subst member
            exact ⟨trivial, (by decide : (-1 : Int) < 0), rfl⟩
        | some index =>
            cases tested : trfsMqRecvTest (state.table.nodes index) with
            | none => simp [act, waiting, found, tested] at member
            | some ret =>
                simp only [act, waiting, found, tested, Option.mem_def, Option.some.injEq]
                  at member ⊢
                subst member
                exact ⟨trivial, trfsMqRecvTest_neg tested, rfl⟩
  intro returned member
  obtain ⟨unchanged, negative, alone⟩ := givesUp returned member
  rw [unchanged]
  exact .inr ⟨rfl, negative, alone⟩

/-- Under the lock the caller's old length is returned when the queue is empty, and the length of
the message as an `int` when it is not. -/
theorem truthful_recvTake_iff (consistent : state.Consistent mqId) (receiver : Nat) :
    state.Truthful mqId (.recvTake receiver) ↔ state.FindsMessage mqId (.recvTake receiver) := by
  cases waiting : state.tested receiver with
  | none => simp [Truthful, FindsMessage, act, waiting]
  | some out =>
      obtain ⟨index, found⟩ := consistent.found receiver out waiting
      rcases consistent.rings.take_cases index out with
        ⟨empty, taken⟩ | ⟨oldest, later, node, held, left, sameId, taken⟩
      · have before : state.table.messages mqId = [] := by
          rw [MqTable.messages_of_found found, empty]
        simp [Truthful, FindsMessage, Reception.step, act, waiting, found, taken, before]
      · have before : state.table.messages mqId = oldest :: later := by
          rw [MqTable.messages_of_found found, held]
        have after : (state.table.setNode index node).messages mqId = later := by
          rw [MqTable.messages_setNode found sameId, left]
        simp only [Truthful, FindsMessage, Reception.step, act, waiting, found, taken, before,
          after, Option.mem_def, Option.some.injEq, forall_eq']
        constructor
        · rintro (⟨message, same, handedOut⟩ | ⟨same, _⟩)
          · by_cases nonneg : 0 ≤ toInt32 oldest.2
            · have shown := handedOut nonneg
              rw [← (List.cons.inj same).1] at shown
              exact .inl (congrArg Prod.snd shown)
            · exact .inr (Int.not_le.mp nonneg)
          · exact absurd same (List.cons_ne_self oldest later)
        · intro length
          refine .inl ⟨oldest, rfl, fun nonneg => ?_⟩
          rcases length with same | negative
          · rw [same]
          · exact absurd nonneg (Int.not_le.mpr negative)

theorem truthful_iff (consistent : state.Consistent mqId) (action : ReceptionAction Ptr) :
    state.Truthful mqId action ↔ state.FindsMessage mqId action := by
  cases action with
  | recvTest receiver out => exact iff_of_true (truthful_recvTest receiver out) trivial
  | recvTake receiver => exact consistent.truthful_recvTake_iff receiver
  | _ => exact iff_of_true (fun returned member => by cases member) trivial

theorem step (consistent : state.Consistent mqId) (action : ReceptionAction Ptr) :
    (state.step mqId action).Consistent mqId := by
  obtain ⟨rings, tested⟩ := consistent
  cases action with
  | send msgP msgLen msgPriority =>
      have changes := state.table.changesQueue_send mqId msgP msgLen msgPriority
      refine ⟨rings.changesQueue changes, ?_⟩
      intro receiver out waiting
      rw [Reception.step, act, changes.trfsMqGetNodeById]
      exact tested receiver out waiting
  | setExitFlag =>
      have changes := state.table.changesQueue_storeExitFlag mqId 1
      refine ⟨rings.changesQueue changes, ?_⟩
      intro receiver out waiting
      rw [Reception.step, act, trfsSetExitFlag, changes.trfsMqGetNodeById]
      exact tested receiver out waiting
  | clearExitFlag =>
      have changes := state.table.changesQueue_storeExitFlag mqId 0
      refine ⟨rings.changesQueue changes, ?_⟩
      intro receiver out waiting
      rw [Reception.step, act, trfsClearExitFlag, changes.trfsMqGetNodeById]
      exact tested receiver out waiting
  | recvTest receiver out =>
      simp only [Reception.step, act]
      split
      next => exact ⟨rings, tested⟩
      next => exact ⟨rings, tested⟩
      next index _ found =>
        split
        next => exact ⟨rings, tested⟩
        next => exact ⟨rings, fun _ _ _ => ⟨index, found⟩⟩
  | recvTake receiver =>
      simp only [Reception.step, act]
      split
      next out index _ found =>
        refine ⟨rings.take index out, fun _ _ _ => ⟨index, ?_⟩⟩
        rw [MqTable.trfsMqGetNodeById_setNode _ _ (trfsMqRecvTake_mqId _ out)]
        exact found
      next => exact ⟨rings, tested⟩

theorem start (earlier : List (MqAction Ptr)) :
    (start (MqTable.after earlier)).Consistent mqId :=
  ⟨MqTable.rings_after earlier, fun _ _ waiting => by cases waiting⟩

end Consistent

end Reception

/-- In every interleaving of receivers and senders, after any use of the queues before, the calls
of `trfsMqRecv` are truthful exactly when every locked section finds what its test had seen. -/
theorem receivers_truthful_iff (earlier : List (MqAction Ptr)) (mqId : Int)
    (actions : List (ReceptionAction Ptr)) :
    Along (Reception.step mqId) (Reception.Truthful mqId)
        (Reception.start (MqTable.after earlier)) actions ↔
      Along (Reception.step mqId) (Reception.FindsMessage mqId)
        (Reception.start (MqTable.after earlier)) actions := by
  refine along_iff (Reception.Consistent mqId) ?_ ?_ (Reception.Consistent.start earlier) actions
  · intro state action consistent
    exact consistent.truthful_iff action
  · intro state action consistent _
    exact consistent.step action

/-- A queue of two messages, one message of 40 bytes in it, and two receivers past their test.
Receiver `0` takes the message. -/
def racedReception : Reception Nat :=
  run (Reception.step 1)
    (Reception.start (MqTable.after [.openQueue (some ⟨1, 2, 100, 0, 0⟩) true]))
    [.send (some 10) 40 0, .recvTest 0 (none, 1), .recvTest 1 (some 77, 1), .recvTake 0]

/-- Receiver `1` then returns `1` with the pointer it came with, and has removed nothing. -/
theorem racedReception_returns_nothing :
    racedReception.table.messages 1 = [] ∧
      (racedReception.act 1 (.recvTake 1)).2 = some ⟨1, (some 77, 1), (some 77, 1)⟩ ∧
      ¬ racedReception.Truthful 1 (.recvTake 1) := by
  have empty : racedReception.table.messages 1 = [] := by decide
  have returned : (racedReception.act 1 (.recvTake 1)).2 =
      some ⟨1, (some 77, 1), (some 77, 1)⟩ := by rfl
  refine ⟨empty, returned, ?_⟩
  intro truthful
  rcases truthful _ returned with ⟨message, removed, _⟩ | ⟨_, negative, _⟩
  · rw [empty] at removed
    cases removed
  · exact absurd negative (by decide)

end Tracefs
