import Tracefs.LinkedList
import Tracefs.Loop
import Tracefs.Replay.Handlers
import Tracefs.Transition

/-!
# The linked list of open files

The replayer keeps its open files in a linked list behind the global pointer `omap`.  Here the
three functions on it work on a heap of nodes.  A dereference of a pointer to nothing, and a read of
`prev` before it is assigned, end the program; a walk that does not end runs out of fuel.  For every
sequence of calls neither happens, and what the calls see is the list that the handlers of the
replayer work on.
-/

namespace Tracefs

open LinkedList Loop Transition

variable {Ptr : Type}

/-- The nodes in memory and the global `omap`, which may be null. -/
structure LinkedOmap (Ptr : Type) where
  heap : Heap Ptr OmapNode
  omap : Option Ptr

/-- The key that the list is searched for. -/
def OmapNode.hasKey (addr : Nat) (pid : Int) (node : OmapNode) : Bool :=
  node.addr = addr ∧ node.pid = pid

/-- The loop of `trfs_omap_add_op`, which stops at the last node. -/
def lastTurn (heap : Heap Ptr OmapNode) (temp : Ptr) : Turn Ptr Ptr :=
  match heap temp with
  | none => .stuck
  | some cell =>
      match cell.next with
      | none => .stops temp
      | some next => .turns next

/-- The loop of `trfs_omap_getfd`. -/
def getfdTurn (heap : Heap Ptr OmapNode) (addr : Nat) (pid : Int) :
    Option Ptr → Turn (Option Ptr) Int
  | none => .stops (-1)
  | some temp =>
      match heap temp with
      | none => .stuck
      | some cell =>
          if cell.value.hasKey addr pid then .stops cell.value.fd else .turns cell.next

section Edits

variable [DecidableEq Ptr]

/-- The loop of `trfs_omap_delete_op` over `prev` and `temp`.  The former holds no value before the
first turn. -/
def deleteTurn (heap : Heap Ptr OmapNode) (addr : Nat) (pid : Int) :
    Option Ptr × Option Ptr → Turn (Option Ptr × Option Ptr) (Heap Ptr OmapNode)
  | (_, none) => .stops heap
  | (prev, some temp) =>
      match heap temp with
      | none => .stuck
      | some cell =>
          if cell.value.hasKey addr pid then
            match prev.bind fun prev => setNext heap prev cell.next with
            | none => .stuck
            | some unlinked => .stops (release unlinked temp)
          else .turns (some temp, cell.next)

/-- A call with its arguments.  Before `trfs_omap_add_op`, `OMAP_OP` allocates the node and fills
it in. -/
inductive OmapCall (Ptr : Type) where
  | add (node : Ptr) (cell : Cell Ptr OmapNode)
  | delete (addr : Nat) (pid : Int)
  | getfd (addr : Nat) (pid : Int)

namespace LinkedOmap

/-- The argument `head` is not used. -/
def trfsOmapAddOp (fuel : Nat) (state : LinkedOmap Ptr) (node : Ptr) : Option (LinkedOmap Ptr) :=
  match state.omap with
  | none => (setNext state.heap node none).map fun heap => ⟨heap, some node⟩
  | some omap => do
      let temp ← runLoop (lastTurn state.heap) fuel omap
      let linked ← setNext state.heap temp (some node)
      let cell ← linked temp
      let next ← cell.next
      let heap ← setNext linked next none
      some ⟨heap, some omap⟩

@[inherit_doc trfsOmapAddOp]
def trfsOmapDeleteOp (fuel : Nat) (state : LinkedOmap Ptr) (addr : Nat) (pid : Int) :
    Option (LinkedOmap Ptr) :=
  match state.omap with
  | none => some state
  | some omap => do
      let cell ← state.heap omap
      if cell.value.hasKey addr pid then some ⟨release state.heap omap, cell.next⟩
      else
        let heap ← runLoop (deleteTurn state.heap addr pid) fuel (none, some omap)
        some ⟨heap, some omap⟩

/-- Its callers pass `omap` as `head`. -/
def trfsOmapGetfd (fuel : Nat) (heap : Heap Ptr OmapNode) (head : Option Ptr) (addr : Nat)
    (pid : Int) : Option Int :=
  match head with
  | none => some (-1)
  | some head => runLoop (getfdTurn heap addr pid) fuel (some head)

/-- The state after a call, and the descriptor it returns. -/
def call (fuel : Nat) (state : LinkedOmap Ptr) :
    OmapCall Ptr → Option (LinkedOmap Ptr × Option Int)
  | .add node cell =>
      (trfsOmapAddOp fuel ⟨store state.heap node cell, state.omap⟩ node).map fun after =>
        (after, none)
  | .delete addr pid => (state.trfsOmapDeleteOp fuel addr pid).map fun after => (after, none)
  | .getfd addr pid =>
      (trfsOmapGetfd fuel state.heap state.omap addr pid).map fun fd => (state, some fd)

/-- A program that went wrong makes no further call. -/
def step (fuel : Nat) : Option (LinkedOmap Ptr) → OmapCall Ptr →
    Option (LinkedOmap Ptr) × Option Int
  | none, _ => (none, none)
  | some state, call =>
      match state.call fuel call with
      | none => (none, none)
      | some (after, shown) => (some after, shown)

/-- `malloc` returns a pointer that is not in use. -/
def Fresh : Option (LinkedOmap Ptr) → OmapCall Ptr → Prop
  | some state, .add node _ => state.heap node = none
  | _, _ => True

end LinkedOmap

end Edits

/-- The calls on a list of nodes, each with the pointer to it. -/
def nodeCall (nodes : List (Ptr × OmapNode)) : OmapCall Ptr → List (Ptr × OmapNode) × Option Int
  | .add node cell => (nodes ++ [(node, cell.value)], none)
  | .delete addr pid => (nodes.eraseP fun node => node.2.hasKey addr pid, none)
  | .getfd addr pid =>
      (nodes, some (((nodes.find? fun node => node.2.hasKey addr pid).map
        fun node => node.2.fd).getD (-1)))

/-- The calls on the list of the replayer's handlers. -/
def omapCall (omap : List OmapNode) : OmapCall Ptr → List OmapNode × Option Int
  | .add _ cell => (trfsOmapAddOp omap cell.value, none)
  | .delete addr pid => (trfsOmapDeleteOp omap addr pid, none)
  | .getfd addr pid => (omap, some (trfsOmapGetfd omap addr pid))

/-! ## The walks -/

section Walks

variable {heap : Heap Ptr OmapNode} {link middle : Option Ptr} {addr : Nat} {pid : Int}

theorem runLoop_lastTurn {start : Ptr} {first : List (Ptr × OmapNode)} {node : Ptr × OmapNode}
    (segment : Segment heap none (some start) (first ++ [node])) (fuel : Nat) :
    runLoop (lastTurn heap) (first.length + fuel + 1) start = some node.1 := by
  induction first generalizing start with
  | nil =>
      obtain ⟨here, next, cell, rfl⟩ := segment
      cases here
      apply runLoop_of_stops
      simp only [lastTurn, cell]
  | cons other first inductionHypothesis =>
      obtain ⟨here, next, cell, behind⟩ := segment
      cases here
      obtain ⟨later, _, rfl, _⟩ := behind.head
      have follows : Follows (lastTurn heap) other.1 later.1 := by
        simp only [Follows, lastTurn, cell]
      rw [runLoop_of_follows follows, List.length_cons, Nat.add_right_comm]
      exact inductionHypothesis behind

theorem runLoop_getfdTurn_skips {skipped : List (Ptr × OmapNode)}
    (segment : Segment heap middle link skipped)
    (others : ∀ node ∈ skipped, node.2.hasKey addr pid = false) (fuel : Nat) :
    runLoop (getfdTurn heap addr pid) (skipped.length + fuel) link =
      runLoop (getfdTurn heap addr pid) fuel middle := by
  induction skipped generalizing link with
  | nil =>
      rw [show link = middle from segment, List.length_nil, Nat.zero_add]
  | cons node skipped inductionHypothesis =>
      obtain ⟨rfl, next, cell, behind⟩ := segment
      have follows : Follows (getfdTurn heap addr pid) (some node.1) next := by
        simp [Follows, getfdTurn, cell, others node (by simp)]
      rw [List.length_cons, Nat.succ_add, runLoop_of_follows follows]
      exact inductionHypothesis behind fun later member =>
        others later (List.mem_cons_of_mem node member)

theorem runLoop_deleteTurn_skips [DecidableEq Ptr] {skipped : List (Ptr × OmapNode)}
    (segment : Segment heap middle link skipped)
    (others : ∀ node ∈ skipped, node.2.hasKey addr pid = false) (prev : Option Ptr)
    (fuel : Nat) :
    runLoop (deleteTurn heap addr pid) (skipped.length + fuel) (prev, link) =
      runLoop (deleteTurn heap addr pid) fuel
        ((skipped.getLast?.map Prod.fst).or prev, middle) := by
  -- `prev` follows one node behind, so it is generalized along with the link
  induction skipped generalizing link prev with
  | nil =>
      rw [show link = middle from segment, List.length_nil, Nat.zero_add]
      rfl
  | cons node skipped inductionHypothesis =>
      obtain ⟨rfl, next, cell, behind⟩ := segment
      have follows : Follows (deleteTurn heap addr pid) (prev, some node.1)
          (some node.1, next) := by
        simp [Follows, deleteTurn, cell, others node (by simp)]
      rw [List.length_cons, Nat.succ_add, runLoop_of_follows follows,
        inductionHypothesis behind fun later member =>
          others later (List.mem_cons_of_mem node member)]
      cases last : skipped.getLast? with
      | none => simp [List.getLast?_cons, last]
      | some node => simp [List.getLast?_cons, last]

end Walks

/-! ## The functions -/

/-- The first node with a key splits the list, if there is one. -/
theorem hasKey_cases (addr : Nat) (pid : Int) (nodes : List (Ptr × OmapNode)) :
    (∀ node ∈ nodes, node.2.hasKey addr pid = false) ∨
      ∃ first node rest, nodes = first ++ node :: rest ∧ node.2.hasKey addr pid = true ∧
        ∀ other ∈ first, other.2.hasKey addr pid = false := by
  cases found : nodes.find? fun node => node.2.hasKey addr pid with
  | none => exact .inl (by simpa using found)
  | some node =>
      obtain ⟨key, first, rest, split, others⟩ := List.find?_eq_some_iff_append.mp found
      exact .inr ⟨first, node, rest, split, key, by simpa using others⟩

namespace LinkedOmap

variable [DecidableEq Ptr] {fuel : Nat} {heap : Heap Ptr OmapNode} {omap : Option Ptr}
  {nodes : List (Ptr × OmapNode)}

/-- Adding writes the last node and the new one. -/
theorem trfsOmapAddOp_appends (isList : IsList heap omap nodes) (enough : nodes.length < fuel)
    {node : Ptr} {cell : Cell Ptr OmapNode} (allocated : heap node = some cell)
    (fresh : node ∉ nodes.map Prod.fst) :
    ∃ after, trfsOmapAddOp fuel ⟨heap, omap⟩ node = some after ∧
      IsList after.heap after.omap (nodes ++ [(node, cell.value)]) ∧
      ∀ ptr, ptr ∉ nodes.map Prod.fst → ptr ≠ node → after.heap ptr = heap ptr := by
  rcases List.eq_nil_or_concat' nodes with rfl | ⟨first, last, rfl⟩
  · obtain rfl : omap = none := isList.segment
    refine ⟨⟨store heap node { cell with next := none }, some node⟩, ?_, ?_, ?_⟩
    · simp only [trfsOmapAddOp, setNext_of_cell allocated, Option.map_some]
    · exact ⟨⟨rfl, none, store_same .., rfl⟩, List.nodup_singleton _⟩
    · exact fun ptr _ notNode => store_of_ne _ _ notNode
  · obtain ⟨head, _, rfl, _⟩ := isList.segment.head
    obtain ⟨_, next, lastCell, _⟩ := isList.split
    have walked : runLoop (lastTurn heap) fuel head.1 = some last.1 := by
      rw [List.length_append, List.length_singleton] at enough
      have turns : fuel = first.length + (fuel - first.length - 1) + 1 := by omega
      rw [turns]
      exact runLoop_lastTurn isList.segment _
    have apart : node ≠ last.1 := by
      intro same
      apply fresh
      simp [same]
    have added : store heap last.1 ⟨last.2, some node⟩ node = some cell := by
      rw [store_of_ne _ _ apart, allocated]
    refine ⟨⟨store (store heap last.1 ⟨last.2, some node⟩) node ⟨cell.value, none⟩, some head.1⟩,
      ?_, isList.link_last (node, cell.value) fresh, fun ptr notListed notNode => ?_⟩
    · simp only [trfsOmapAddOp, walked, setNext_of_cell lastCell, Option.bind_eq_bind,
        Option.bind_some, store_same, setNext_of_cell added]
    · have notLast : ptr ≠ last.1 := by
        intro same
        apply notListed
        simp [same]
      exact (store_of_ne _ _ notNode).trans (store_of_ne _ _ notLast)

theorem trfsOmapDeleteOp_of_other {head : Ptr} {cell : Cell Ptr OmapNode} {addr : Nat} {pid : Int}
    (allocated : heap head = some cell) (other : cell.value.hasKey addr pid = false) :
    trfsOmapDeleteOp fuel ⟨heap, some head⟩ addr pid =
      (runLoop (deleteTurn heap addr pid) fuel (none, some head)).map
        fun heap => ⟨heap, some head⟩ := by
  simp only [trfsOmapDeleteOp, allocated, Option.bind_eq_bind, Option.bind_some, other,
    Bool.false_eq_true, if_false]
  exact Option.map_eq_bind.symm

theorem trfsOmapDeleteOp_of_absent (isList : IsList heap omap nodes)
    (enough : nodes.length < fuel) {addr : Nat} {pid : Int}
    (absent : ∀ node ∈ nodes, node.2.hasKey addr pid = false) :
    trfsOmapDeleteOp fuel ⟨heap, omap⟩ addr pid = some ⟨heap, omap⟩ := by
  cases nodes with
  | nil =>
      obtain rfl : omap = none := isList.segment
      rfl
  | cons head rest =>
      obtain ⟨extra, rfl⟩ := Nat.exists_eq_add_of_lt enough
      have walked := runLoop_deleteTurn_skips isList.segment absent none (extra + 1)
      obtain ⟨rfl, next, cell, _⟩ := isList.segment
      rw [trfsOmapDeleteOp_of_other cell (absent head (by simp)), Nat.add_assoc, walked]
      rfl

theorem trfsOmapDeleteOp_of_head {node : Ptr × OmapNode} {next : Option Ptr}
    (cell : heap node.1 = some ⟨node.2, next⟩) {addr : Nat} {pid : Int}
    (key : node.2.hasKey addr pid = true) :
    trfsOmapDeleteOp fuel ⟨heap, some node.1⟩ addr pid = some ⟨release heap node.1, next⟩ := by
  simp only [trfsOmapDeleteOp, cell, Option.bind_eq_bind, Option.bind_some, key, if_true]

/-- The head is compared before the loop, so the loop has assigned `prev` when it finds a match. -/
theorem trfsOmapDeleteOp_of_later {first rest : List (Ptr × OmapNode)} {prev temp : Ptr × OmapNode}
    (isList : IsList heap omap (first ++ prev :: temp :: rest))
    (enough : (first ++ prev :: temp :: rest).length < fuel) {addr : Nat} {pid : Int}
    (key : temp.2.hasKey addr pid = true)
    (others : ∀ other ∈ first ++ [prev], other.2.hasKey addr pid = false) {next : Option Ptr}
    (cell : heap temp.1 = some ⟨temp.2, next⟩) :
    trfsOmapDeleteOp fuel ⟨heap, omap⟩ addr pid =
      some ⟨release (store heap prev.1 ⟨prev.2, next⟩) temp.1, omap⟩ := by
  obtain ⟨_, _, prevCell, _⟩ := isList.split
  have stops : deleteTurn heap addr pid (some prev.1, some temp.1) =
      .stops (release (store heap prev.1 ⟨prev.2, next⟩) temp.1) := by
    simp only [deleteTurn, cell, key, if_true, Option.bind_some, setNext_of_cell prevCell]
  have turns : fuel = (first ++ [prev]).length + (fuel - (first ++ [prev]).length - 1 + 1) := by
    simp only [List.length_append, List.length_cons, List.length_nil] at enough ⊢
    omega
  obtain ⟨head, member, rfl, _, headCell⟩ := isList.segment.head
  have around : first ++ prev :: temp :: rest = (first ++ [prev]) ++ temp :: rest := by simp
  rw [around] at isList
  have walked := runLoop_deleteTurn_skips isList.split.1 others none
    (fuel - (first ++ [prev]).length - 1 + 1)
  rw [← turns, List.getLast?_concat] at walked
  rw [trfsOmapDeleteOp_of_other headCell (others head member), walked]
  exact congrArg (Option.map _) (runLoop_of_stops stops _)

theorem trfsOmapDeleteOp_erases (isList : IsList heap omap nodes) (enough : nodes.length < fuel)
    (addr : Nat) (pid : Int) :
    ∃ after, trfsOmapDeleteOp fuel ⟨heap, omap⟩ addr pid = some after ∧
      IsList after.heap after.omap (nodes.eraseP fun node => node.2.hasKey addr pid) := by
  rcases hasKey_cases addr pid nodes with absent | ⟨first, node, rest, rfl, key, others⟩
  · rw [List.eraseP_of_forall_not (by simpa using absent)]
    exact ⟨⟨heap, omap⟩, trfsOmapDeleteOp_of_absent isList enough absent, isList⟩
  have erased : (first ++ node :: rest).eraseP (fun node => node.2.hasKey addr pid) =
      first ++ rest := by
    rw [List.eraseP_append_right _ (by simpa using others)]
    simp [key]
  obtain ⟨before, next, cell, _⟩ := isList.split
  rw [erased]
  rcases List.eq_nil_or_concat' first with rfl | ⟨first, prev, rfl⟩
  · obtain rfl : omap = some node.1 := before
    exact ⟨_, trfsOmapDeleteOp_of_head cell key, isList.release_head cell⟩
  · rw [List.append_assoc] at isList enough ⊢
    exact ⟨_, trfsOmapDeleteOp_of_later isList enough key others cell, isList.unlink cell⟩

omit [DecidableEq Ptr] in
theorem trfsOmapGetfd_finds (isList : IsList heap omap nodes) (enough : nodes.length < fuel)
    (addr : Nat) (pid : Int) :
    trfsOmapGetfd fuel heap omap addr pid =
      some (((nodes.find? fun node => node.2.hasKey addr pid).map fun node => node.2.fd).getD
        (-1)) := by
  have start : trfsOmapGetfd fuel heap omap addr pid =
      runLoop (getfdTurn heap addr pid) fuel omap := by
    cases omap with
    | some head => rfl
    | none =>
        obtain ⟨turns, rfl⟩ := Nat.exists_eq_succ_of_ne_zero (Nat.ne_zero_of_lt enough)
        exact (runLoop_of_stops rfl turns).symm
  rw [start]
  rcases hasKey_cases addr pid nodes with absent | ⟨first, node, rest, rfl, key, others⟩
  · have nothing : nodes.find? (fun node => node.2.hasKey addr pid) = none := by
      simpa using absent
    obtain ⟨extra, rfl⟩ := Nat.exists_eq_add_of_lt enough
    rw [Nat.add_assoc, runLoop_getfdTurn_skips isList.segment absent, nothing]
    exact runLoop_of_stops rfl extra
  · have found : (first ++ node :: rest).find? (fun node => node.2.hasKey addr pid) = some node :=
      List.find?_eq_some_iff_append.mpr ⟨key, first, rest, rfl, by simpa using others⟩
    obtain ⟨before, next, cell, _⟩ := isList.split
    have stops : getfdTurn heap addr pid (some node.1) = .stops node.2.fd := by
      simp only [getfdTurn, cell, key, if_true]
    have turns : fuel = first.length + (fuel - first.length - 1 + 1) := by
      rw [List.length_append] at enough
      omega
    rw [turns, runLoop_getfdTurn_skips before others, found]
    exact runLoop_of_stops stops _

theorem step_simulates (isList : IsList heap omap nodes) (enough : nodes.length < fuel)
    {call : OmapCall Ptr} (fresh : Fresh (some ⟨heap, omap⟩) call) :
    ∃ after, step fuel (some ⟨heap, omap⟩) call = (some after, (nodeCall nodes call).2) ∧
      IsList after.heap after.omap (nodeCall nodes call).1 := by
  cases call with
  | add node cell =>
      have free : heap node = none := fresh
      obtain ⟨after, added, represented, -⟩ := trfsOmapAddOp_appends
        (isList.store_of_free free cell) enough (store_same heap node cell)
        (isList.not_mem_of_free free)
      refine ⟨after, ?_, represented⟩
      simp only [step, LinkedOmap.call, added, Option.map_some, nodeCall]
  | delete addr pid =>
      obtain ⟨after, deleted, represented⟩ := trfsOmapDeleteOp_erases isList enough addr pid
      refine ⟨after, ?_, represented⟩
      simp only [step, LinkedOmap.call, deleted, Option.map_some, nodeCall]
  | getfd addr pid =>
      refine ⟨⟨heap, omap⟩, ?_, isList⟩
      simp only [step, LinkedOmap.call, trfsOmapGetfd_finds isList enough, Option.map_some,
        nodeCall]

end LinkedOmap

theorem length_nodeCall_le (nodes : List (Ptr × OmapNode)) (call : OmapCall Ptr) :
    (nodeCall nodes call).1.length ≤ nodes.length + 1 := by
  cases call with
  | add node cell => simp [nodeCall]
  | delete addr pid => exact Nat.le_succ_of_le List.eraseP_sublist.length_le
  | getfd addr pid => exact Nat.le_succ _

theorem LinkedOmap.observe_isList [DecidableEq Ptr] {fuel : Nat} {heap : Heap Ptr OmapNode}
    {omap : Option Ptr} {nodes : List (Ptr × OmapNode)} (isList : IsList heap omap nodes)
    {calls : List (OmapCall Ptr)} (enough : nodes.length + calls.length ≤ fuel)
    (fresh : Along (fun state call => (step fuel state call).1) Fresh (some ⟨heap, omap⟩) calls) :
    ∃ after, observe (step fuel) (some ⟨heap, omap⟩) calls =
        (some after, (observe nodeCall nodes calls).2) ∧
      IsList after.heap after.omap (observe nodeCall nodes calls).1 := by
  induction calls generalizing heap omap nodes with
  | nil => exact ⟨⟨heap, omap⟩, rfl, isList⟩
  | cons call calls inductionHypothesis =>
      rw [List.length_cons] at enough
      have room : nodes.length < fuel := by omega
      have grown := length_nodeCall_le nodes call
      obtain ⟨next, stepped, represented⟩ := step_simulates isList room fresh.1
      have later := fresh.2
      simp only [stepped] at later
      obtain ⟨after, shown, final⟩ := inductionHypothesis represented (by omega) later
      refine ⟨after, ?_, final⟩
      simp only [observe, stepped, shown]

theorem nodeCall_values (nodes : List (Ptr × OmapNode)) (call : OmapCall Ptr) :
    (nodeCall nodes call).2 = (omapCall (nodes.map Prod.snd) call).2 ∧
      (nodeCall nodes call).1.map Prod.snd = (omapCall (nodes.map Prod.snd) call).1 := by
  cases call with
  | add node cell => simp [nodeCall, omapCall, trfsOmapAddOp]
  | delete addr pid =>
      refine ⟨rfl, ?_⟩
      rw [nodeCall, omapCall, trfsOmapDeleteOp, List.eraseP_map]
      rfl
  | getfd addr pid =>
      refine ⟨?_, rfl⟩
      rw [nodeCall, omapCall, trfsOmapGetfd, List.find?_map, Option.map_map]
      rfl

/-- Without their pointers the nodes are the list that the replayer's handlers work on. -/
theorem observe_omapCall (calls : List (OmapCall Ptr)) :
    (observe nodeCall [] calls).2 = (observe omapCall [] calls).2 ∧
      (observe nodeCall [] calls).1.map Prod.snd = (observe omapCall [] calls).1 := by
  let Values (nodes : List (Ptr × OmapNode)) (omap : List OmapNode) : Prop :=
    nodes.map Prod.snd = omap
  have empty : Values [] [] := rfl
  refine observe_simulates Values (fun _ => True) ?_ empty fun _ _ => trivial
  rintro nodes _ call - rfl
  exact nodeCall_values nodes call

/-- Every sequence of calls with fresh nodes, from the empty list, runs to its end.  It leaves a
list without repeated nodes, and the calls do to it and return what they do on a list of nodes. -/
theorem linkedOmap_refines_list [DecidableEq Ptr] (heap : Heap Ptr OmapNode)
    (calls : List (OmapCall Ptr)) (fuel : Nat) (enough : calls.length ≤ fuel)
    (fresh : Along (fun state call => (LinkedOmap.step fuel state call).1) LinkedOmap.Fresh
      (some ⟨heap, none⟩) calls) :
    ∃ after, observe (LinkedOmap.step fuel) (some ⟨heap, none⟩) calls =
        (some after, (observe nodeCall [] calls).2) ∧
      IsList after.heap after.omap (observe nodeCall [] calls).1 := by
  have empty : IsList heap none [] := ⟨rfl, List.nodup_nil⟩
  apply LinkedOmap.observe_isList empty _ fresh
  rw [List.length_nil, Nat.zero_add]
  exact enough

/-- The last node is deleted, and its memory is used again for a node with the first one's key. -/
theorem linkedOmap_refines_list_reused :
    ∃ after, observe (LinkedOmap.step 5) (some ⟨fun _ => none, none⟩)
        [.add 16 ⟨⟨3, 1, 7⟩, none⟩, .add 32 ⟨⟨4, 2, 7⟩, some 16⟩, .delete 2 7,
          .add 32 ⟨⟨5, 1, 7⟩, none⟩, .getfd 1 7] =
        (some after, [none, none, none, none, some 3]) ∧
      IsList after.heap after.omap [((16 : Nat), ⟨3, 1, 7⟩), (32, ⟨5, 1, 7⟩)] :=
  linkedOmap_refines_list (fun _ => none)
    [.add 16 ⟨⟨3, 1, 7⟩, none⟩, .add 32 ⟨⟨4, 2, 7⟩, some 16⟩, .delete 2 7,
      .add 32 ⟨⟨5, 1, 7⟩, none⟩, .getfd 1 7]
    5 (by decide) ⟨rfl, rfl, trivial, rfl, trivial, trivial⟩

end Tracefs
