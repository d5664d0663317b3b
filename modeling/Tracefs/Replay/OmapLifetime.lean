import Tracefs.Replay.Omap

/-!
# The life of the list of open files

`trfs_rpd_init` starts with an empty list, the handlers add nodes to it and delete them, and
`trfs_rpd_exit` destroys what is left.  A node is freed by exactly one of the two, and nothing else
in memory is written: at the end the heap is what it was at the start.
-/

namespace Tracefs

open LinkedList Loop Transition

variable {Ptr : Type} [DecidableEq Ptr]

/-- The loop of `trfs_omap_destroy_list`, which reads the link of a node before it frees it. -/
def destroyTurn : Heap Ptr OmapNode × Option Ptr →
    Turn (Heap Ptr OmapNode × Option Ptr) (Heap Ptr OmapNode)
  | (heap, none) => .stops heap
  | (heap, some temp) =>
      match heap temp with
      | none => .stuck
      | some cell => .turns (release heap temp, cell.next)

/-- The global `omap` keeps pointing to the first node. -/
def LinkedOmap.trfsOmapDestroyList (fuel : Nat) (state : LinkedOmap Ptr) :
    Option (LinkedOmap Ptr) :=
  (runLoop destroyTurn fuel (state.heap, state.omap)).map fun heap => ⟨heap, state.omap⟩

namespace LinkedOmap

/-- Everything outside the list is as in the heap `before`, where the nodes of the list were not
allocated. -/
structure Session (before : Heap Ptr OmapNode) (state : LinkedOmap Ptr)
    (nodes : List (Ptr × OmapNode)) : Prop where
  isList : IsList state.heap state.omap nodes
  outside : ∀ ptr, ptr ∉ nodes.map Prod.fst → state.heap ptr = before ptr
  fresh : ∀ node ∈ nodes, before node.1 = none

variable {before heap : Heap Ptr OmapNode} {omap : Option Ptr} {nodes : List (Ptr × OmapNode)}
  {fuel : Nat}

namespace Session

theorem add (session : Session before ⟨heap, omap⟩ nodes) (enough : nodes.length < fuel)
    {node : Ptr} (free : heap node = none) (cell : Cell Ptr OmapNode) :
    ∃ after, trfsOmapAddOp fuel ⟨store heap node cell, omap⟩ node = some after ∧
      Session before after (nodes ++ [(node, cell.value)]) := by
  have unlisted := session.isList.not_mem_of_free free
  have isList := session.isList.store_of_free free cell
  have allocated := store_same heap node cell
  obtain ⟨after, added, represented, outside⟩ :=
    trfsOmapAddOp_appends isList enough allocated unlisted
  refine ⟨after, added, represented, fun ptr other => ?_, fun listed member => ?_⟩
  · rw [List.map_append, List.mem_append, not_or, List.map_singleton, List.mem_singleton] at other
    rw [outside ptr other.1 other.2, store_of_ne _ _ other.2]
    exact session.outside ptr other.1
  · rcases List.mem_append.mp member with earlier | new
    · exact session.fresh listed earlier
    · rw [List.mem_singleton.mp new, ← session.outside node unlisted]
      exact free

/-- One node has been freed and only listed nodes have been written. -/
theorem of_freed {rest : List (Ptr × OmapNode)} {node : Ptr × OmapNode}
    (first : List (Ptr × OmapNode))
    (session : Session before ⟨heap, omap⟩ (first ++ node :: rest)) {after : LinkedOmap Ptr}
    (isList : IsList after.heap after.omap (first ++ rest)) (freed : after.heap node.1 = none)
    (written : ∀ ptr, ptr ∉ (first ++ node :: rest).map Prod.fst → after.heap ptr = heap ptr) :
    Session before after (first ++ rest) := by
  refine ⟨isList, fun ptr other => ?_, fun listed member => session.fresh listed ?_⟩
  · by_cases same : ptr = node.1
    · rw [same, freed, session.fresh node (by simp)]
    · have unlisted : ptr ∉ (first ++ node :: rest).map Prod.fst := by
        simp only [List.map_append, List.map_cons, List.mem_append, List.mem_cons] at other ⊢
        rintro (earlier | here | later)
        · exact other (.inl earlier)
        · exact same here
        · exact other (.inr later)
      rw [written ptr unlisted]
      exact session.outside ptr unlisted
  · rcases List.mem_append.mp member with earlier | later
    · exact List.mem_append_left _ earlier
    · exact List.mem_append_right _ (List.mem_cons_of_mem _ later)

/-- Deleting frees the node that leaves the list, and writes at most the one before it. -/
theorem delete (session : Session before ⟨heap, omap⟩ nodes) (enough : nodes.length < fuel)
    (addr : Nat) (pid : Int) :
    ∃ after, trfsOmapDeleteOp fuel ⟨heap, omap⟩ addr pid = some after ∧
      Session before after (nodes.eraseP fun node => node.2.hasKey addr pid) := by
  obtain ⟨after, deleted, represented⟩ := trfsOmapDeleteOp_erases session.isList enough addr pid
  refine ⟨after, deleted, ?_⟩
  rcases hasKey_cases addr pid nodes with absent | ⟨first, node, rest, rfl, key, others⟩
  · rw [trfsOmapDeleteOp_of_absent session.isList enough absent] at deleted
    cases deleted
    rw [List.eraseP_of_forall_not (by simpa using absent)]
    exact session
  have erased : (first ++ node :: rest).eraseP (fun node => node.2.hasKey addr pid) =
      first ++ rest := by
    rw [List.eraseP_append_right _ (by simpa using others)]
    simp [key]
  rw [erased] at represented ⊢
  obtain ⟨here, next, cell, _⟩ := session.isList.split
  rcases List.eq_nil_or_concat' first with rfl | ⟨first, prev, rfl⟩
  · obtain rfl : omap = some node.1 := here
    cases (trfsOmapDeleteOp_of_head cell key).symm.trans deleted
    refine of_freed [] session represented (Function.update_self ..) fun ptr unlisted => ?_
    exact release_of_ne _ fun same => unlisted (by simp [same])
  · have isList := session.isList
    rw [List.append_assoc] at isList enough
    cases (trfsOmapDeleteOp_of_later isList enough key others cell).symm.trans deleted
    refine of_freed (first ++ [prev]) session represented (Function.update_self ..)
      fun ptr unlisted => ?_
    have notNode : ptr ≠ node.1 := fun same => unlisted (by simp [same])
    have notPrev : ptr ≠ prev.1 := fun same => unlisted (by simp [same])
    exact (release_of_ne _ notNode).trans (store_of_ne _ _ notPrev)

theorem step (session : Session before ⟨heap, omap⟩ nodes) (enough : nodes.length < fuel)
    {call : OmapCall Ptr} (fresh : Fresh (some ⟨heap, omap⟩) call) :
    ∃ after, (LinkedOmap.step fuel (some ⟨heap, omap⟩) call).1 = some after ∧
      Session before after (nodeCall nodes call).1 := by
  cases call with
  | add node cell =>
      obtain ⟨after, added, next⟩ := session.add enough fresh cell
      refine ⟨after, ?_, next⟩
      simp only [LinkedOmap.step, LinkedOmap.call, added, Option.map_some]
  | delete addr pid =>
      obtain ⟨after, deleted, next⟩ := session.delete enough addr pid
      refine ⟨after, ?_, next⟩
      simp only [LinkedOmap.step, LinkedOmap.call, deleted, Option.map_some]
  | getfd addr pid =>
      refine ⟨⟨heap, omap⟩, ?_, session⟩
      simp only [LinkedOmap.step, LinkedOmap.call, trfsOmapGetfd_finds session.isList enough,
        Option.map_some]

/-- The induction over the calls.  The list grows by at most one node with each. -/
theorem run (session : Session before ⟨heap, omap⟩ nodes) {calls : List (OmapCall Ptr)}
    (enough : nodes.length + calls.length ≤ fuel)
    (fresh : Along (fun state call => (LinkedOmap.step fuel state call).1) Fresh
      (some ⟨heap, omap⟩) calls) :
    ∃ after final, Transition.run (fun state call => (LinkedOmap.step fuel state call).1)
        (some ⟨heap, omap⟩) calls = some after ∧
      Session before after final ∧ final.length ≤ nodes.length + calls.length := by
  induction calls generalizing heap omap nodes with
  | nil => exact ⟨⟨heap, omap⟩, nodes, rfl, session, le_rfl⟩
  | cons call calls inductionHypothesis =>
      rw [List.length_cons] at enough
      have grown := length_nodeCall_le nodes call
      obtain ⟨next, stepped, session⟩ := session.step (Nat.lt_of_lt_of_le (by omega) enough) fresh.1
      have later := fresh.2
      simp only [stepped] at later
      obtain ⟨after, final, ended, last, short⟩ := inductionHypothesis session (by omega) later
      refine ⟨after, final, ?_, last, ?_⟩
      · simp only [run_cons, stepped]
        exact ended
      · rw [List.length_cons]
        omega

/-- What is left of the list is freed, node by node. -/
theorem destroy (session : Session before ⟨heap, omap⟩ nodes) (enough : nodes.length < fuel) :
    runLoop destroyTurn fuel (heap, omap) = some before := by
  induction nodes generalizing heap omap fuel with
  | nil =>
      obtain ⟨fuel, rfl⟩ := Nat.exists_eq_succ_of_ne_zero (Nat.ne_zero_of_lt enough)
      obtain rfl : omap = none := session.isList.segment
      have same : heap = before := funext fun ptr => session.outside ptr (by simp)
      rw [← same]
      exact runLoop_of_stops rfl fuel
  | cons node nodes inductionHypothesis =>
      obtain ⟨fuel, rfl⟩ := Nat.exists_eq_succ_of_ne_zero (Nat.ne_zero_of_lt enough)
      obtain ⟨rfl, next, cell, _⟩ := session.isList.segment
      have follows : Follows destroyTurn (heap, some node.1) (release heap node.1, next) := by
        have cell : heap node.1 = some ⟨node.2, next⟩ := cell
        simp only [Follows, destroyTurn, cell]
      rw [runLoop_of_follows follows]
      refine inductionHypothesis (of_freed [] session (session.isList.release_head cell)
        (Function.update_self ..) fun ptr unlisted => ?_) (Nat.lt_of_succ_lt_succ enough)
      exact release_of_ne _ fun same => unlisted (by simp [same])

end Session

end LinkedOmap

/-- Whatever the replay adds to the list of open files and deletes from it, destroying the list
then runs to its end and leaves the heap as it was before the replay: every node has been freed
exactly once, and no other memory has been written. -/
theorem omap_session_restores_heap (heap : Heap Ptr OmapNode) {calls : List (OmapCall Ptr)}
    {fuel : Nat} (enough : calls.length < fuel)
    (fresh : Along (fun state call => (LinkedOmap.step fuel state call).1) LinkedOmap.Fresh
      (some ⟨heap, none⟩) calls) :
    ∃ after, run (fun state call => (LinkedOmap.step fuel state call).1) (some ⟨heap, none⟩) calls =
        some after ∧
      after.trfsOmapDestroyList fuel = some ⟨heap, after.omap⟩ := by
  have session : LinkedOmap.Session heap ⟨heap, none⟩ [] :=
    ⟨⟨rfl, List.nodup_nil⟩, fun _ _ => rfl, fun _ member => (by cases member)⟩
  have room : ([] : List (Ptr × OmapNode)).length + calls.length ≤ fuel := by
    rw [List.length_nil, Nat.zero_add]
    exact enough.le
  obtain ⟨⟨final, omap⟩, nodes, ended, session, short⟩ := session.run room fresh
  refine ⟨⟨final, omap⟩, ended, ?_⟩
  rw [List.length_nil, Nat.zero_add] at short
  rw [LinkedOmap.trfsOmapDestroyList, session.destroy (short.trans_lt enough)]
  rfl

/-- Two files are opened beside other memory in use, the first is closed, and a third one takes
over its node. -/
theorem omap_session_restores_heap_reused :
    ∃ after, run (fun state call => (LinkedOmap.step 5 state call).1)
        (some ⟨fun ptr => if ptr = 8 then some ⟨⟨9, 9, 9⟩, none⟩ else none, none⟩)
        [.add 16 ⟨⟨3, 1, 7⟩, none⟩, .add 32 ⟨⟨4, 2, 7⟩, none⟩, .delete 1 7,
          .add 16 ⟨⟨5, 3, 7⟩, none⟩] = some after ∧
      after.trfsOmapDestroyList 5 =
        some ⟨fun ptr => if ptr = (8 : Nat) then some ⟨⟨9, 9, 9⟩, none⟩ else none, after.omap⟩ :=
  omap_session_restores_heap _ (by decide) ⟨rfl, rfl, trivial, rfl, trivial⟩

end Tracefs
