namespace TokenMesh

/-!
# The event queue

Events in the order of their times, and at one time in the order in which they were scheduled.
The queue is a leftist heap: a tree whose every node comes before all that hang below it, and
whose right spine is never longer than its left one, so that two heaps merge along short spines.

* `Scheduled`: an event, its time, and its number among all events ever scheduled;
* `Heap.merge`: all events of two heaps as one;
* `EventQueue.push`, `EventQueue.peek?`, `EventQueue.pop?`: the queue.
-/

/-- An event with its time.  The number breaks ties: a lower one was scheduled earlier. -/
structure Scheduled (ε : Type) where
  time : Nat
  seq : Nat
  event : ε
deriving DecidableEq, Repr

namespace Scheduled

variable {ε : Type}

/-- Which of two events has the higher priority.  The earlier one has, so that a queue that hands
    out the greatest first hands out the earliest. -/
def priority (a b : Scheduled ε) : Ordering :=
  (compare b.time a.time).then (compare b.seq a.seq)

/-- Whether an event may be handled before another: its time is less, or equal and its number is
    not greater. -/
def isBefore (a b : Scheduled ε) : Bool :=
  decide (a.time < b.time) || (a.time == b.time && decide (a.seq ≤ b.seq))

theorem isBefore_iff {a b : Scheduled ε} :
    a.isBefore b = true ↔ a.time < b.time ∨ (a.time = b.time ∧ a.seq ≤ b.seq) := by
  simp [isBefore]

theorem time_le_of_isBefore {a b : Scheduled ε} (h : a.isBefore b = true) : a.time ≤ b.time := by
  rw [isBefore_iff] at h; omega

/-- Of two events one may be handled before the other. -/
theorem isBefore_of_not {a b : Scheduled ε} (h : ¬ a.isBefore b = true) : b.isBefore a = true := by
  rw [isBefore_iff] at *; omega

theorem isBefore_trans {a b c : Scheduled ε} (h : a.isBefore b = true)
    (h' : b.isBefore c = true) : a.isBefore c = true := by
  rw [isBefore_iff] at *; omega

end Scheduled

/-- A tree of scheduled events.  The rank of a node is the length of its right spine. -/
inductive Heap (ε : Type)
  | empty
  | node (rank : Nat) (top : Scheduled ε) (left right : Heap ε)
deriving DecidableEq, Repr

namespace Heap

variable {ε : Type}

/-- The length of the right spine. -/
def rank : Heap ε → Nat
  | empty => 0
  | node r _ _ _ => r

/-- A node above two heaps, the one with the longer spine to the left. -/
def join (top : Scheduled ε) (a b : Heap ε) : Heap ε :=
  if b.rank ≤ a.rank then node (b.rank + 1) top a b else node (a.rank + 1) top b a

/-- The merge of a heap `self`, whose top is `top` and whose left part is `left`, with another
    one.  `mergeRight` merges a heap with the right part of `self`. -/
def mergeNode (top : Scheduled ε) (left self : Heap ε) (mergeRight : Heap ε → Heap ε) :
    Heap ε → Heap ε
  | empty => self
  | node r top' left' right' =>
    if top.isBefore top' then join top left (mergeRight (node r top' left' right'))
    else join top' left' (mergeNode top left self mergeRight right')

/-- All events of two heaps as one heap. -/
def merge : Heap ε → Heap ε → Heap ε
  | empty => fun b => b
  | node r top left right => mergeNode top left (node r top left right) (merge right)

/-- All events of a heap, in no particular order. -/
def toList : Heap ε → List (Scheduled ε)
  | empty => []
  | node _ top left right => top :: (left.toList ++ right.toList)

/-- Every node may be handled before all that hang below it. -/
def Ordered : Heap ε → Prop
  | empty => True
  | node _ top left right =>
    (∀ e ∈ left.toList ++ right.toList, top.isBefore e = true) ∧ left.Ordered ∧ right.Ordered

@[simp] theorem merge_empty_left (b : Heap ε) : merge empty b = b := rfl

@[simp] theorem merge_empty_right (a : Heap ε) : merge a empty = a := by
  cases a <;> rfl

theorem merge_node_node (r s : Nat) (x y : Scheduled ε) (a b c d : Heap ε) :
    merge (node r x a b) (node s y c d) =
      if x.isBefore y then join x a (merge b (node s y c d))
      else join y c (merge (node r x a b) d) := rfl

theorem toList_join (x : Scheduled ε) (a b : Heap ε) :
    (join x a b).toList.Perm (x :: (a.toList ++ b.toList)) := by
  unfold join
  split
  · exact .refl _
  · exact .cons _ List.perm_append_comm

/-- A merge keeps all events. -/
theorem toList_merge (a b : Heap ε) : (merge a b).toList.Perm (a.toList ++ b.toList) := by
  induction a generalizing b with
  | empty => exact .refl _
  | node r x l t _ iht =>
    induction b with
    | empty => rw [merge_empty_right, toList, List.append_nil]
    | node s y c d _ ihd =>
      rw [merge_node_node]
      split
      -- the top of the first heap stays on top
      · refine (toList_join ..).trans (.cons _ ?_)
        exact (List.Perm.append_left _ (iht _)).trans (.of_eq (List.append_assoc ..).symm)
      -- the top of the second one does, and is moved to its place
      · refine (toList_join ..).trans ?_
        refine (List.Perm.cons _ (.append_left _ ihd)).trans ?_
        refine (List.Perm.cons _ (List.perm_append_comm_assoc ..)).trans ?_
        exact List.perm_middle.symm

theorem mem_toList_merge {a b : Heap ε} {e : Scheduled ε} :
    e ∈ (merge a b).toList ↔ e ∈ a.toList ∨ e ∈ b.toList := by
  rw [(toList_merge a b).mem_iff, List.mem_append]

theorem ordered_join {x : Scheduled ε} {a b : Heap ε}
    (h : ∀ e ∈ a.toList ++ b.toList, x.isBefore e = true) (ha : a.Ordered) (hb : b.Ordered) :
    (join x a b).Ordered := by
  unfold join
  split
  · exact ⟨h, ha, hb⟩
  · exact ⟨fun e he => h e (List.perm_append_comm.mem_iff.1 he), hb, ha⟩

/-- A merge keeps the order. -/
theorem ordered_merge {a b : Heap ε} (ha : a.Ordered) (hb : b.Ordered) : (merge a b).Ordered := by
  induction a generalizing b with
  | empty => exact hb
  | node r x l t _ iht =>
    induction b with
    | empty => rw [merge_empty_right]; exact ha
    | node s y c d _ ihd =>
      rw [merge_node_node]
      split
      · next hxy =>
        refine ordered_join (fun e he => ?_) ha.2.1 (iht ha.2.2 hb)
        rw [List.mem_append, mem_toList_merge] at he
        -- an event below `x` comes from its left part, its right part, or the other heap
        rcases he with he | he | he
        · exact ha.1 e (List.mem_append.2 (.inl he))
        · exact ha.1 e (List.mem_append.2 (.inr he))
        · rcases List.mem_cons.1 he with rfl | he
          · exact hxy
          · exact Scheduled.isBefore_trans hxy (hb.1 e he)
      · next hxy =>
        have hyx := Scheduled.isBefore_of_not hxy
        refine ordered_join (fun e he => ?_) hb.2.1 (ihd hb.2.2)
        rw [List.mem_append, mem_toList_merge] at he
        -- an event below `y` comes from its left part, the other heap, or its right part
        rcases he with he | he | he
        · exact hb.1 e (List.mem_append.2 (.inl he))
        · rcases List.mem_cons.1 he with rfl | he
          · exact hyx
          · exact Scheduled.isBefore_trans hyx (ha.1 e he)
        · exact hb.1 e (List.mem_append.2 (.inr he))

/-- A heap of one event. -/
def singleton (e : Scheduled ε) : Heap ε := node 1 e empty empty

theorem ordered_singleton (e : Scheduled ε) : (singleton e).Ordered :=
  ⟨by simp [toList], trivial, trivial⟩

end Heap

/-- Scheduled events, the earliest at hand. -/
structure EventQueue (ε : Type) where
  heap : Heap ε
  ordered : heap.Ordered

namespace EventQueue

variable {ε : Type}

/-- A queue without events. -/
def empty : EventQueue ε := ⟨.empty, trivial⟩

/-- All events of a queue, in no particular order. -/
def toList (q : EventQueue ε) : List (Scheduled ε) := q.heap.toList

/-- How many events there are. -/
def size (q : EventQueue ε) : Nat := q.toList.length

/-- The queue with one more event. -/
def push (q : EventQueue ε) (e : Scheduled ε) : EventQueue ε :=
  ⟨q.heap.merge (.singleton e), Heap.ordered_merge q.ordered (Heap.ordered_singleton e)⟩

/-- The event that is handled next. -/
def peek? (q : EventQueue ε) : Option (Scheduled ε) :=
  match q.heap with
  | .empty => none
  | .node _ top _ _ => some top

/-- The event that is handled next, and the queue without it. -/
def pop? (q : EventQueue ε) : Option (Scheduled ε × EventQueue ε) :=
  match q with
  | ⟨.empty, _⟩ => none
  | ⟨.node _ top left right, h⟩ => some (top, ⟨left.merge right, Heap.ordered_merge h.2.1 h.2.2⟩)

@[simp] theorem toList_empty : (empty : EventQueue ε).toList = [] := rfl

/-- A push adds one event and keeps all others. -/
theorem toList_push (q : EventQueue ε) (e : Scheduled ε) :
    (q.push e).toList.Perm (e :: q.toList) :=
  (Heap.toList_merge ..).trans (List.perm_append_singleton e _)

theorem pop?_eq_none_iff {q : EventQueue ε} : q.pop? = none ↔ q.toList = [] := by
  obtain ⟨_ | _, _⟩ := q <;> simp [pop?, toList, Heap.toList]

/-- A pop takes one event and keeps all others. -/
theorem toList_of_pop? {q r : EventQueue ε} {e : Scheduled ε} (h : q.pop? = some (e, r)) :
    q.toList.Perm (e :: r.toList) := by
  obtain ⟨_ | ⟨k, top, left, right⟩, ho⟩ := q
  · cases h
  · simp only [pop?, Option.some.injEq, Prod.mk.injEq] at h
    obtain ⟨rfl, rfl⟩ := h
    exact .cons _ (Heap.toList_merge ..).symm

/-- A pop takes an event that may be handled before all others. -/
theorem isBefore_of_pop? {q r : EventQueue ε} {e : Scheduled ε} (h : q.pop? = some (e, r))
    {f : Scheduled ε} (hf : f ∈ r.toList) : e.isBefore f = true := by
  obtain ⟨_ | ⟨k, top, left, right⟩, ho⟩ := q
  · cases h
  · simp only [pop?, Option.some.injEq, Prod.mk.injEq] at h
    obtain ⟨rfl, rfl⟩ := h
    refine ho.1 f ?_
    rw [List.mem_append]
    exact Heap.mem_toList_merge.1 hf

/-- The event at hand is the one that a pop takes. -/
theorem peek?_eq (q : EventQueue ε) : q.peek? = q.pop?.map (·.1) := by
  obtain ⟨_ | _, _⟩ := q <;> rfl

end EventQueue

end TokenMesh
