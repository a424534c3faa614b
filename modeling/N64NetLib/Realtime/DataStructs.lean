import N64NetLib.Lib.Separation

/-! # The linked lists of the examples

`listNode` and `linkedList` in the memory of the N64. A list is a number, a pointer to the first node and
one to the last; a node has a pointer to its data and one to the next node. What is at a pointer may be a
node or an object that a node points to.

`seg l q` owns the nodes of `l`, each given by its address and its data, the last of which points to `q`.
For each of the functions there is a triple that says what it does to the nodes that it owns, and so it
touches no others, frees none twice and forgets none. -/

namespace N64NetLib.Realtime.DataStructs

open N64NetLib.Lib.Separation

/-! ### The functions -/

/-- What is allocated: a `listNode`, or an object. -/
inductive Cell (δ : Type)
  | node (data next : Ptr)
  | object (d : δ)

/-- `linkedList`. -/
structure LinkedList where
  size : ℤ
  head : Ptr
  tail : Ptr
deriving DecidableEq

/-- `EMPTY_LINKEDLIST`. -/
def emptyLinkedList : LinkedList := ⟨0, none, none⟩

section Functions

variable {δ : Type} (A : Allocator (Cell δ))

/-- The `data` and the `next` of a node. -/
def readNode (node : Ptr) : Prog (Cell δ) (Ptr × Ptr) := do
  match ← load node with
  | .node data next => pure (data, next)
  | .object _ => fail .invalid

/-- The object at a pointer. -/
def readObject (p : Ptr) : Prog (Cell δ) δ := do
  match ← load p with
  | .object d => pure d
  | .node _ _ => fail .invalid

/-- `node->next = next`. -/
def writeNext (node next : Ptr) : Prog (Cell δ) Unit := do
  let (data, _) ← readNode node
  store node (.node data next)

/-- `list_append`: the node, and the list. -/
def listAppend (list : LinkedList) (data : Ptr) : Prog (Cell δ) (Ptr × LinkedList) := do
  let node ← alloc A (.node none none)
  store (some node) (.node data none)
  if list.head = none then
    pure (some node, ⟨list.size + 1, some node, some node⟩)
  else do
    writeNext list.tail (some node)
    pure (some node, ⟨list.size + 1, list.head, some node⟩)

/-- `list_combine`: the list `dest`. -/
def listCombine (dest list : LinkedList) : Prog (Cell δ) LinkedList :=
  if dest.head ≠ none then do
    writeNext dest.tail list.head
    pure ⟨dest.size + list.size, dest.head, list.tail⟩
  else
    pure ⟨dest.size + list.size, list.head, list.tail⟩

/-- Taking a node out of `list_remove`'s list. -/
def unlink (list : LinkedList) (lastnode thisnode next : Ptr) : Prog (Cell δ) LinkedList :=
  if thisnode = list.head then
    pure ⟨list.size - 1, next, if thisnode = list.tail then none else list.tail⟩
  else if thisnode = list.tail then do
    writeNext lastnode none
    pure ⟨list.size - 1, list.head, lastnode⟩
  else do
    writeNext lastnode next
    pure ⟨list.size - 1, list.head, list.tail⟩

/-- The loop of `list_remove`. -/
def removeLoop (list : LinkedList) (data : Ptr) : ℕ → Ptr → Ptr → Prog (Cell δ) (Ptr × LinkedList)
  | 0, _, _ => fail .outOfFuel
  | fuel + 1, lastnode, thisnode =>
    if thisnode = none then pure (none, list)
    else do
      let node ← readNode thisnode
      if node.1 = data then do
        let list ← unlink list lastnode thisnode node.2
        pure (thisnode, list)
      else removeLoop list data fuel thisnode node.2

/-- `list_remove`: the node, and the list. -/
def listRemove (fuel : ℕ) (list : LinkedList) (data : Ptr) : Prog (Cell δ) (Ptr × LinkedList) :=
  removeLoop list data fuel none list.head

/-- The loop of `list_destroy` and of `list_destroy_deep`. -/
def destroyLoop (deep : Bool) : ℕ → Ptr → Prog (Cell δ) LinkedList
  | 0, _ => fail .outOfFuel
  | fuel + 1, curnode =>
    if curnode = none then pure emptyLinkedList
    else do
      let node ← readNode curnode
      if deep then free node.1
      free curnode
      destroyLoop deep fuel node.2

/-- `list_destroy`. -/
def listDestroy (fuel : ℕ) (list : LinkedList) : Prog (Cell δ) LinkedList := destroyLoop false fuel list.head

/-- `list_destroy_deep`. -/
def listDestroyDeep (fuel : ℕ) (list : LinkedList) : Prog (Cell δ) LinkedList :=
  destroyLoop true fuel list.head

end Functions

/-! ### What a list is -/

section Nodes

variable {δ : Type}

/-- A pointer to the first of some nodes, and to `q` if there are none. -/
def first : List (ℕ × Ptr) → Ptr → Ptr
  | [], q => q
  | (a, _) :: _, _ => some a

/-- A pointer to the last node, null if there are none. -/
def last (l : List (ℕ × Ptr)) : Ptr := l.getLast?.map Prod.fst

/-- The nodes of a list, the last of which points to `q`. -/
def seg : List (ℕ × Ptr) → Ptr → Assertion (Cell δ)
  | [], _ => 1
  | (a, d) :: l, q => cell a (.node d (first l q)) * seg l q

/-- The list has these nodes. -/
structure Represents (list : LinkedList) (l : List (ℕ × Ptr)) : Prop where
  size : list.size = l.length
  head : list.head = first l none
  tail : list.tail = last l

theorem represents_empty : Represents emptyLinkedList [] := ⟨rfl, rfl, rfl⟩

@[simp] theorem first_nil (q : Ptr) : first [] q = q := rfl
@[simp] theorem first_cons (n : ℕ × Ptr) (l : List (ℕ × Ptr)) (q : Ptr) : first (n :: l) q = some n.1 := rfl

theorem first_append (l l' : List (ℕ × Ptr)) (q : Ptr) : first (l ++ l') q = first l (first l' q) := by
  cases l <;> rfl

theorem first_eq_none {l : List (ℕ × Ptr)} : first l none = none ↔ l = [] := by
  cases l <;> simp [first]

@[simp] theorem last_nil : last [] = none := rfl

@[simp] theorem last_concat (l : List (ℕ × Ptr)) (n : ℕ × Ptr) : last (l ++ [n]) = some n.1 := by
  simp [last]

theorem last_append_cons (l l' : List (ℕ × Ptr)) (n : ℕ × Ptr) : last (l ++ n :: l') = last (n :: l') := by
  simp [last, List.getLast?_cons]

@[simp] theorem seg_nil (q : Ptr) : (seg [] q : Assertion (Cell δ)) = 1 := rfl

theorem seg_cons (n : ℕ × Ptr) (l : List (ℕ × Ptr)) (q : Ptr) :
    (seg (n :: l) q : Assertion (Cell δ)) = cell n.1 (.node n.2 (first l q)) * seg l q := rfl

theorem seg_append (l l' : List (ℕ × Ptr)) (q : Ptr) :
    (seg (l ++ l') q : Assertion (Cell δ)) = seg l (first l' q) * seg l' q := by
  induction l with
  | nil => rw [List.nil_append, seg_nil, one_mul]
  | cons n l ih => rw [List.cons_append, seg_cons, seg_cons, ih, first_append, mul_assoc]

theorem seg_concat (l : List (ℕ × Ptr)) (n : ℕ × Ptr) (q : Ptr) :
    (seg (l ++ [n]) q : Assertion (Cell δ)) = cell n.1 (.node n.2 q) * seg l (some n.1) := by
  rw [seg_append, seg_cons, seg_nil, mul_one, mul_comm]
  rfl

/-- An address that is not that of a node has nothing of the nodes. -/
theorem seg_none {l : List (ℕ × Ptr)} {q : Ptr} {h : Heap (Cell δ)} (hseg : seg l q h) {a : ℕ}
    (ha : a ∉ l.map Prod.fst) : h a = none := by
  induction l generalizing h with
  | nil => rw [seg_nil, empty_iff] at hseg; rw [hseg]
  | cons n l ih =>
    rw [List.map_cons, List.mem_cons, not_or] at ha
    rw [seg_cons, cell_star_iff] at hseg
    rw [← ih hseg.2 ha.2, Function.update_of_ne ha.1]

/-- At the address of a node there is something. -/
theorem seg_some {l : List (ℕ × Ptr)} {q : Ptr} {h : Heap (Cell δ)} (hseg : seg l q h) {n : ℕ × Ptr}
    (hn : n ∈ l) : h n.1 ≠ none := by
  obtain ⟨l1, l2, rfl⟩ := List.append_of_mem hn
  rw [seg_append, seg_cons, mul_left_comm, cell_star_iff] at hseg
  simp [hseg.1]

/-- **The nodes are at different addresses.** -/
theorem seg_nodup {l : List (ℕ × Ptr)} {q : Ptr} {h : Heap (Cell δ)} (hseg : seg l q h) :
    (l.map Prod.fst).Nodup := by
  induction l generalizing h with
  | nil => exact List.nodup_nil
  | cons n l ih =>
    rw [seg_cons] at hseg
    have hcell := cell_star_iff.mp hseg
    refine List.nodup_cons.mpr ⟨fun hmem => ?_, ih hcell.2⟩
    -- a node that is owned has its cell, and the one in front has it as well
    obtain ⟨n', hn', hfst⟩ := List.mem_map.mp hmem
    obtain ⟨l1, l2, rfl⟩ := List.append_of_mem hn'
    have hrest := hcell.2
    rw [seg_append, seg_cons, mul_left_comm, cell_star_iff, ← hfst, Function.update_self] at hrest
    simp at hrest

end Nodes

/-! ### What the functions do -/

section Triples

variable {δ β : Type} {R : Assertion (Cell δ)} {S : β → Assertion (Cell δ)}

theorem triple_readNode {a : ℕ} {d n : Ptr} {f : Ptr × Ptr → Prog (Cell δ) β}
    (hf : Triple (cell a (.node d n) * R) (f (d, n)) S) :
    Triple (cell a (.node d n) * R) (readNode (some a) >>= f) S := by
  rw [readNode, bind_assoc]
  exact triple_load hf

theorem triple_readObject {a : ℕ} {d : δ} {f : δ → Prog (Cell δ) β}
    (hf : Triple (cell a (.object d) * R) (f d) S) :
    Triple (cell a (.object d) * R) (readObject (some a) >>= f) S := by
  rw [readObject, bind_assoc]
  exact triple_load hf

theorem triple_writeNext {a : ℕ} {d n n' : Ptr} {f : Unit → Prog (Cell δ) β}
    (hf : Triple (cell a (.node d n') * R) (f ()) S) :
    Triple (cell a (.node d n) * R) (writeNext (some a) n' >>= f) S := by
  rw [writeNext, bind_assoc]
  exact triple_readNode (triple_store hf)

/-- **`list_append`** puts a node with the data behind the others. -/
theorem listAppend_spec (A : Allocator (Cell δ)) {list : LinkedList} {l : List (ℕ × Ptr)}
    (hl : Represents list l) (data : Ptr) :
    Triple (seg l none) (listAppend A list data) fun r => exist fun a =>
      fact (r.1 = some a ∧ Represents r.2 (l ++ [(a, data)])) (seg (l ++ [(a, data)]) none) := by
  rw [listAppend]
  refine triple_alloc fun a => triple_store ?_
  rcases List.eq_nil_or_concat' l with rfl | ⟨l', n, rfl⟩
  · rw [if_pos (show list.head = none from hl.head)]
    refine triple_pure fun h hh => ⟨a, ⟨rfl, ?_, rfl, rfl⟩, ?_⟩
    · simp [hl.size]
    · rwa [List.nil_append, seg_cons]
  · have htail : list.tail = some n.1 := hl.tail.trans (last_concat l' n)
    have hhead : list.head ≠ none := by
      rw [hl.head, Ne, first_eq_none]
      simp
    rw [if_neg hhead, htail, seg_concat, mul_left_comm]
    refine triple_writeNext (triple_pure fun h hh => ⟨a, ⟨rfl, ?_, ?_, ?_⟩, ?_⟩)
    · simp [hl.size]
      omega
    · rw [hl.head, first_append, first_append, first_append]
      rfl
    · rw [last_concat]
    · rw [seg_concat, seg_concat, mul_left_comm]
      exact hh

/-- **`list_combine`** puts the nodes of a list that has some behind the others. -/
theorem listCombine_spec {dest list : LinkedList} {l l' : List (ℕ × Ptr)} (hl : Represents dest l)
    (hl' : Represents list l') (hne : l' ≠ []) :
    Triple (seg l none * seg l' none : Assertion (Cell δ)) (listCombine dest list) fun r =>
      fact (Represents r (l ++ l')) (seg (l ++ l') none) := by
  rw [listCombine]
  have hlast : last (l ++ l') = last l' := by
    obtain ⟨n, k, rfl⟩ := List.exists_cons_of_ne_nil hne
    exact last_append_cons l k n
  rcases List.eq_nil_or_concat' l with rfl | ⟨k, n, rfl⟩
  · have hhead : ¬ dest.head ≠ none := not_not.mpr hl.head
    rw [if_neg hhead, seg_nil, one_mul]
    refine triple_pure fun h hh => ⟨⟨?_, hl'.head, hl'.tail⟩, hh⟩
    simp [hl.size, hl'.size]
  · have htail : dest.tail = some n.1 := hl.tail.trans (last_concat k n)
    have hhead : dest.head ≠ none := by
      rw [hl.head, Ne, first_eq_none]
      simp
    rw [if_pos hhead, htail, seg_concat, mul_assoc]
    refine triple_writeNext (triple_pure fun h hh => ⟨⟨?_, ?_, ?_⟩, ?_⟩)
    · simp [hl.size, hl'.size]
      omega
    · rw [hl.head, first_append, first_append, first_append]
      rfl
    · rw [hlast]
      exact hl'.tail
    · rw [seg_append, seg_concat, mul_assoc, ← hl'.head]
      exact hh

/-- The nodes without one that is taken out. -/
theorem unlink_spec {list : LinkedList} {l l' : List (ℕ × Ptr)} {a : ℕ} {d : Ptr}
    (hl : Represents list (l ++ (a, d) :: l')) :
    Triple (seg (l ++ (a, d) :: l') none : Assertion (Cell δ)) (unlink list (last l) (some a) (first l' none))
      fun list' => fact (Represents list' (l ++ l'))
        (cell a (.node d (first l' none)) * seg (l ++ l') none) := by
  refine triple_given (fun h => seg_nodup) fun hnodup => ?_
  have hsize : list.size - 1 = (l ++ l').length := by
    have := hl.size
    simp at this ⊢
    omega
  have hseg : (seg (l ++ (a, d) :: l') none : Assertion (Cell δ)) =
      cell a (.node d (first l' none)) * (seg l (some a) * seg l' none) := by
    rw [seg_append, seg_cons, mul_left_comm]
    rfl
  rw [List.map_append, List.map_cons, List.nodup_append] at hnodup
  obtain ⟨-, hnodup', hapart⟩ := hnodup
  rw [unlink, hseg]
  rcases List.eq_nil_or_concat' l with rfl | ⟨k, n, rfl⟩
  · -- the first node
    have htail : (if some a = list.tail then none else list.tail) = last l' := by
      rw [hl.tail]
      rcases List.eq_nil_or_concat' l' with rfl | ⟨k', n', rfl⟩
      · exact if_pos rfl
      · have hne : a ≠ n'.1 := fun h => (List.nodup_cons.mp hnodup').1 (by simp [h])
        have hlast : last ([] ++ (a, d) :: (k' ++ [n'])) = some n'.1 := last_concat ((a, d) :: k') n'
        rw [hlast, last_concat, if_neg (by simpa using hne)]
    have hhead : some a = list.head := hl.head.symm
    rw [if_pos hhead, seg_nil, one_mul]
    exact triple_pure fun h hh => ⟨⟨hsize, rfl, htail⟩, hh⟩
  · -- a node behind another one, whose pointer goes on to what is behind both
    have hhead : some a ≠ list.head := by
      rw [hl.head, first_append]
      obtain ⟨m, k', hk⟩ := List.exists_cons_of_ne_nil (show k ++ [n] ≠ [] by simp)
      have hm : m.1 ∈ (k ++ [n]).map Prod.fst := by simp [hk]
      rw [hk, first_cons]
      exact fun h => hapart _ hm _ List.mem_cons_self (Option.some.inj h).symm
    have hfirst : list.head = first (k ++ [n] ++ l') none := by
      rw [hl.head, first_append, first_append, first_append, first_append]
      rfl
    have hwrite : ∀ p (r : LinkedList), p = first l' none → Represents r (k ++ [n] ++ l') →
        Triple (cell a (.node d (first l' none)) * (seg (k ++ [n]) (some a) * seg l' none))
          (writeNext (last (k ++ [n])) p >>= fun _ => pure r : Prog (Cell δ) LinkedList)
          fun list' => fact (Represents list' (k ++ [n] ++ l'))
            (cell a (.node d (first l' none)) * seg (k ++ [n] ++ l') none) := by
      rintro p r rfl hr
      rw [last_concat, seg_concat, mul_assoc, mul_left_comm]
      refine triple_writeNext (triple_pure fun h hh => ⟨hr, ?_⟩)
      rw [seg_append, seg_concat, mul_assoc, mul_left_comm]
      exact hh
    rw [if_neg hhead]
    by_cases htail : some a = list.tail
    · have hnil : l' = [] := by
        rcases List.eq_nil_or_concat' l' with hl' | ⟨k', n', rfl⟩
        · exact hl'
        · have hne : a ≠ n'.1 := fun h => (List.nodup_cons.mp hnodup').1 (by simp [h])
          rw [hl.tail, ← List.cons_append, ← List.append_assoc, last_concat] at htail
          exact absurd (Option.some.inj htail) hne
      subst hnil
      rw [if_pos htail]
      exact hwrite none _ rfl ⟨hsize, hfirst, by rw [List.append_nil]⟩
    · have hlast : list.tail = last (k ++ [n] ++ l') := by
        cases l' with
        | nil => exact absurd (by rw [hl.tail, last_concat]) htail
        | cons n' l' => rw [hl.tail, last_append_cons, last_append_cons, ← last_append_cons [(a, d)]]; rfl
      rw [if_neg htail]
      exact hwrite _ _ rfl ⟨hsize, hfirst, hlast⟩

/-- The loop, behind some nodes with other data. -/
theorem removeLoop_spec {list : LinkedList} {a : ℕ} {d : Ptr} {l' : List (ℕ × Ptr)} :
    ∀ {l mid : List (ℕ × Ptr)} {fuel : ℕ}, Represents list (l ++ mid ++ (a, d) :: l') →
      (∀ n ∈ mid, n.2 ≠ d) → mid.length < fuel →
      Triple (seg (l ++ mid ++ (a, d) :: l') none : Assertion (Cell δ))
        (removeLoop list d fuel (last l) (first (mid ++ (a, d) :: l') none)) fun r =>
          fact (r.1 = some a ∧ Represents r.2 (l ++ mid ++ l'))
            (cell a (.node d (first l' none)) * seg (l ++ mid ++ l') none)
  | _, _, 0, _, _, hfuel => by omega
  | l, [], fuel + 1, hl, hmid, hfuel => by
    rw [List.append_nil] at hl ⊢
    have hseg : (seg (l ++ (a, d) :: l') none : Assertion (Cell δ)) =
        cell a (.node d (first l' none)) * (seg l (some a) * seg l' none) := by
      rw [seg_append, seg_cons, mul_left_comm]
      rfl
    rw [removeLoop, if_neg (by simp), hseg]
    refine triple_readNode ?_
    rw [if_pos rfl, ← hseg]
    refine (unlink_spec hl).bind fun list' => ?_
    exact triple_fact fun hrep => triple_pure fun h hh => ⟨⟨rfl, hrep⟩, hh⟩
  | l, n :: mid, fuel + 1, hl, hmid, hfuel => by
    have hsplit : l ++ n :: mid = l ++ [n] ++ mid := by simp
    have hseg : (seg (l ++ n :: mid ++ (a, d) :: l') none : Assertion (Cell δ)) =
        cell n.1 (.node n.2 (first (mid ++ (a, d) :: l') none)) *
          (seg l (some n.1) * seg (mid ++ (a, d) :: l') none) := by
      rw [List.append_assoc, List.cons_append, seg_append, seg_cons, mul_left_comm]
      rfl
    rw [removeLoop, if_neg (by simp), hseg]
    refine triple_readNode ?_
    rw [if_neg (hmid n List.mem_cons_self), ← hseg, hsplit]
    rw [hsplit] at hl
    have hnext : Triple (seg (l ++ [n] ++ mid ++ (a, d) :: l') none : Assertion (Cell δ)) _ _ :=
      removeLoop_spec hl (fun m hm => hmid m (List.mem_cons_of_mem _ hm))
        (show mid.length < fuel by simpa using hfuel)
    rwa [last_concat] at hnext

/-- **`list_remove`** takes out the first node with the data. -/
theorem listRemove_spec {list : LinkedList} {l l' : List (ℕ × Ptr)} {a : ℕ} {d : Ptr} {fuel : ℕ}
    (hl : Represents list (l ++ (a, d) :: l')) (hd : ∀ n ∈ l, n.2 ≠ d) (hfuel : l.length < fuel) :
    Triple (seg (l ++ (a, d) :: l') none : Assertion (Cell δ)) (listRemove fuel list d) fun r =>
      fact (r.1 = some a ∧ Represents r.2 (l ++ l'))
        (cell a (.node d (first l' none)) * seg (l ++ l') none) := by
  rw [listRemove, hl.head]
  exact removeLoop_spec (l := []) hl hd hfuel

/-- `list_remove` of data that no node has. -/
theorem removeLoop_absent {list : LinkedList} {d : Ptr} {p : Ptr} : ∀ {l l' : List (ℕ × Ptr)} {fuel : ℕ},
    (∀ n ∈ l', n.2 ≠ d) → l'.length < fuel →
      Triple (seg (l ++ l') none : Assertion (Cell δ)) (removeLoop list d fuel p (first l' none)) fun r =>
        fact (r = (none, list)) (seg (l ++ l') none)
  | _, _, 0, _, hfuel => by omega
  | l, [], fuel + 1, _, _ => triple_pure fun h hh => ⟨rfl, hh⟩
  | l, n :: l', fuel + 1, hd, hfuel => by
    have hsplit : l ++ n :: l' = l ++ [n] ++ l' := by simp
    have hseg : (seg (l ++ n :: l') none : Assertion (Cell δ)) =
        cell n.1 (.node n.2 (first l' none)) * (seg l (some n.1) * seg l' none) := by
      rw [seg_append, seg_cons, mul_left_comm]
      rfl
    rw [removeLoop, if_neg (by simp), hseg]
    refine triple_readNode ?_
    rw [if_neg (hd n List.mem_cons_self), ← hseg, hsplit]
    exact removeLoop_absent (fun m hm => hd m (List.mem_cons_of_mem _ hm))
      (show l'.length < fuel by simpa using hfuel)

/-- **`list_destroy`** frees the nodes. -/
theorem listDestroy_spec {list : LinkedList} {l : List (ℕ × Ptr)} {fuel : ℕ} (hl : Represents list l)
    (hfuel : l.length < fuel) :
    Triple (seg l none : Assertion (Cell δ)) (listDestroy fuel list) fun r => fact (r = emptyLinkedList) 1 := by
  rw [listDestroy, hl.head]
  clear hl
  induction l generalizing fuel with
  | nil =>
    obtain ⟨fuel, rfl⟩ := Nat.exists_eq_succ_of_ne_zero (show fuel ≠ 0 by omega)
    exact triple_pure fun h hh => ⟨rfl, hh⟩
  | cons n l ih =>
    obtain ⟨fuel, rfl⟩ := Nat.exists_eq_succ_of_ne_zero (show fuel ≠ 0 by omega)
    rw [List.length_cons] at hfuel
    rw [Nat.succ_eq_add_one, destroyLoop, if_neg (by simp), seg_cons]
    exact triple_readNode (triple_free (ih (by omega)))

end Triples

/-! ### Lists of objects -/

/-- A node of a list, and the object that it points to. -/
structure Entry (δ : Type) where
  node : ℕ
  data : ℕ
  obj : δ

section Entries

variable {δ β : Type} {R : Assertion (Cell δ)} {S : β → Assertion (Cell δ)}

/-- The nodes. -/
def nodes (es : List (Entry δ)) : List (ℕ × Ptr) := es.map fun e => (e.node, some e.data)

/-- The objects. -/
def objects (es : List (Entry δ)) : Assertion (Cell δ) := (es.map fun e => cell e.data (.object e.obj)).prod

/-- The nodes and the objects. -/
def owned (es : List (Entry δ)) : Assertion (Cell δ) := seg (nodes es) none * objects es

@[simp] theorem nodes_nil : nodes ([] : List (Entry δ)) = [] := rfl

theorem nodes_cons (e : Entry δ) (es : List (Entry δ)) : nodes (e :: es) = (e.node, some e.data) :: nodes es := rfl

theorem nodes_append (es es' : List (Entry δ)) : nodes (es ++ es') = nodes es ++ nodes es' := List.map_append

@[simp] theorem length_nodes (es : List (Entry δ)) : (nodes es).length = es.length := List.length_map _

theorem objects_cons (e : Entry δ) (es : List (Entry δ)) :
    objects (e :: es) = cell e.data (.object e.obj) * objects es := by
  rw [objects, List.map_cons, List.prod_cons]
  rfl

theorem objects_append (es es' : List (Entry δ)) : objects (es ++ es') = objects es * objects es' := by
  rw [objects, List.map_append, List.prod_append]
  rfl

@[simp] theorem owned_nil : (owned [] : Assertion (Cell δ)) = 1 := mul_one 1

/-- One entry of a list, with its place in the chain. -/
theorem owned_split (es es' : List (Entry δ)) (e : Entry δ) :
    owned (es ++ e :: es') = cell e.node (.node (some e.data) (first (nodes es') none)) *
      (cell e.data (.object e.obj) *
        (seg (nodes es) (some e.node) * seg (nodes es') none * (objects es * objects es'))) := by
  rw [owned, nodes_append, nodes_cons, seg_append, seg_cons, objects_append, objects_cons]
  simp only [first_cons]
  ac_rfl

/-- Reading a node of a list. -/
theorem triple_readEntry (es : List (Entry δ)) {es' : List (Entry δ)} {e : Entry δ} {f : Ptr × Ptr → Prog (Cell δ) β}
    (hf : Triple (owned (es ++ e :: es')) (f (some e.data, first (nodes es') none)) S) :
    Triple (owned (es ++ e :: es')) (readNode (some e.node) >>= f) S := by
  rw [owned_split] at hf ⊢
  exact triple_readNode hf

/-- Reading the object of an entry. -/
theorem triple_readEntryObject (es : List (Entry δ)) {es' : List (Entry δ)} {e : Entry δ} {f : δ → Prog (Cell δ) β}
    (hf : Triple (owned (es ++ e :: es')) (f e.obj) S) :
    Triple (owned (es ++ e :: es')) (readObject (some e.data) >>= f) S := by
  rw [owned_split, mul_left_comm] at hf ⊢
  exact triple_readObject hf

/-- An object is in one place of a list only. -/
theorem data_ne {es es' : List (Entry δ)} {e : Entry δ} {h : Heap (Cell δ)}
    (hobj : objects (es ++ e :: es') h) : ∀ n ∈ nodes es, n.2 ≠ some e.data := by
  have hnodup := cells_nodup hobj
  rw [List.map_append, List.map_cons, List.nodup_append] at hnodup
  intro n hn
  obtain ⟨e', he', rfl⟩ := List.mem_map.mp hn
  exact fun hdata => hnodup.2.2 _ (List.mem_map_of_mem he') _ List.mem_cons_self (Option.some.inj hdata)

/-- One object more. -/
theorem owned_concat (es : List (Entry δ)) (e : Entry δ) :
    owned (es ++ [e]) = seg (nodes es ++ [(e.node, some e.data)]) none *
      (cell e.data (.object e.obj) * objects es) := by
  rw [owned, nodes_append, objects_append, objects_cons]
  show _ * (objects es * (_ * 1)) = _
  rw [mul_one, mul_comm (objects es)]
  rfl

/-- `list_append` of an object. -/
theorem listAppend_owned (A : Allocator (Cell δ)) {list : LinkedList} {es : List (Entry δ)}
    (hl : Represents list (nodes es)) (data : ℕ) (obj : δ) :
    Triple (cell data (.object obj) * owned es) (listAppend A list (some data)) fun r => exist fun a =>
      fact (Represents r.2 (nodes (es ++ [⟨a, data, obj⟩]))) (owned (es ++ [⟨a, data, obj⟩])) := by
  have happ := (listAppend_spec A hl (some data)).frame (cell data (.object obj) * objects es)
  have hpre : cell data (.object obj) * owned es =
      seg (nodes es) none * (cell data (.object obj) * objects es) := mul_left_comm ..
  rw [hpre]
  refine happ.weaken fun r h hh => ?_
  rw [exist_star] at hh
  obtain ⟨a, hh⟩ := hh
  rw [fact_star] at hh
  obtain ⟨⟨-, hrep⟩, hh⟩ := hh
  exact ⟨a, by rwa [nodes_append], by rwa [owned_concat]⟩

/-- `list_combine` with a list that has objects. -/
theorem listCombine_owned {dest list : LinkedList} {es es' : List (Entry δ)} (hl : Represents dest (nodes es))
    (hl' : Represents list (nodes es')) (hne : es' ≠ []) :
    Triple (owned es * owned es') (listCombine dest list) fun r =>
      fact (Represents r (nodes (es ++ es'))) (owned (es ++ es')) := by
  have hne' : nodes es' ≠ [] := by simpa [nodes] using hne
  have hcombine := (listCombine_spec hl hl' hne').frame (objects es * objects es')
  have hpre : owned es * owned es' = seg (nodes es) none * seg (nodes es') none * (objects es * objects es') :=
    mul_mul_mul_comm ..
  rw [hpre]
  refine hcombine.weaken fun r h hh => ?_
  rw [fact_star] at hh
  rw [owned, nodes_append, objects_append]
  exact hh

/-- `free(list_remove(list, data)); free(data);`. -/
def removeFree (fuel : ℕ) (list : LinkedList) (data : Ptr) : Prog (Cell δ) LinkedList := do
  let r ← listRemove fuel list data
  free r.1
  free data
  pure r.2

/-- **Taking out an object** frees it and its node. -/
theorem removeFree_owned {list : LinkedList} (es : List (Entry δ)) {es' : List (Entry δ)} {e : Entry δ} {fuel : ℕ}
    (hl : Represents list (nodes (es ++ e :: es'))) (hfuel : es.length < fuel) :
    Triple (owned (es ++ e :: es')) (removeFree fuel list (some e.data)) fun r =>
      fact (Represents r (nodes (es ++ es'))) (owned (es ++ es')) := by
  have hne : ∀ h, owned (es ++ e :: es') h → ∀ n ∈ nodes es, n.2 ≠ some e.data := by
    rintro h ⟨-, h2, -, -, -, hobj⟩
    exact data_ne hobj
  refine triple_given hne fun hdata => ?_
  rw [nodes_append, nodes_cons] at hl
  have hremove := (@listRemove_spec δ _ _ _ _ _ _ hl hdata (by simpa using hfuel)).frame (objects (es ++ e :: es'))
  rw [owned, nodes_append, nodes_cons, removeFree]
  refine hremove.bind fun r => ?_
  rw [fact_star]
  refine triple_fact fun hr => ?_
  rw [hr.1, mul_assoc]
  refine triple_free ?_
  rw [objects_append, objects_cons, mul_left_comm (objects es), mul_left_comm]
  refine triple_free (triple_pure fun h hh => ⟨?_, ?_⟩)
  · rw [nodes_append]
    exact hr.2
  · rwa [owned, nodes_append, objects_append]

/-- Taking out nothing. -/
theorem removeFree_null {list : LinkedList} {es : List (Entry δ)} {fuel : ℕ} (hl : Represents list (nodes es))
    (hfuel : es.length < fuel) :
    Triple (owned es) (removeFree fuel list none) fun r => fact (r = list) (owned es) := by
  have hnull : ∀ n ∈ nodes es, n.2 ≠ none := by
    intro n hn
    obtain ⟨e, -, rfl⟩ := List.mem_map.mp hn
    simp
  have hremove : Triple (seg (nodes es) none : Assertion (Cell δ)) (listRemove fuel list none) fun r =>
      fact (r = (none, list)) (seg (nodes es) none) := by
    rw [listRemove, hl.head]
    exact removeLoop_absent (l := []) hnull (by simpa using hfuel)
  refine (hremove.frame (objects es)).bind fun r => ?_
  rw [fact_star]
  refine triple_fact fun hr => ?_
  rw [hr]
  exact triple_pure fun h hh => ⟨rfl, hh⟩

/-- Nothing of a list is at an address that is not one of its own. -/
theorem owned_none {es : List (Entry δ)} {h : Heap (Cell δ)} (hes : owned es h) {a : ℕ}
    (hnode : a ∉ es.map Entry.node) (hdata : a ∉ es.map Entry.data) : h a = none := by
  obtain ⟨h1, h2, -, rfl, hseg, hobj⟩ := hes
  rw [join_eq_none]
  refine ⟨seg_none hseg (by simpa [nodes] using hnode), ?_⟩
  clear hseg hnode
  induction es generalizing h2 with
  | nil => rw [show h2 = fun _ => none from hobj]
  | cons e es ih =>
    rw [List.map_cons, List.mem_cons, not_or] at hdata
    rw [objects_cons, cell_star_iff] at hobj
    rw [← ih hdata.2 _ hobj.2, Function.update_of_ne hdata.1]

/-- The node of an entry is not at an address of the others. -/
theorem node_apart {es es' : List (Entry δ)} {e : Entry δ} {h : Heap (Cell δ)} (hes : owned (es ++ e :: es') h) :
    e.node ∉ (es ++ es').map Entry.node ∧ e.node ∉ (es ++ es').map Entry.data := by
  obtain ⟨h1, h2, hap, -, hseg, hobj⟩ := hes
  refine ⟨?_, fun hmem => ?_⟩
  · have hnodup := seg_nodup hseg
    rw [nodes, List.map_map] at hnodup
    have hperm := (@List.perm_middle _ e es es').map Entry.node
    exact (List.nodup_cons.mp (hperm.nodup_iff.mp hnodup)).1
  · obtain ⟨e', he', hdata⟩ := List.mem_map.mp hmem
    have hmem' : e' ∈ es ++ e :: es' := by
      rw [List.mem_append] at he' ⊢
      exact he'.imp_right (List.mem_cons_of_mem e)
    have hnode : h1 e.node ≠ none := by
      refine seg_some (n := (e.node, some e.data)) hseg ?_
      rw [nodes_append, nodes_cons]
      simp
    have hobj' : h2 e'.data ≠ none := by
      obtain ⟨l1, l2, hl⟩ := List.append_of_mem hmem'
      rw [hl, objects_append, objects_cons, mul_left_comm, cell_star_iff] at hobj
      simp [hobj.1]
    rcases hap e.node with hno | hno
    · exact hnode hno
    · exact hobj' (hdata ▸ hno)

theorem frugal_readNode (node : Ptr) : Frugal (readNode node : Prog (Cell δ) (Ptr × Ptr)) := by
  refine (frugal_load node).bind fun c => ?_
  cases c with
  | node data next => exact frugal_pure _
  | object d => exact frugal_fail (by decide)

theorem frugal_writeNext (node next : Ptr) : Frugal (writeNext node next : Prog (Cell δ) Unit) :=
  (frugal_readNode node).bind fun _ => frugal_store _ _

theorem frugal_unlink (list : LinkedList) (lastnode thisnode next : Ptr) :
    Frugal (unlink list lastnode thisnode next : Prog (Cell δ) LinkedList) := by
  unfold unlink
  split_ifs
  · exact frugal_pure _
  · exact frugal_pure _
  · exact (frugal_writeNext _ _).bind fun _ => frugal_pure _
  · exact (frugal_writeNext _ _).bind fun _ => frugal_pure _

theorem frugal_removeLoop (list : LinkedList) (data : Ptr) : ∀ (fuel : ℕ) (lastnode thisnode : Ptr),
    Frugal (removeLoop list data fuel lastnode thisnode : Prog (Cell δ) (Ptr × LinkedList))
  | 0, _, _ => frugal_fail (by decide)
  | fuel + 1, lastnode, thisnode => by
    rw [removeLoop]
    split_ifs
    · exact frugal_pure _
    · refine (frugal_readNode _).bind fun node => ?_
      split_ifs
      · exact (frugal_unlink _ _ _ _).bind fun _ => frugal_pure _
      · exact frugal_removeLoop list data fuel thisnode node.2

/-- Taking out an object takes no memory. -/
theorem frugal_removeFree (fuel : ℕ) (list : LinkedList) (data : Ptr) :
    Frugal (removeFree fuel list data : Prog (Cell δ) LinkedList) :=
  (frugal_removeLoop list data fuel none list.head).bind fun _ =>
    (frugal_free _).bind fun _ => (frugal_free _).bind fun _ => frugal_pure _

/-- **`list_destroy_deep`** frees the nodes and the objects. -/
theorem listDestroyDeep_owned {list : LinkedList} {es : List (Entry δ)} {fuel : ℕ}
    (hl : Represents list (nodes es)) (hfuel : es.length < fuel) :
    Triple (owned es) (listDestroyDeep fuel list) fun r => fact (r = emptyLinkedList) 1 := by
  rw [listDestroyDeep, hl.head]
  clear hl
  induction es generalizing fuel with
  | nil =>
    obtain ⟨fuel, rfl⟩ := Nat.exists_eq_succ_of_ne_zero (show fuel ≠ 0 by omega)
    exact triple_pure fun h hh => ⟨rfl, by rwa [owned_nil] at hh⟩
  | cons e es ih =>
    obtain ⟨fuel, rfl⟩ := Nat.exists_eq_succ_of_ne_zero (show fuel ≠ 0 by omega)
    rw [List.length_cons] at hfuel
    have hpre : owned (e :: es) = cell e.node (.node (some e.data) (first (nodes es) none)) *
        (cell e.data (.object e.obj) * owned es) := by
      rw [owned, nodes_cons, seg_cons, objects_cons, mul_assoc, mul_left_comm (seg _ _)]
      rfl
    rw [Nat.succ_eq_add_one, nodes_cons, destroyLoop, if_neg (by simp), hpre]
    refine triple_readNode ?_
    rw [mul_left_comm]
    exact triple_free (triple_free (ih (by omega)))

end Entries

end N64NetLib.Realtime.DataStructs
