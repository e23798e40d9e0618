import Mathlib.Data.List.Nodup
import Ucollect.Construction.Core.LinkList

/-
This file proves that a linked list is a sequence of nodes.
-/

namespace Ucollect.LinkList
open Library

variable {N : Type} [DecidableEq N] {list : State N} {front back nodes : List N} {node other : N}
  {after target : Option N}

/-- The list has the nodes in their order, and each node is there once. -/
structure Represents (list : State N) (nodes : List N) : Prop where
  distinct : nodes.Nodup
  head : list.head = nodes.head?
  tail : list.tail = nodes.getLast?
  chain : Chain list.links none nodes none
  count : list.count = nodes.length

section Links

@[simp] theorem setNext_links (next : Option N) :
    (list.setNext node next).links other =
      if other = node then ⟨next, (list.links node).prev⟩ else list.links other := by
  exact Function.update_apply ..

@[simp] theorem setPrev_links (prev : Option N) :
    (list.setPrev node prev).links other =
      if other = node then ⟨(list.links node).next, prev⟩ else list.links other := by
  exact Function.update_apply ..

@[simp] theorem setPrevOf_links (prev : Option N) :
    (list.setPrevOf target prev).links other =
      if some other = target then ⟨(list.links other).next, prev⟩ else list.links other := by
  cases target with
  | none => rfl
  | some target =>
    rw [State.setPrevOf, setPrev_links]
    by_cases same : other = target
    · rw [if_pos same, if_pos (congrArg some same), same]
    · rw [if_neg same, if_neg fun equal => same (Option.some.inj equal)]
@[simp] theorem setNext_head (next : Option N) : (list.setNext node next).head = list.head := rfl

@[simp] theorem setPrev_head (prev : Option N) : (list.setPrev node prev).head = list.head := rfl

@[simp] theorem setPrevOf_head (prev : Option N) : (list.setPrevOf target prev).head = list.head := by
  cases target <;> rfl

@[simp] theorem setNext_tail (next : Option N) : (list.setNext node next).tail = list.tail := rfl

@[simp] theorem setPrev_tail (prev : Option N) : (list.setPrev node prev).tail = list.tail := rfl

@[simp] theorem setPrevOf_tail (prev : Option N) : (list.setPrevOf target prev).tail = list.tail := by
  cases target <;> rfl

/-- This is the node behind which the list goes on. -/
def following (list : State N) (after : Option N) : Option N :=
  match after with
  | some after => (list.links after).next
  | none => list.head

theorem insertAfter_none_links : (list.insertAfter node none).links =
    (((list.setPrev node none).setPrevOf list.head (some node)).setNext node list.head).links := by
  simp only [State.insertAfter, setPrev_head, setPrevOf_head]
  split <;> rfl

theorem insertAfter_some_links (separate : node ≠ other) (loose : (list.links other).next ≠ some other) :
    (list.insertAfter node (some other)).links =
      ((((list.setPrev node (some other)).setPrevOf (list.links other).next (some node)).setNext node
        (list.links other).next).setNext other (some node)).links := by
  have kept : ((list.setPrev node (some other)).setPrevOf (list.links other).next (some node)).links other =
      list.links other := by
    rw [setPrevOf_links, if_neg loose.symm, setPrev_links, if_neg separate.symm]
  have read : (list.setPrev node (some other)).links other = list.links other := by
    rw [setPrev_links, if_neg separate.symm]
  simp only [State.insertAfter, read, kept]
  split <;> rfl

/-- An insertion changes the links of the node and of its two neighbours. -/
theorem insertAfter_links (fresh : after ≠ some node) (apart : following list after ≠ some node)
    (loose : ∀ previous, after = some previous → following list after ≠ some previous) :
    (list.insertAfter node after).links other =
      if other = node then ⟨following list after, after⟩
      else if some other = after then ⟨some node, (list.links other).prev⟩
      else if some other = following list after then ⟨(list.links other).next, some node⟩
      else list.links other := by
  cases after with
  | none =>
    rw [following] at apart
    rw [insertAfter_none_links, setNext_links, following, if_neg (Option.some_ne_none other)]
    by_cases same : other = node
    · rw [if_pos same, if_pos same, setPrevOf_links, if_neg apart.symm, setPrev_links, if_pos rfl]
    · rw [if_neg same, if_neg same, setPrevOf_links, setPrev_links, if_neg same]
  | some previous =>
    have separate : node ≠ previous := fun equal => fresh (congrArg some equal.symm)
    have ends := loose previous rfl
    rw [following] at apart ends
    rw [insertAfter_some_links separate ends, setNext_links, following]
    by_cases neighbour : other = previous
    · rw [if_pos neighbour, if_neg (neighbour ▸ separate.symm), if_pos (congrArg some neighbour),
        setNext_links, if_neg separate.symm, setPrevOf_links, if_neg ends.symm, setPrev_links,
        if_neg separate.symm, neighbour]
    · rw [if_neg neighbour, setNext_links,
        if_neg (show ¬ some other = some previous from fun equal => neighbour (Option.some.inj equal))]
      by_cases same : other = node
      · rw [if_pos same, if_pos same, setPrevOf_links, if_neg apart.symm, setPrev_links, if_pos rfl]
      · rw [if_neg same, if_neg same, setPrevOf_links, setPrev_links, if_neg same]

theorem insertAfter_head (after : Option N) : (list.insertAfter node after).head =
    if after = none then some node else list.head := by
  cases after with
  | none =>
    simp only [State.insertAfter]
    split <;> rfl
  | some previous =>
    simp only [State.insertAfter]
    split <;> simp

theorem insertAfter_tail (after : Option N) : (list.insertAfter node after).tail =
    if list.tail = after then some node else list.tail := by
  cases after with
  | none =>
    simp only [State.insertAfter, setNext_tail, setPrevOf_tail, setPrev_tail]
    split <;> simp
  | some previous =>
    simp only [State.insertAfter, setNext_tail, setPrevOf_tail, setPrev_tail]
    split <;> simp
@[simp] theorem setNext_count (next : Option N) : (list.setNext node next).count = list.count := rfl

@[simp] theorem setPrev_count (prev : Option N) : (list.setPrev node prev).count = list.count := rfl

@[simp] theorem setPrevOf_count (prev : Option N) : (list.setPrevOf target prev).count = list.count := by
  cases target <;> rfl

theorem insertAfter_count (after : Option N) : (list.insertAfter node after).count = list.count + 1 := by
  cases after with
  | none =>
    simp only [State.insertAfter]
    split <;> simp
  | some previous =>
    simp only [State.insertAfter]
    split <;> simp

end Links

section Inserting

omit [DecidableEq N] in
/-- The list goes on with the rest behind the first nodes. -/
theorem Represents.following_eq (represents : Represents list (front ++ back)) :
    following list front.getLast? = back.head? := by
  rcases List.eq_nil_or_concat front with rfl | ⟨init, last, rfl⟩
  · exact represents.head
  · have chain := represents.chain
    rw [List.concat_eq_append, List.append_assoc, chain_append] at chain
    rw [List.concat_eq_append, List.getLast?_concat]
    exact (congrArg Link.next chain.2.1).trans (Option.or_none)

/-- An insertion goes right behind the given node. -/
theorem Represents.insertAfter (represents : Represents list (front ++ back))
    (fresh : node ∉ front ++ back) :
    Represents (list.insertAfter node front.getLast?) (front ++ node :: back) := by
  have follows := represents.following_eq
  have distinct := represents.distinct
  have chain := represents.chain
  rw [List.nodup_append] at distinct
  rw [chain_append] at chain
  rw [List.mem_append, not_or] at fresh
  have unlike : front.getLast? ≠ some node := fun last => fresh.1 (List.mem_of_getLast? last)
  have apart : following list front.getLast? ≠ some node := by
    rw [follows]
    exact fun first => fresh.2 (List.mem_of_head? first)
  have loose : ∀ previous, front.getLast? = some previous →
      following list front.getLast? ≠ some previous := by
    intro previous last first
    rw [follows] at first
    exact distinct.2.2 _ (List.mem_of_getLast? last) _ (List.mem_of_head? first) rfl
  have first : ∀ other ∈ front, other ≠ node := fun other member same => fresh.1 (same ▸ member)
  have second : ∀ other ∈ back, other ≠ node := fun other member same => fresh.2 (same ▸ member)
  have links := fun other => @insertAfter_links N _ list node other front.getLast? unlike apart loose
  constructor
  case distinct =>
    rw [List.nodup_middle, List.nodup_cons, List.mem_append, not_or]
    exact ⟨fresh, represents.distinct⟩
  case head =>
    rw [insertAfter_head, represents.head]
    cases front with
    | nil => rfl
    | cons first rest => rw [if_neg (by simp)]; rfl
  case tail =>
    rw [insertAfter_tail, represents.tail, List.getLast?_append, List.getLast?_append,
      List.getLast?_cons]
    cases last : back.getLast? with
    | none => rw [Option.none_or, if_pos rfl]; rfl
    | some final =>
      have outside : final ∉ front := fun member =>
        distinct.2.2 _ member _ (List.mem_of_getLast? last) rfl
      rw [Option.some_or, if_neg fun same => outside (List.mem_of_getLast? same.symm)]
      rfl
  case chain =>
    simp only [chain_append, Chain, Option.or_none, List.head?_cons]
    refine ⟨?_, ?_, ?_⟩
    · apply chain.1.setAfter distinct.1
      · intro last final
        have member := List.mem_of_getLast? final
        rw [links, if_neg (first _ member), if_pos final.symm]
      · intro other member inner
        rw [links, if_neg (first _ member), if_neg inner, follows,
          if_neg fun start => distinct.2.2 _ member _ (List.mem_of_head? start.symm) rfl]
    · rw [links, if_pos rfl, follows]
    · apply chain.2.setBefore distinct.2.1
      · intro head start
        have member := List.mem_of_head? start
        rw [links, if_neg (second _ member),
          if_neg fun last => distinct.2.2 _ (List.mem_of_getLast? last.symm) _ member rfl, follows,
          if_pos start.symm]
      · intro other member inner
        rw [links, if_neg (second _ member),
          if_neg fun last => distinct.2.2 _ (List.mem_of_getLast? last.symm) _ member rfl, follows,
          if_neg inner]
  case count =>
    rw [insertAfter_count, represents.count, List.length_append, List.length_append, List.length_cons]
    omega

end Inserting

section Removing

/-- This is the first half of a removal. -/
def unlinkNext (list : State N) (node : N) : State N :=
  match (list.links node).next with
  | some next => list.setPrev next (list.links node).prev
  | none => { list with tail := (list.links node).prev }

theorem unlinkNext_links : (unlinkNext list node).links other =
    if some other = (list.links node).next then ⟨(list.links other).next, (list.links node).prev⟩
    else list.links other := by
  unfold unlinkNext
  cases (list.links node).next with
  | none => rfl
  | some next =>
    by_cases same : other = next
    · rw [if_pos (congrArg some same)]
      dsimp only
      rw [setPrev_links, if_pos same, same]
    · rw [if_neg fun equal => same (Option.some.inj equal)]
      dsimp only
      rw [setPrev_links, if_neg same]

/-- This is the second half of a removal. -/
def unlinkPrev (list : State N) (node : N) : State N :=
  match (list.links node).prev with
  | some prev => list.setNext prev (list.links node).next
  | none => { list with head := (list.links node).next }

theorem unlinkPrev_links : (unlinkPrev list node).links other =
    if some other = (list.links node).prev then ⟨(list.links node).next, (list.links other).prev⟩
    else list.links other := by
  unfold unlinkPrev
  cases (list.links node).prev with
  | none => rfl
  | some prev =>
    by_cases same : other = prev
    · rw [if_pos (congrArg some same)]
      dsimp only
      rw [setNext_links, if_pos same, same]
    · rw [if_neg fun equal => same (Option.some.inj equal)]
      dsimp only
      rw [setNext_links, if_neg same]

theorem remove_eq : list.remove node =
    let unlinked := unlinkPrev (unlinkNext list node) node
    { (unlinked.setNext node none).setPrev node none with count := unlinked.count - 1 } := rfl

/-- A removal changes the links of the node and of its two neighbours. -/
theorem remove_links (apart : (list.links node).next ≠ some node) : (list.remove node).links other =
    if other = node then ⟨none, none⟩
    else
      ⟨if some other = (list.links node).prev then (list.links node).next else (list.links other).next,
        if some other = (list.links node).next then (list.links node).prev
        else (list.links other).prev⟩ := by
  have kept : (unlinkNext list node).links node = list.links node := by
    rw [unlinkNext_links, if_neg apart.symm]
  rw [remove_eq]
  dsimp only
  rw [setPrev_links, setNext_links]
  by_cases same : other = node
  · rw [if_pos same, if_pos same, if_pos rfl]
  · rw [if_neg same, if_neg same, setNext_links, if_neg same, unlinkPrev_links, kept, unlinkNext_links]
    split <;> split <;> rfl

theorem remove_head (apart : (list.links node).next ≠ some node) : (list.remove node).head =
    if (list.links node).prev = none then (list.links node).next else list.head := by
  have kept : (unlinkNext list node).links node = list.links node := by
    rw [unlinkNext_links, if_neg apart.symm]
  have head : (unlinkNext list node).head = list.head := by
    unfold unlinkNext
    split <;> rfl
  change (unlinkPrev (unlinkNext list node) node).head = _
  unfold unlinkPrev
  rw [kept]
  cases (list.links node).prev with
  | none => rfl
  | some prev => exact head

theorem remove_tail : (list.remove node).tail =
    if (list.links node).next = none then (list.links node).prev else list.tail := by
  have tail : (unlinkPrev (unlinkNext list node) node).tail = (unlinkNext list node).tail := by
    unfold unlinkPrev
    split <;> rfl
  change (unlinkPrev (unlinkNext list node) node).tail = _
  rw [tail]
  unfold unlinkNext
  cases (list.links node).next with
  | none => rfl
  | some next => rfl

theorem remove_count : (list.remove node).count = list.count - 1 := by
  change (unlinkPrev (unlinkNext list node) node).count - 1 = _
  congr 1
  unfold unlinkPrev
  split
  all_goals
    unfold unlinkNext
    split <;> rfl

/-- A removal leaves the two sides joined. -/
theorem Represents.remove (represents : Represents list (front ++ node :: back)) :
    Represents (list.remove node) (front ++ back) := by
  have distinct := represents.distinct
  rw [List.nodup_middle, List.nodup_cons, List.mem_append, not_or, List.nodup_append] at distinct
  obtain ⟨outside, frontDistinct, backDistinct, across⟩ := distinct
  have chain := represents.chain
  simp only [chain_append, Chain, Option.or_none, List.head?_cons] at chain
  obtain ⟨frontChain, links, backChain⟩ := chain
  have first : ∀ other ∈ front, other ≠ node := fun other member same => outside.1 (same ▸ member)
  have second : ∀ other ∈ back, other ≠ node := fun other member same => outside.2 (same ▸ member)
  have apart : (list.links node).next ≠ some node := by
    rw [links]
    exact fun start => outside.2 (List.mem_of_head? start)
  have removed := fun other => @remove_links N _ list node other apart
  simp only [links] at removed
  constructor
  case distinct => exact List.nodup_append.mpr ⟨frontDistinct, backDistinct, across⟩
  case head =>
    rw [remove_head apart, links, represents.head]
    cases front with
    | nil => rfl
    | cons start rest => rw [if_neg (by simp)]; rfl
  case tail =>
    rw [remove_tail, links, represents.tail]
    cases back with
    | nil => simp
    | cons start rest => rw [if_neg (by simp)]; simp
  case chain =>
    rw [chain_append, Option.or_none, Option.or_none]
    constructor
    · apply frontChain.setAfter frontDistinct
      · intro last final
        have member := List.mem_of_getLast? final
        rw [removed, if_neg (first _ member), if_pos final.symm,
          if_neg fun start => across _ member _ (List.mem_of_head? start.symm) rfl]
      · intro other member inner
        rw [removed, if_neg (first _ member), if_neg inner,
          if_neg fun start => across _ member _ (List.mem_of_head? start.symm) rfl]
    · apply backChain.setBefore backDistinct
      · intro head start
        have member := List.mem_of_head? start
        rw [removed, if_neg (second _ member),
          if_neg fun last => across _ (List.mem_of_getLast? last.symm) _ member rfl, if_pos start.symm]
      · intro other member inner
        rw [removed, if_neg (second _ member),
          if_neg fun last => across _ (List.mem_of_getLast? last.symm) _ member rfl, if_neg inner]
  case count =>
    rw [remove_count, represents.count, List.length_append, List.length_append, List.length_cons]
    omega

end Removing

section Running

/-- An operation gets a node that is not in the list, or one that is. -/
def Operation.Valid (nodes : List N) : Operation N → Prop
  | .insertAfter node after => node ∉ nodes ∧ ∀ previous ∈ after, previous ∈ nodes
  | .appendPool new => new ∉ nodes
  | .remove node => node ∈ nodes

/-- The node comes directly behind the given one. -/
def insertBehind (node previous : N) : List N → List N
  | [] => []
  | first :: rest =>
    if first = previous then first :: node :: rest else first :: insertBehind node previous rest

/-- These are the operations on sequences. -/
def Operation.act (nodes : List N) : Operation N → List N
  | .insertAfter node none => node :: nodes
  | .insertAfter node (some previous) => insertBehind node previous nodes
  | .appendPool new => nodes ++ [new]
  | .remove node => nodes.erase node

/-- Each operation is valid where it is called. -/
def ValidRun : List N → List (Operation N) → Prop
  | _, [] => True
  | nodes, operation :: operations =>
    operation.Valid nodes ∧ ValidRun (operation.act nodes) operations

theorem insertBehind_append {previous : N} (outside : previous ∉ front) :
    insertBehind node previous (front ++ previous :: back) = front ++ previous :: node :: back := by
  induction front with
  | nil => exact if_pos rfl
  | cons first rest ih =>
    rw [List.mem_cons, not_or] at outside
    rw [List.cons_append, insertBehind, if_neg (Ne.symm outside.1), ih outside.2, List.cons_append]

omit [DecidableEq N] in
/-- The empty list represents no nodes. -/
theorem represents_empty (links : N → Link N) : Represents (State.empty links) ([] : List N) where
  distinct := List.nodup_nil
  head := rfl
  tail := rfl
  chain := trivial
  count := rfl

/-- An operation on the list is the operation on the sequence. -/
theorem Represents.step (represents : Represents list nodes) {operation : Operation N}
    (valid : operation.Valid nodes) : Represents (list.step operation) (operation.act nodes) := by
  cases operation with
  | insertAfter node after =>
    cases after with
    | none => exact @Represents.insertAfter N _ list [] nodes node represents valid.1
    | some previous =>
      obtain ⟨front, back, rfl⟩ := List.append_of_mem (valid.2 previous rfl)
      have outside : previous ∉ front := fun member =>
        (List.nodup_append.mp represents.distinct).2.2 _ member _ List.mem_cons_self rfl
      have inserted := @Represents.insertAfter N _ list (front ++ [previous]) back node
        (by rwa [List.append_assoc, List.singleton_append])
        (by rw [List.append_assoc, List.singleton_append]; exact valid.1)
      rw [List.getLast?_concat, List.append_assoc, List.singleton_append] at inserted
      rw [Operation.act, insertBehind_append outside]
      exact inserted
  | appendPool new =>
    have inserted := @Represents.insertAfter N _ list nodes [] new (by rwa [List.append_nil])
      (by rw [List.append_nil]; exact valid)
    rw [← represents.tail] at inserted
    exact inserted
  | remove node =>
    obtain ⟨front, back, rfl⟩ := List.append_of_mem valid
    have outside : node ∉ front := fun member =>
      (List.nodup_append.mp represents.distinct).2.2 _ member _ List.mem_cons_self rfl
    rw [Operation.act, List.erase_append_right _ outside, List.erase_cons_head]
    exact represents.remove

/-- A valid run does to the nodes what it does to the list. -/
theorem Represents.run (represents : Represents list nodes) {operations : List (Operation N)}
    (valid : ValidRun nodes operations) :
    Represents (list.run operations) (operations.foldl Operation.act nodes) := by
  induction operations generalizing list nodes with
  | nil => exact represents
  | cons operation operations ih => exact ih (represents.step valid.1) valid.2

omit [DecidableEq N] in
/-- The two links of neighbours are inverse. -/
theorem Represents.next_iff_prev (represents : Represents list nodes) (member : node ∈ nodes)
    (member' : other ∈ nodes) :
    (list.links node).next = some other ↔ (list.links other).prev = some node := by
  have chain := represents.chain
  constructor
  · intro next
    obtain ⟨front, back, rfl⟩ := List.append_of_mem member
    simp only [chain_append, Chain, Option.or_none] at chain
    rw [chain.2.1] at next
    cases back with
    | nil => cases next
    | cons start rest =>
      cases next
      exact congrArg Link.prev chain.2.2.1
  · intro prev
    obtain ⟨front, back, rfl⟩ := List.append_of_mem member'
    have last := ((chain_append _ _ _ _ _).mp chain).2.1
    rw [last, Option.or_none] at prev
    rcases List.eq_nil_or_concat front with rfl | ⟨init, previous, rfl⟩
    · cases prev
    · rw [List.concat_eq_append] at chain prev
      rw [List.getLast?_concat] at prev
      cases prev
      rw [List.append_assoc, chain_append] at chain
      exact congrArg Link.next chain.2.1

/-- A list that was built from the empty one is the sequence of the same operations, and a loop over
it visits the sequence. -/
theorem linkList_refines (links : N → Link N) {operations : List (Operation N)}
    (valid : ValidRun [] operations) :
    Represents ((State.empty links).run operations) (operations.foldl Operation.act []) ∧
      (∀ node ∈ operations.foldl Operation.act [], ∀ other ∈ operations.foldl Operation.act [],
        (((State.empty links).run operations).links node).next = some other ↔
          (((State.empty links).run operations).links other).prev = some node) ∧
      ∀ rounds, (operations.foldl Operation.act []).length ≤ rounds →
        ((State.empty links).run operations).lfor rounds = some (operations.foldl Operation.act []) := by
  have represents := (represents_empty links).run valid
  refine ⟨represents, fun node member other member' => represents.next_iff_prev member member', ?_⟩
  intro rounds enough
  rw [State.lfor, represents.head]
  exact walk_chain represents.chain enough

/-- The list goes through one, two, three and two nodes. -/
theorem linkList_refines_numbers :
    ((State.empty fun _ => ⟨none, none⟩).run
      [.appendPool 1, .insertAfter 2 none, .insertAfter 3 (some 2), .remove 2]).lfor 2 = some [3, 1] :=
  (@linkList_refines Nat _ (fun _ => ⟨none, none⟩)
    [.appendPool 1, .insertAfter 2 none, .insertAfter 3 (some 2), .remove 2]
    (by simp [ValidRun, Operation.Valid, Operation.act, insertBehind])).2.2 2 (by decide)

end Running

end Ucollect.LinkList
