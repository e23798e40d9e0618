import Mathlib.Tactic
import Ucollect.Construction.Master.Client

/-
This file proves that a callback gets only the answer to its own line.
-/

namespace Ucollect.Master
open Library List Option
open scoped List

/-- The line of the callback stands at this place of the connection. -/
structure SentAs (auth : Auth) (receiver : AuthReceiver) (index callback : Nat) : Prop where
  member : receiver ∈ auth.receivers
  sent : ∃ line, receiver.sent[index]? = some ⟨callback, line⟩ ∧ auth.lines[callback]? = some line

/-- The authenticator answered this line with the argument. -/
def Answered (receiver : AuthReceiver) (index : Nat) (argument : Bool) : Prop :=
  ∃ answer, receiver.answers[index]? = some answer ∧ argument = (answer == yes)

/-- The connection was lost before the answer to this line was received. -/
def Unanswered (receiver : AuthReceiver) (index : Nat) : Prop :=
  receiver.lost = true ∧ receiver.received ≤ index

/-- A callback is called once, and the answer is to its own line.
Without an answer the callback refuses. -/
structure Matched (auth : Auth) : Prop where
  once : (auth.invocations.map Invocation.callback).Nodup
  own : ∀ invocation ∈ auth.invocations, ∃ receiver index,
    SentAs auth receiver index invocation.callback ∧
      (Answered receiver index invocation.argument ∨
        invocation.argument = false ∧ Unanswered receiver index)

section Receivers

variable {receiver next : AuthReceiver}

/-- The waiting callbacks are those of the lines without a received answer. -/
structure InStep (receiver : AuthReceiver) : Prop where
  queue : receiver.queue = []
  pending : receiver.lost = false →
    receiver.pending = (receiver.sent.drop receiver.received).map Submission.callback
  answers : receiver.answers.length ≤ receiver.sent.length
  received : receiver.received ≤ receiver.answers.length

/-- These callbacks were called. -/
def finished (receiver : AuthReceiver) : List Nat :=
  (if receiver.lost then receiver.sent
    else receiver.sent.take receiver.received).map Submission.callback

/-- Nothing that was written is taken back. -/
structure Extends (receiver next : AuthReceiver) : Prop where
  sent : receiver.sent <+: next.sent
  answers : receiver.answers <+: next.answers
  lost : receiver.lost = true → next.lost = true ∧ next.received = receiver.received

theorem getElem?_of_prefix {A : Type} {first second : List A} {index : Nat} {item : A}
    ( is_prefix : first <+: second) (found : first[index]? = some item) :
    second[index]? = some item := by
  obtain ⟨rest, rfl⟩ := is_prefix
  obtain ⟨small, _⟩ := List.getElem?_eq_some_iff.mp found
  rw [List.getElem?_append_left small, found]

theorem Extends.answered (extended : Extends receiver next) {index : Nat} {argument : Bool}
    (answered : Answered receiver index argument) : Answered next index argument := by
  obtain ⟨answer, found, same⟩ := answered
  exact ⟨answer, getElem?_of_prefix extended.answers found, same⟩

theorem Extends.unanswered (extended : Extends receiver next) {index : Nat}
    (unanswered : Unanswered receiver index) : Unanswered next index := by
  obtain ⟨lost, received⟩ := extended.lost unanswered.1
  exact ⟨lost, received ▸ unanswered.2⟩

end Receivers

/-- Each line has one callback, and the called ones are exactly those that the connections are done
with. -/
structure Coherent (auth : Auth) : Prop where
  inStep : ∀ receiver ∈ auth.receivers, InStep receiver
  known : ∀ submission ∈ auth.queue ++ auth.receivers.flatMap AuthReceiver.sent,
    auth.lines[submission.callback]? = some submission.line
  distinct : ((auth.queue ++ auth.receivers.flatMap AuthReceiver.sent).map
    Submission.callback).Nodup
  called : (auth.invocations.map Invocation.callback).Perm (auth.receivers.flatMap finished)
  current : ∀ index, auth.receiver = some index →
    ∃ receiver, auth.receivers[index]? = some receiver ∧ receiver.lost = false
  own : ∀ invocation ∈ auth.invocations, ∃ receiver index,
    SentAs auth receiver index invocation.callback ∧
      (Answered receiver index invocation.argument ∨
        invocation.argument = false ∧ Unanswered receiver index)

theorem coherent_start : Coherent Auth.start where
  inStep _ member := absurd member not_mem_nil
  known _ member := absurd member not_mem_nil
  distinct := nodup_nil
  called := List.Perm.nil
  current _ impossible := by cases impossible
  own _ member := absurd member not_mem_nil

theorem Coherent.matched {auth : Auth} (coherent : Coherent auth) : Matched auth where
  once := by
    have sublist : (auth.receivers.flatMap finished).Sublist
        ((auth.receivers.flatMap AuthReceiver.sent).map Submission.callback) := by
      rw [map_flatMap]
      apply List.Sublist.flatMap_right
      intro receiver _
      rw [finished]
      split
      · exact List.Sublist.refl _
      · exact (take_sublist _ _).map _
    have distinct := coherent.distinct
    rw [map_append] at distinct
    exact coherent.called.nodup_iff.mpr ((Nodup.of_append_right distinct).sublist sublist)
  own := coherent.own

theorem split_at {A : Type} {items : List A} {index : Nat} {item : A}
    (found : items[index]? = some item) : ∃ before after,
      items = before ++ item :: after ∧ ∀ next, items.set index next = before ++ next :: after := by
  obtain ⟨small, rfl⟩ := List.getElem?_eq_some_iff.mp found
  refine ⟨items.take index, items.drop (index + 1), ?_, ?_⟩
  · rw [getElem_cons_drop, take_append_drop]
  · exact fun next => set_eq_take_cons_drop next small

/-- One connection goes on, and it may take a new line and call callbacks. -/
structure Progress (auth : Auth) (index : Nat) (receiver next : AuthReceiver)
    (news : List Submission) (calls : List Invocation) (result : Auth) : Prop where
  found : auth.receivers[index]? = some receiver
  receivers : result.receivers = auth.receivers.set index next
  queue : result.queue = auth.queue
  lines : result.lines = auth.lines ++ news.map Submission.line
  single : news.length ≤ 1
  fresh : ∀ submission ∈ news, submission.callback = auth.lines.length
  invocations : result.invocations = auth.invocations ++ calls
  inStep : InStep next
  answers : receiver.answers <+: next.answers
  lost : receiver.lost = true → next.lost = true ∧ next.received = receiver.received
  sent : next.sent = receiver.sent ++ news
  ends : (finished next).Perm (finished receiver ++ calls.map Invocation.callback)
  own : ∀ call ∈ calls, ∃ place line, next.sent[place]? = some ⟨call.callback, line⟩ ∧
    (Answered next place call.argument ∨ call.argument = false ∧ Unanswered next place)
  current : result.receiver = none ∨ result.receiver = auth.receiver ∧ next.lost = receiver.lost

section Progress

variable {auth result : Auth} {receiver next : AuthReceiver} {news : List Submission}
  {calls : List Invocation} {index : Nat}

theorem Coherent.small (coherent : Coherent auth) {submission : Submission}
    (member : submission ∈ auth.queue ++ auth.receivers.flatMap AuthReceiver.sent) :
    submission.callback < auth.lines.length :=
  (List.getElem?_eq_some_iff.mp (coherent.known submission member)).1

/-- The lines of a state with one more line are those of the old ones and the new one. -/
theorem known_append (coherent : Coherent auth) {lines : List Bytes} {submissions : List Submission}
    (line : lines = auth.lines ++ news.map Submission.line)
    (single : news.length ≤ 1) (fresh : ∀ submission ∈ news, submission.callback = auth.lines.length)
    (perm : submissions.Perm
      (auth.queue ++ auth.receivers.flatMap AuthReceiver.sent ++ news)) :
    (∀ submission ∈ submissions, lines[submission.callback]? = some submission.line) ∧
      (submissions.map Submission.callback).Nodup := by
  constructor
  · intro submission member
    rw [line]
    rcases mem_append.mp (perm.mem_iff.mp member) with old | new
    · rw [List.getElem?_append_left (coherent.small old)]
      exact coherent.known submission old
    · match news, single, new with
      | [only], _, new =>
        rw [mem_singleton.mp new, fresh only mem_cons_self, map_singleton,
          List.getElem?_concat_length]
  · rw [(perm.map _).nodup_iff, map_append, nodup_append]
    refine ⟨coherent.distinct, ?_, ?_⟩
    · match news, single with
      | [], _ => exact nodup_nil
      | [_], _ => exact nodup_singleton _
    · intro callback old other new same
      obtain ⟨submission, member, rfl⟩ := List.mem_map.mp old
      obtain ⟨added, addedMember, rfl⟩ := List.mem_map.mp new
      have below := coherent.small member
      rw [same, fresh added addedMember] at below
      exact lt_irrefl _ below

theorem Progress.extended (progress : Progress auth index receiver next news calls result) :
    Extends receiver next :=
  ⟨⟨news, progress.sent.symm⟩, progress.answers, progress.lost⟩

theorem Progress.coherent (progress : Progress auth index receiver next news calls result)
    (coherent : Coherent auth) : Coherent result := by
  obtain ⟨before, after, split, replaced⟩ := split_at progress.found
  have receivers : result.receivers = before ++ next :: after :=
    progress.receivers.trans (replaced next)
  have perm : (result.queue ++ result.receivers.flatMap AuthReceiver.sent).Perm
      (auth.queue ++ auth.receivers.flatMap AuthReceiver.sent ++ news) := by
    rw [progress.queue, receivers, split]
    simp only [flatMap_append, flatMap_cons, progress.sent, append_assoc]
    exact ((perm_append_comm.append_left _).append_left _).append_left _
  obtain ⟨known, distinct⟩ := known_append coherent progress.lines progress.single progress.fresh perm
  have kept : ∀ other ∈ auth.receivers, ∃ same ∈ result.receivers, Extends other same := by
    intro other member
    rw [split] at member
    rw [receivers]
    rcases mem_append.mp member with first | last
    · exact ⟨other, mem_append_left _ first, prefix_rfl, prefix_rfl,
        fun lost => ⟨lost, rfl⟩⟩
    · rcases mem_cons.mp last with here | last
      · exact ⟨next, mem_append_right _ mem_cons_self, here ▸ progress.extended⟩
      · exact ⟨other, mem_append_right _ (mem_cons_of_mem _ last), prefix_rfl,
          prefix_rfl, fun lost => ⟨lost, rfl⟩⟩
  have newest : next ∈ result.receivers := by
    rw [receivers]
    exact mem_append_right _ mem_cons_self
  refine ⟨?_, known, distinct, ?_, ?_, ?_⟩
  · intro other member
    rw [receivers] at member
    rcases mem_append.mp member with first | last
    · exact coherent.inStep other (split ▸ mem_append_left _ first)
    · rcases mem_cons.mp last with here | last
      · exact here ▸ progress.inStep
      · exact coherent.inStep other
          (split ▸ mem_append_right _ (mem_cons_of_mem _ last))
  · have called := coherent.called
    rw [split] at called
    rw [progress.invocations, receivers]
    simp only [map_append, flatMap_append, flatMap_cons] at called ⊢
    calc auth.invocations.map Invocation.callback ++ calls.map Invocation.callback
      _ ~ before.flatMap finished ++ (finished receiver ++ after.flatMap finished) ++
          calls.map Invocation.callback := called.append_right _
      _ ~ before.flatMap finished ++
          (finished receiver ++ calls.map Invocation.callback ++ after.flatMap finished) := by
        simp only [append_assoc]
        exact (perm_append_comm.append_left _).append_left _
      _ ~ before.flatMap finished ++ (finished next ++ after.flatMap finished) :=
        (progress.ends.symm.append_right _).append_left _
  · intro place current
    rcases progress.current with none | ⟨same, lost⟩
    · rw [none] at current
      cases current
    · obtain ⟨other, found, notLost⟩ := coherent.current place (same ▸ current)
      rw [progress.receivers]
      by_cases here : index = place
      · subst here
        rw [progress.found] at found
        cases found
        refine ⟨next, ?_, lost.trans notLost⟩
        rw [List.getElem?_set_self (List.getElem?_eq_some_iff.mp progress.found).1]
      · exact ⟨other, by rw [List.getElem?_set_ne here, found], notLost⟩
  · intro invocation member
    rw [progress.invocations] at member
    rcases mem_append.mp member with old | new
    · obtain ⟨other, place, ⟨otherMember, line, sent, known⟩, outcome⟩ := coherent.own invocation old
      obtain ⟨same, sameMember, extended⟩ := kept other otherMember
      refine ⟨same, place, ⟨sameMember, line, getElem?_of_prefix extended.sent sent, ?_⟩, ?_⟩
      · rw [progress.lines]
        exact getElem?_of_prefix (prefix_append _ _) known
      · exact outcome.imp extended.answered fun refused => ⟨refused.1, extended.unanswered refused.2⟩
    · obtain ⟨place, line, sent, outcome⟩ := progress.own invocation new
      refine ⟨next, place, ⟨newest, line, sent, ?_⟩, outcome⟩
      exact known ⟨invocation.callback, line⟩ (mem_append_right _
        (mem_flatMap.mpr ⟨next, newest, mem_of_getElem? sent⟩))

end Progress

section Operations

variable {auth : Auth} {receiver : AuthReceiver} {index : Nat}

theorem submit_progress (inStep : InStep receiver) (notLost : receiver.lost = false)
    (submission : Submission) :
    InStep (receiver.submit submission) ∧
      (receiver.submit submission).sent = receiver.sent ++ [submission] := by
  have sent : (receiver.submit submission).sent = receiver.sent ++ [submission] := by
    rw [AuthReceiver.submit, AuthReceiver.sendAll, inStep.queue, nil_append]
  refine ⟨⟨rfl, fun _ => ?_, ?_, inStep.received⟩, sent⟩
  · have bound := le_trans inStep.received inStep.answers
    rw [sent]
    change receiver.pending ++ (receiver.queue ++ [submission]).map Submission.callback =
      ((receiver.sent ++ [submission]).drop receiver.received).map Submission.callback
    rw [drop_append_of_le_length bound, inStep.queue, nil_append, map_append,
      ← inStep.pending notLost]
  · rw [sent, length_append]
    exact le_trans inStep.answers (Nat.le_add_right _ _)

/-- The next callback is the position of its line. -/
def ticket (auth : Auth) (line : Bytes) : Submission := ⟨auth.lines.length, line⟩

theorem submit_unconnected (coherent : Coherent auth) (line : Bytes)
    (current : auth.receiver = none) : Coherent (auth.submit line) := by
  have perm : (auth.queue ++ [ticket auth line] ++ auth.receivers.flatMap AuthReceiver.sent).Perm
      (auth.queue ++ auth.receivers.flatMap AuthReceiver.sent ++ [ticket auth line]) := by
    simp only [append_assoc]
    exact perm_append_comm.append_left _
  obtain ⟨known, distinct⟩ := known_append coherent rfl le_rfl
    (fun submission member => by rw [mem_singleton.mp member, ticket]) perm
  have result : auth.submit line = { auth with
      lines := auth.lines ++ [line]
      attempts := if auth.connecting then auth.attempts else auth.attempts + 1
      connecting := true
      queue := auth.queue ++ [ticket auth line] } := by
    simp only [Auth.submit, current, ticket]
  rw [result]
  refine ⟨coherent.inStep, known, distinct, coherent.called, ?_, ?_⟩
  · simp only [current]
    exact fun _ impossible => by cases impossible
  · intro invocation member
    obtain ⟨receiver, place, sentAs, outcome⟩ := coherent.own invocation member
    obtain ⟨text, sent, known⟩ := sentAs.sent
    exact ⟨receiver, place, ⟨sentAs.member, text, sent,
      getElem?_of_prefix (prefix_append _ _) known⟩, outcome⟩

theorem submit_connected (coherent : Coherent auth) (line : Bytes)
    (current : auth.receiver = some index) : Coherent (auth.submit line) := by
  obtain ⟨receiver, found, notLost⟩ := coherent.current index current
  have inStep := coherent.inStep receiver (mem_of_getElem? found)
  have bound := le_trans inStep.received inStep.answers
  obtain ⟨next, sent⟩ := submit_progress inStep notLost (ticket auth line)
  have result : auth.submit line = { auth with
      lines := auth.lines ++ [line]
      receivers := auth.receivers.set index (receiver.submit (ticket auth line)) } := by
    simp only [Auth.submit, current, ticket, modify_eq_set_getElem?, found]
    rfl
  have ends : finished (receiver.submit (ticket auth line)) = finished receiver := by
    have same : (receiver.submit (ticket auth line)).lost = false := notLost
    rw [finished, finished, same, notLost, sent]
    change ((receiver.sent ++ _).take receiver.received).map Submission.callback = _
    rw [take_append_of_le_length bound]
    rfl
  have progress : Progress auth index receiver (receiver.submit (ticket auth line))
      [ticket auth line] [] (auth.submit line) :=
    { found := found
      receivers := by rw [result]
      queue := by rw [result]
      lines := by
        rw [result]
        rfl
      single := le_rfl
      fresh := fun submission member => by rw [mem_singleton.mp member, ticket]
      invocations := by rw [result, append_nil]
      inStep := next
      answers := prefix_rfl
      lost := fun lost => by rw [notLost] at lost; cases lost
      sent := sent
      ends := by rw [ends, map_nil, append_nil]
      own := fun call member => absurd member not_mem_nil
      current := by
        rw [result]
        exact .inr ⟨rfl, rfl⟩ }
  exact progress.coherent coherent

theorem connected_coherent (coherent : Coherent auth) : Coherent auth.connected := by
  have created : (AuthReceiver.create auth.queue).sendAll.sent = auth.queue := nil_append _
  have perm : ([] ++ (auth.receivers ++ [(AuthReceiver.create auth.queue).sendAll]).flatMap
      AuthReceiver.sent).Perm (auth.queue ++ auth.receivers.flatMap AuthReceiver.sent ++ []) := by
    rw [flatMap_append, flatMap_singleton, created, nil_append, append_nil]
    exact perm_append_comm
  have unchanged : auth.lines = auth.lines ++ ([] : List Submission).map Submission.line :=
    (append_nil _).symm
  obtain ⟨known, distinct⟩ := known_append coherent unchanged (Nat.zero_le 1)
    (fun _ impossible => absurd impossible not_mem_nil) perm
  refine ⟨?_, known, distinct, ?_, ?_, ?_⟩
  · intro receiver member
    rcases mem_append.mp member with old | new
    · exact coherent.inStep receiver old
    · rw [mem_singleton.mp new]
      exact ⟨rfl, fun _ => by rw [created]; rfl, Nat.zero_le _, le_rfl⟩
  · change (auth.invocations.map Invocation.callback).Perm
      ((auth.receivers ++ [_]).flatMap finished)
    rw [flatMap_append, flatMap_singleton]
    have none : finished (AuthReceiver.create auth.queue).sendAll = [] := rfl
    rw [none, append_nil]
    exact coherent.called
  · intro index current
    have last : auth.receivers.length = index := Option.some.inj current
    subst last
    exact ⟨_, List.getElem?_concat_length, rfl⟩
  · intro invocation member
    obtain ⟨receiver, place, sentAs, outcome⟩ := coherent.own invocation member
    exact ⟨receiver, place, ⟨mem_append_left _ sentAs.member, sentAs.sent⟩, outcome⟩

theorem answer_coherent (coherent : Coherent auth) (found : auth.receivers[index]? = some receiver)
    (behind : receiver.answers.length < receiver.sent.length) (line : Bytes) :
    Coherent { auth with
      receivers := auth.receivers.set index
        { receiver with answers := receiver.answers ++ [line] } } := by
  have inStep := coherent.inStep receiver (mem_of_getElem? found)
  have progress : Progress auth index receiver
      { receiver with answers := receiver.answers ++ [line] } [] []
      { auth with
        receivers := auth.receivers.set index
          { receiver with answers := receiver.answers ++ [line] } } :=
    { found := found
      receivers := rfl
      queue := rfl
      lines := (append_nil _).symm
      single := Nat.zero_le 1
      fresh := fun _ impossible => absurd impossible not_mem_nil
      invocations := (append_nil _).symm
      inStep := ⟨inStep.queue, inStep.pending, by simpa using behind,
        by simpa using Nat.le_succ_of_le inStep.received⟩
      answers := prefix_append _ _
      lost := fun lost => ⟨lost, rfl⟩
      sent := (append_nil _).symm
      ends := by
        rw [map_nil, append_nil]
        exact List.Perm.refl _
      own := fun _ impossible => absurd impossible not_mem_nil
      current := .inr ⟨rfl, rfl⟩ }
  exact progress.coherent coherent

/-- The first waiting callback is the one of the answered line. -/
theorem pending_eq_cons (inStep : InStep receiver) (notLost : receiver.lost = false) {line : Bytes}
    (answer : receiver.answers[receiver.received]? = some line) :
    ∃ submission, receiver.sent[receiver.received]? = some submission ∧
      receiver.pending = submission.callback ::
        (receiver.sent.drop (receiver.received + 1)).map Submission.callback := by
  have small := (List.getElem?_eq_some_iff.mp answer).1
  have bound : receiver.received < receiver.sent.length := lt_of_lt_of_le small inStep.answers
  refine ⟨receiver.sent[receiver.received], List.getElem?_eq_getElem bound, ?_⟩
  rw [inStep.pending notLost, drop_eq_getElem_cons bound, map_cons]

theorem lineReceived_coherent (coherent : Coherent auth)
    (found : auth.receivers[index]? = some receiver) (notLost : receiver.lost = false)
    {line : Bytes} (answer : receiver.answers[receiver.received]? = some line) :
    Coherent (auth.lineReceived index receiver line) := by
  have inStep := coherent.inStep receiver (mem_of_getElem? found)
  obtain ⟨submission, sent, pending⟩ := pending_eq_cons inStep notLost answer
  have small := (List.getElem?_eq_some_iff.mp answer).1
  have result : auth.lineReceived index receiver line = { auth with
      receivers := auth.receivers.set index { receiver with
        received := receiver.received + 1
        pending := (receiver.sent.drop (receiver.received + 1)).map Submission.callback }
      invocations := auth.invocations ++ [⟨submission.callback, line == yes⟩] } := by
    simp only [Auth.lineReceived, pending]
    rfl
  rw [result]
  have progress : Progress auth index receiver { receiver with
        received := receiver.received + 1
        pending := (receiver.sent.drop (receiver.received + 1)).map Submission.callback }
      [] [⟨submission.callback, line == yes⟩] { auth with
        receivers := auth.receivers.set index { receiver with
          received := receiver.received + 1
          pending := (receiver.sent.drop (receiver.received + 1)).map Submission.callback }
        invocations := auth.invocations ++ [⟨submission.callback, line == yes⟩] } :=
    { found := found
      receivers := rfl
      queue := rfl
      lines := (append_nil _).symm
      single := Nat.zero_le 1
      fresh := fun _ impossible => absurd impossible not_mem_nil
      invocations := rfl
      inStep := ⟨inStep.queue, fun _ => rfl, inStep.answers, small⟩
      answers := prefix_rfl
      lost := fun lost => by rw [notLost] at lost; cases lost
      sent := (append_nil _).symm
      ends := by
        simp only [finished, notLost, Bool.false_eq_true, if_false]
        rw [take_add_one, sent, map_append]
        exact List.Perm.refl _
      own := fun call member => by
        rw [mem_singleton.mp member]
        exact ⟨receiver.received, submission.line, sent, .inl ⟨line, answer, rfl⟩⟩
      current := .inr ⟨rfl, rfl⟩ }
  exact progress.coherent coherent

theorem connectionLost_coherent (coherent : Coherent auth)
    (found : auth.receivers[index]? = some receiver) (notLost : receiver.lost = false) :
    Coherent (auth.connectionLost index receiver) := by
  have inStep := coherent.inStep receiver (mem_of_getElem? found)
  have waiting : receiver.pending ++ receiver.queue.map Submission.callback =
      (receiver.sent.drop receiver.received).map Submission.callback := by
    rw [inStep.queue, map_nil, append_nil, inStep.pending notLost]
  have progress : Progress auth index receiver { receiver with lost := true } []
      ((receiver.sent.drop receiver.received).map fun submission => ⟨submission.callback, false⟩)
      (auth.connectionLost index receiver) :=
    { found := found
      receivers := rfl
      queue := rfl
      lines := (append_nil _).symm
      single := Nat.zero_le 1
      fresh := fun _ impossible => absurd impossible not_mem_nil
      invocations := by
        simp only [Auth.connectionLost, Auth.invoke, waiting, List.map_map]
        rfl
      inStep := ⟨inStep.queue, fun impossible => (by cases impossible), inStep.answers,
        inStep.received⟩
      answers := prefix_rfl
      lost := fun lost => by rw [notLost] at lost; cases lost
      sent := (append_nil _).symm
      ends := by
        simp only [finished, notLost, Bool.false_eq_true, if_false, if_true, List.map_map]
        change receiver.sent.map Submission.callback ~
          (receiver.sent.take receiver.received).map Submission.callback ++
            (receiver.sent.drop receiver.received).map Submission.callback
        rw [← map_append, take_append_drop]
      own := fun call member => by
        obtain ⟨submission, dropped, rfl⟩ := List.mem_map.mp member
        obtain ⟨place, sent⟩ := mem_iff_getElem?.mp dropped
        rw [List.getElem?_drop] at sent
        exact ⟨_, submission.line, sent, .inr ⟨rfl, rfl, Nat.le_add_right _ _⟩⟩
      current := .inl rfl }
  exact progress.coherent coherent

theorem step_coherent {next : Auth} {event : AuthEvent} (coherent : Coherent auth)
    (stepped : auth.step event = some next) : Coherent next := by
  cases event with
  | submit cid challenge response =>
    cases stepped
    cases current : auth.receiver with
    | none => exact submit_unconnected coherent _ current
    | some index => exact submit_connected coherent _ current
  | clientConnectionFailed =>
    simp only [Auth.step] at stepped
    split at stepped
    · cases stepped
    · cases stepped
      exact { coherent with own := fun invocation member =>
        let ⟨receiver, place, sentAs, outcome⟩ := coherent.own invocation member
        ⟨receiver, place, ⟨sentAs.member, sentAs.sent⟩, outcome⟩ }
  | connected =>
    simp only [Auth.step] at stepped
    split at stepped
    · cases stepped
    · cases stepped
      exact connected_coherent coherent
  | answer index line =>
    obtain ⟨receiver, found, stepped⟩ := bind_eq_some_iff.mp stepped
    split at stepped
    · next behind =>
        cases stepped
        exact answer_coherent coherent found behind line
    · cases stepped
  | lineReceived index =>
    obtain ⟨receiver, found, stepped⟩ := bind_eq_some_iff.mp stepped
    split at stepped
    · cases stepped
    · next notLost =>
        obtain ⟨line, answer, rfl⟩ := map_eq_some_iff.mp stepped
        exact lineReceived_coherent coherent found (Bool.not_eq_true _ ▸ notLost) answer
  | connectionLost index =>
    obtain ⟨receiver, found, stepped⟩ := bind_eq_some_iff.mp stepped
    split at stepped
    · cases stepped
    · next notLost =>
        cases stepped
        exact connectionLost_coherent coherent found (Bool.not_eq_true _ ▸ notLost)
  | clientConnectionLost =>
    cases stepped
    exact { coherent with own := fun invocation member =>
      let ⟨receiver, place, sentAs, outcome⟩ := coherent.own invocation member
      ⟨receiver, place, ⟨sentAs.member, sentAs.sent⟩, outcome⟩ }

theorem run_coherent {next : Auth} {events : List AuthEvent} (coherent : Coherent auth)
    (ran : auth.run events = some next) : Coherent next := by
  induction events generalizing auth with
  | nil =>
    cases ran
    exact coherent
  | cons event events ih =>
    obtain ⟨middle, stepped, ran⟩ := bind_eq_some_iff.mp ran
    exact ih (step_coherent coherent stepped) ran

end Operations

/-- Every run calls each callback at most once.
The callback accepts only when its own line was answered with yes. -/
theorem auth_matched {events : List AuthEvent} {auth : Auth}
    (ran : Auth.start.run events = some auth) : Matched auth :=
  (run_coherent coherent_start ran).matched

/-- The first connection is lost with an answer on the way, and the second one answers. -/
def reconnectingEvents : List AuthEvent :=
  [.submit [1] [2] [3], .connected, .submit [4] [5] [6], .answer 0 yes, .lineReceived 0,
    .answer 0 yes, .connectionLost 0, .clientConnectionLost, .submit [7] [8] [9],
    .clientConnectionFailed, .submit [10] [11] [12], .connected, .answer 1 [letter 'N'],
    .answer 1 yes, .lineReceived 1, .lineReceived 1]

def reconnected : Auth := (Auth.start.run reconnectingEvents).getD Auth.start

theorem auth_matched_reconnected :
    Matched reconnected ∧
      reconnected.invocations = [⟨0, true⟩, ⟨1, false⟩, ⟨2, false⟩, ⟨3, true⟩] :=
  ⟨@auth_matched reconnectingEvents _ (by decide +kernel), by decide +kernel⟩

/-- Every argument is an answer of the authenticator to the own line. -/
def OnlyAnswers (auth : Auth) : Prop :=
  ∀ invocation ∈ auth.invocations, ∃ receiver index,
    SentAs auth receiver index invocation.callback ∧ Answered receiver index invocation.argument

def losingEvents : List AuthEvent := [.submit [1] [2] [3], .connected, .connectionLost 0]

def refused : Auth := (Auth.start.run losingEvents).getD Auth.start

/-- The loss of the connection refuses without an answer. -/
theorem refused_without_answer :
    Auth.start.run losingEvents = some refused ∧ ¬ OnlyAnswers refused := by
  refine ⟨by decide +kernel, fun only => ?_⟩
  have called : (⟨0, false⟩ : Invocation) ∈ refused.invocations := by decide +kernel
  obtain ⟨receiver, index, sentAs, answer, found, _⟩ := only _ called
  have silent : refused.receivers.map AuthReceiver.answers = [[]] := by decide +kernel
  have none : receiver.answers = [] := by
    have member := List.mem_map_of_mem (f := AuthReceiver.answers) sentAs.member
    rw [silent] at member
    exact mem_singleton.mp member
  rw [none] at found
  cases found

end Ucollect.Master

namespace Ucollect.Master
open Library List Option

/-- The server does these things under the identifier of the connection. -/
def Record.actsUnder : Record → Option Bytes
  | .registerClient cid => some cid
  | .login cid => some cid
  | .routeToPlugin _ _ cid => some cid
  | .handleVersions _ cid => some cid
  | .unregisterClient cid => some cid
  | .send _ | .auth _ _ _ | .answered _ _ | .abortConnection => none

/-- A well-formed login of a connection with a challenge goes to the authenticator. -/
def Login.Asks (conn : ClientConn) (login : Login) : Prop :=
  login.rest = [] ∧ login.version = letter 'O' ∧ conn.challenge.getD [] ≠ []

instance (conn : ClientConn) (login : Login) : Decidable (login.Asks conn) :=
  inferInstanceAs (Decidable (_ ∧ _ ∧ _))

/-- This is the login that a message contains. -/
def loginOf : Bytes → Option Login
  | [] => none
  | message :: params => if message = letter 'L' then parseLogin params else none

/-- The login fields of two connections agree. -/
structure SameLogin (first second : ClientConn) : Prop where
  addrName : first.addrName = second.addrName
  loggedIn : first.loggedIn = second.loggedIn
  authenticated : first.authenticated = second.authenticated
  ownCid : first.ownCid = second.ownCid
  waitAuth : first.waitAuth = second.waitAuth

theorem SameLogin.refl (conn : ClientConn) : SameLogin conn conn := ⟨rfl, rfl, rfl, rfl, rfl⟩

theorem SameLogin.cid {first second : ClientConn} (same : SameLogin first second) :
    first.cid = second.cid := by
  rw [ClientConn.cid, ClientConn.cid, same.ownCid, same.addrName]

/-- These records ask nobody and only act under the identifier of a session. -/
structure ActsFor (conn : ClientConn) (records : List Record) : Prop where
  silent : requested records = []
  unanswered : ∀ cid allowed, Record.answered cid allowed ∉ records
  acts : ∀ record ∈ records, ∀ cid, record.actsUnder = some cid →
    cid = conn.cid ∧ conn.waitAuth = false ∧ (conn.authenticated = true ∨ conn.loggedIn = true)

/-- Records without an identifier act for every connection. -/
theorem ActsFor.quiet (conn : ClientConn) (messages : List Bytes) :
    ActsFor conn (messages.map .send) := by
  constructor
  · simp [requested]
  · simp
  · intro record member cid acts
    obtain ⟨message, _, rfl⟩ := List.mem_map.mp member
    simp [Record.actsUnder] at acts

theorem ActsFor.nil (conn : ClientConn) : ActsFor conn [] := .quiet conn []

/-- This relation lists everything that a call can do to the login fields. -/
inductive Handles (conn : ClientConn) (string : Bytes) : Received → Prop where
  | keeps {after : ClientConn} {records : List Record} {raised : Bool}
      (same : SameLogin after conn) (acts : ActsFor conn records) :
      Handles conn string ⟨after, records, raised⟩
  | accepts {after : ClientConn} {records : List Record} (idle : conn.waitAuth = false)
      (authenticated : conn.authenticated = true)
      (same : SameLogin after { conn with loggedIn := true }) (acts : ActsFor conn records) :
      Handles conn string ⟨after, records, false⟩
  | denies {after : ClientConn} {records : List Record} {login : Login}
      (idle : conn.waitAuth = false) (loggedOut : conn.loggedIn = false)
      (parsed : loginOf string = some login)
      (refused : ¬ login.Asks conn)
      (same : SameLogin after { conn with ownCid := some login.storedCid })
      (acts : ActsFor conn records) : Handles conn string ⟨after, records, false⟩
  | asks {after : ClientConn} {challenge response : Bytes} {login : Login}
      (idle : conn.waitAuth = false) (loggedOut : conn.loggedIn = false)
      (parsed : loginOf string = some login)
      (same : SameLogin after { conn with ownCid := some login.storedCid, waitAuth := true }) :
      Handles conn string ⟨after, [.auth login.storedCid challenge response], false⟩

variable {conn : ClientConn}

theorem receiveLogin_handles {params : Bytes} (idle : conn.waitAuth = false)
    (loggedOut : conn.loggedIn = false) :
    Handles conn (letter 'L' :: params) (conn.receiveLogin params) := by
  have whole : loginOf (letter 'L' :: params) = parseLogin params := by
    rw [loginOf, if_pos rfl]
  unfold ClientConn.receiveLogin
  cases parsed : parseLogin params with
  | none => exact .keeps (.refl conn) (.nil conn)
  | some login =>
    rw [parsed] at whole
    have fails : ActsFor conn [.send [letter 'F']] := .quiet conn [[letter 'F']]
    simp only
    by_cases rest : login.rest = []
    · by_cases version : login.version = letter 'O'
      · simp only [rest, version, ne_eq, not_true, if_false]
        cases found : conn.challenge with
        | none =>
          exact .denies idle loggedOut whole (by simp [Login.Asks, found])
            ⟨rfl, rfl, rfl, rfl, rfl⟩ (.nil conn)
        | some challenge =>
          by_cases empty : challenge = []
          · simp only [empty, if_true]
            exact .denies idle loggedOut whole (by simp [Login.Asks, found, empty])
              ⟨rfl, rfl, rfl, rfl, rfl⟩ (.nil conn)
          · simp only [empty, if_false]
            exact .asks idle loggedOut whole ⟨rfl, rfl, rfl, rfl, rfl⟩
      · simp only [rest, version, ne_eq, not_true, not_false_iff, if_false, if_true]
        exact .denies idle loggedOut whole (by simp [Login.Asks, version])
          ⟨rfl, rfl, rfl, rfl, rfl⟩ fails
    · simp only [rest, ne_eq, not_false_iff, if_true]
      exact .denies idle loggedOut whole (by simp [Login.Asks, rest])
        ⟨rfl, rfl, rfl, rfl, rfl⟩ fails

theorem receiveHello_handles (registration : Registration) (string params : Bytes)
    (idle : conn.waitAuth = false) :
    Handles conn string (conn.receiveHello registration params) := by
  unfold ClientConn.receiveHello
  by_cases authenticated : conn.authenticated = true
  · rw [if_pos authenticated]
    have same : SameLogin (conn.readProtoVersion params) conn := by
      cases params with
      | nil => exact .refl conn
      | cons version rest => exact ⟨rfl, rfl, rfl, rfl, rfl⟩
    generalize conn.readProtoVersion params = after at same
    have registers : ActsFor conn [.registerClient after.cid] := by
      constructor
      · rfl
      · simp
      · simp [Record.actsUnder, same.cid, idle, authenticated]
    have logsIn : ActsFor conn [.registerClient after.cid, .login after.cid] := by
      constructor
      · rfl
      · simp
      · simp [Record.actsUnder, same.cid, idle, authenticated]
    cases registration with
    | refused => exact .keeps same registers
    | accepted =>
      exact .accepts idle authenticated
        ⟨same.addrName, rfl, same.authenticated, same.ownCid, same.waitAuth⟩ logsIn
    | raised => exact .keeps same registers
  · simp only [authenticated, Bool.false_eq_true, if_false]
    exact .keeps ⟨rfl, rfl, rfl, rfl, rfl⟩ (.quiet conn [[letter 'F']])

/-- A call of the routing is for the client that is logged in, whether it returns or raises. -/
theorem calls_handles (registration : Registration) (string : Bytes) {record : Record}
    (acts : ActsFor conn [record]) :
    Handles conn string (conn.calls registration record) := by
  cases registration <;> exact .keeps (.refl conn) acts

theorem receiveLoggedIn_handles (registration : Registration) (message : UInt8)
    (string params : Bytes) (idle : conn.waitAuth = false) (loggedIn : conn.loggedIn = true) :
    Handles conn string (conn.receiveLoggedIn registration message params) := by
  unfold ClientConn.receiveLoggedIn
  split
  · exact .keeps (.refl conn) (.quiet conn [letter 'p' :: params])
  split
  · exact .keeps ⟨rfl, rfl, rfl, rfl, rfl⟩ (.nil conn)
  split
  · cases extractString params with
    | none => exact .keeps (.refl conn) (.nil conn)
    | some parts =>
      refine calls_handles registration string ⟨rfl, by simp, ?_⟩
      simp [Record.actsUnder, idle, loggedIn]
  split
  · split
    · cases availablePlugins params.length params <;> exact .keeps (.refl conn) (.nil conn)
    · cases handledVersions params with
      | none => exact .keeps (.refl conn) (.nil conn)
      | some versions =>
        refine calls_handles registration string ⟨rfl, by simp, ?_⟩
        simp [Record.actsUnder, idle, loggedIn]
  · exact .keeps (.refl conn) (.nil conn)

/-- Every received message is handled in one of the listed ways. -/
theorem stringReceived_handles (conn : ClientConn) (registration : Registration)
    (string : Bytes) : Handles conn string (conn.stringReceived registration string) := by
  unfold ClientConn.stringReceived
  cases waiting : conn.waitAuth with
  | true =>
    simp only [if_true]
    cases conn.authBuffer with
    | none => exact .keeps (.refl conn) (.nil conn)
    | some buffer => exact .keeps ⟨rfl, rfl, rfl, rfl, waiting.symm⟩ (.nil conn)
  | false =>
    simp only [Bool.false_eq_true, if_false]
    cases string with
    | nil => exact .keeps (.refl conn) (.nil conn)
    | cons message params =>
      cases loggedIn : conn.loggedIn with
      | true => exact receiveLoggedIn_handles registration message _ params waiting loggedIn
      | false =>
        simp only [Bool.false_eq_true, if_false]
        split
        · rename_i isLogin
          rw [isLogin]
          exact receiveLogin_handles waiting loggedIn
        split
        · exact receiveHello_handles registration _ params waiting
        split
        · exact .keeps ⟨rfl, loggedIn.symm, rfl, rfl, waiting.symm⟩ (.nil conn)
        · exact .keeps (.refl conn) (.nil conn)

/-- The end of a connection ends the session under its identifier. -/
theorem connectionLost_keeps (conn : ClientConn)
    (idle : conn.loggedIn = true → conn.waitAuth = false) :
    SameLogin conn.connectionLost.conn conn ∧ ActsFor conn conn.connectionLost.records := by
  unfold ClientConn.connectionLost
  split
  · refine ⟨⟨rfl, rfl, rfl, rfl, rfl⟩, ?_⟩
    cases loggedIn : conn.loggedIn with
    | false => exact .nil conn
    | true =>
      constructor
      · rfl
      · simp [Received.returned]
      · simp [Received.returned, Record.actsUnder, ClientConn.cid, idle loggedIn, loggedIn]
  · exact ⟨.refl conn, .nil conn⟩

theorem checkLogged_keeps (conn : ClientConn) :
    SameLogin conn.checkLogged.conn conn ∧ ActsFor conn conn.checkLogged.records := by
  unfold ClientConn.checkLogged
  split
  · exact ⟨⟨rfl, rfl, rfl, rfl, rfl⟩, rfl, by simp [Received.returned],
      by simp [Received.returned, Record.actsUnder]⟩
  · exact ⟨.refl conn, .nil conn⟩

theorem ping_keeps (conn : ClientConn) :
    SameLogin conn.ping.conn conn ∧ ActsFor conn conn.ping.records := by
  refine ⟨⟨rfl, rfl, rfl, rfl, rfl⟩, ?_⟩
  unfold ClientConn.ping
  split
  · exact ⟨rfl, by simp [Received.returned], by simp [Received.returned, Record.actsUnder]⟩
  · exact .quiet conn [[letter 'P']]

end Ucollect.Master
