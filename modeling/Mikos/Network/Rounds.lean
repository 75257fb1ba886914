import Mikos.Network.SegmentFlows

/-!
# Rounds over all slots

Rounds of the timers and calls move every slot on or free it.  A segment outside every connection
reaches a slot that waits for its listener, or takes a slot that is free.
-/

namespace Mikos.Network
open Library List SocketTable
namespace Stack
variable {driver : Nat → Bool} {stack first second third : Stack}
  {i j : Fin socketCapacity}

/-! ## Rounds over all slots -/

/-- Every slot is moved on or freed. -/
structure Progress (before after : Stack) : Prop where
  slots : ∀ index, Outcome (before.socket index) (after.socket index)
  interface : after.interface = before.interface
  initialized : after.initialized = before.initialized

theorem Works.progress (works : Works i first second) (valid : ∀ i, Valid (first.socket i)) :
    Progress first second where
  slots j := by
    by_cases same : j = i
    · subst same
      exact works.own
    · rw [works.sockets j same]
      exact .refl (valid j)
  interface := works.interface
  initialized := works.initialized

namespace Progress

theorem congr (valid : ∀ i, Valid (first.socket i))
    (sockets : second.sockets = first.sockets) (interface : second.interface = first.interface)
    (initialized : second.initialized = first.initialized) : Progress first second where
  slots i := by
    rw [socket, socket, sockets]
    exact .refl (valid i)
  interface := interface
  initialized := initialized

theorem refl (valid : ∀ i, Valid (stack.socket i)) : Progress stack stack :=
  .congr valid rfl rfl rfl

theorem trans (left : Progress first second) (right : Progress second third) :
    Progress first third where
  slots i := (left.slots i).trans (right.slots i)
  interface := right.interface.trans left.interface
  initialized := right.initialized.trans left.initialized

theorem valid (progress : Progress first second) (i : Fin socketCapacity) :
    Valid (second.socket i) :=
  (progress.slots i).valid

theorem foldl (works : ∀ stack i, Valid (stack.socket i) → Works i stack (step stack i))
    (indices : List (Fin socketCapacity)) (valid : ∀ i, Valid (stack.socket i)) :
    Progress stack (indices.foldl step stack) := by
  induction indices generalizing stack with
  | nil => exact .refl valid
  | cons i rest ih =>
    have progress := (works stack i (valid i)).progress valid
    exact progress.trans (ih progress.valid)

end Progress

section
variable (driver : Nat → Bool) (valid : ∀ i, Valid (stack.socket i))
include valid

theorem flushAcknowledgements_progress : Progress stack (flushAcknowledgements driver stack) :=
  .foldl (fun _ _ valid => .flushAcknowledgement valid) _ valid

theorem flushTimers_progress : Progress stack (flushTimers driver stack) :=
  .foldl (fun _ _ valid => .flushTimer valid) _ valid

theorem flushRetransmission_progress : Progress stack (flushRetransmission driver stack) := by
  rw [flushRetransmission]
  generalize (finRange transmitCapacity).map _ = positions
  induction positions generalizing stack with
  | nil => exact .refl valid
  | cons position rest ih =>
    rw [flushRetransmissionFrom]
    split
    · exact ih valid
    rename_i key pending queued
    have unqueued : Progress stack { stack with
        transmissions := Function.update stack.transmissions position none } :=
      .congr valid rfl rfl rfl
    have dropped := unqueued.trans (ih unqueued.valid)
    split
    next i socket mine resolved =>
      obtain ⟨place, same, inUse, -⟩ := slot_eq_some.mp resolved
      split
      · exact dropped
      split
      · exact ih valid
      · cases mine.symm.trans same
        exact ((Tunes.retransmit driver stack queued mine).works (valid i) inUse).progress valid
    · exact dropped

end

/-! ## Connection requests -/

/-- A request turns a free slot into a half-open connection. -/
structure Opens (listener index : Fin socketCapacity) (localEnd remoteEnd : Endpoint)
    (before after : Stack) : Prop extends Spares index before after where
  vacant : before.sockets.allocate = some index
  serving : before.sockets.listener localEnd = some listener
  room : before.sockets.pending (some listener) < (before.socket listener).backlog.toNat
  state : (after.socket index).state = .synReceived
  identity : (after.socket index).identity =
    (.stream, localEnd, remoteEnd, some listener, 0, false)
  valid : Valid (after.socket index)
  held : (after.socket index).detached = false

/-- What a segment outside every connection does. -/
inductive Requests (localEnd remoteEnd : Endpoint) (before after : Stack) : Prop where
  | nothing (rests : Rests before after)
  | waiting (listener index : Fin socketCapacity)
      (serving : before.sockets.listener localEnd = some listener)
      (backlogged : before.sockets.backlogged (some listener) index = true)
      (peer : (before.socket index).remoteEnd = remoteEnd) (works : Works index before after)
  | opens (listener index : Fin socketCapacity)
      (opens : Opens listener index localEnd remoteEnd before after)

end Stack

theorem Valid.inUse_of_backlogged {table : SocketTable} {i listener : Fin socketCapacity}
    (valid : Valid (table.slots i)) (backlogged : table.backlogged (some listener) i = true) :
    (table.slots i).state ≠ .free := by
  intro free
  rw [SocketTable.backlogged, valid.free free] at backlogged
  simp [invalidSocket] at backlogged

namespace Stack
variable {driver : Nat → Bool} {stack first second third : Stack}
  {i j : Fin socketCapacity}

theorem rejectSegment_requests (stack : Stack) (view : TcpView) (localEnd remoteEnd : Endpoint) :
    Requests localEnd remoteEnd stack (rejectSegment driver stack view localEnd remoteEnd) := by
  have allowed := stack.allowControlReply_rests
  simp only [rejectSegment]
  split
  · split <;> exact .nothing (allowed.trans sendSegment_rests)
  · exact .nothing allowed

theorem Opens.answered {listener : Fin socketCapacity} (vacant : stack.sockets.allocate = some i)
    (serving : stack.sockets.listener localEnd = some listener)
    (room : stack.sockets.pending (some listener) < (stack.socket listener).backlog.toNat)
    (state : value.state = .synReceived)
    (identity : value.identity = (.stream, localEnd, remoteEnd, some listener, 0, false))
    (valid : Valid value) (held : value.detached = false) (nextSequence : UInt32) (view : TcpView) :
    Opens listener i localEnd remoteEnd stack (answerRequest driver
        { stack with sockets := stack.sockets.setSlot i value, nextSequence } i view) := by
  generalize created : ({ stack with
    sockets := stack.sockets.setSlot i value, nextSequence } : Stack) = opened
  have slot : opened.socket i = value := by
    rw [← created]
    exact setSlot_slots_self value
  have spares : Spares i stack opened := by
    rw [← created]
    exact ⟨fun _ apart => setSlot_slots_of_ne apart value, fun _ _ => rfl, fun _ _ => rfl, rfl, rfl⟩
  have tunes := Tunes.answerRequest driver i opened view
  have own := tunes.own
  rw [slot] at own
  refine ⟨spares.trans tunes.toSpares, vacant, serving, room, own.state.trans state,
    own.identity.trans identity, (own.develops valid (by simp [state])).valid,
    own.detached.trans held⟩

theorem handleUnconnected_requests (driver : Nat → Bool)
    (valid : ∀ i, Valid (stack.socket i)) (view : TcpView) (localEnd remoteEnd : Endpoint) :
    Requests localEnd remoteEnd stack (handleUnconnected driver stack view localEnd remoteEnd) := by
  have nothing : Requests localEnd remoteEnd stack stack := .nothing .refl
  simp only [handleUnconnected]
  split
  · exact nothing
  split
  · exact rejectSegment_requests stack view localEnd remoteEnd
  rename_i serving
  simp only [not_or] at serving
  split
  · exact nothing
  rcases stack.sockets.beginConnection_cases (stack.sockets.listener localEnd) localEnd
    remoteEnd view.ethernet.source view.tcp.sequence stack.nextSequence with
    ⟨refused, -⟩ | ⟨i, started, backlogged, peer, -⟩ | ⟨listener, i, named, vacant, room, started⟩
  · split
    next _ success _ => exact absurd success refused
    · exact nothing
  · rw [started]
    obtain ⟨listener, named⟩ := Option.ne_none_iff_exists'.mp serving.1
    rw [named] at backlogged
    have inUse := (valid i).inUse_of_backlogged backlogged
    have renumbered : Tunes i stack { stack with nextSequence := stack.nextSequence + 0x10001 } :=
      .rest i ⟨rfl, rfl, rfl, rfl⟩
    exact .waiting listener i named backlogged peer
      ((renumbered.trans (.answerRequest driver i _ view)).works (valid i) inUse)
  have empty : stack.sockets.slots i = {} := (valid i).free (allocate_free vacant)
  rw [started, empty]
  rw [named] at room
  refine .opens listener i (.answered vacant named room rfl ?_ ⟨?_, ?_, ?_, ?_⟩ rfl _ view)
  · simp [SocketSlot.identity, named]
  · simp [FlagsAgree]
  · simp
  · simp [isConnection]
  · simp

/-! ## Calls -/

variable (valid : ∀ i, Valid (stack.socket i)) (now : UInt64) (handle : SocketHandle)
include valid

theorem socketWrite_progress (input : List UInt8) :
    Progress stack (stack.socketWrite driver now handle input).2 := by
  have ticked : Progress stack { stack with now } := .congr valid rfl rfl rfl
  simp only [socketWrite]
  split
  next i value resolved =>
    have inUse := (slot_some resolved).1
    split
    · exact ticked
    split
    · exact ticked
    split
    · exact ticked
    have restarted := Tunes.restartIdle i { stack with now }
    split
    · exact ticked.trans (((restarted.trans (.awaitWindow i _)).works (valid i)
        inUse).progress ticked.valid)
    · exact ticked.trans (((restarted.trans (.writeLoop driver i input _ _ _ _)).works
        (valid i) inUse).progress ticked.valid)
  · exact ticked

theorem socketShutdown_progress (how : UInt32) :
    Progress stack (stack.socketShutdown driver now handle how).2 := by
  have ticked : Progress stack { stack with now } := .congr valid rfl rfl rfl
  simp only [socketShutdown]
  split
  next i value resolved =>
    obtain ⟨inUse, rfl⟩ := slot_some resolved
    split
    · exact ticked
    split
    · exact ticked
    rename_i linked
    simp only [not_or, Bool.not_eq_false] at linked
    obtain ⟨linked, complete, alive⟩ := linked
    have synced : isSynchronized (Stack.socket { stack with now } i).state = true :=
      isSynchronized_of_connection linked complete alive
    have closing : Works i { stack with now }
          (if how ≠ 0 then requestFin driver { stack with now } i else { stack with now }) ∧
        isSynchronized ((if how ≠ 0 then requestFin driver { stack with now } i
            else { stack with now }).socket i).state = true := by
      split
      · exact ⟨.requestFin (valid i) linked complete alive,
          StackInvariant.requestFin_socket _ _ _ synced⟩
      · exact ⟨.refl (valid i), synced⟩
    generalize (if how ≠ 0 then requestFin driver { stack with now } i
      else { stack with now }) = after at closing
    obtain ⟨closing, still⟩ := closing
    split
    · refine ticked.trans ((closing.trans (.adjust closing.valid
        (ne_free_of_synchronized still) ?_)).progress ticked.valid)
      exact ⟨rfl, rfl, rfl, rfl, rfl, rfl, rfl, rfl, rfl, .inr rfl⟩
    · exact ticked.trans (closing.progress ticked.valid)
  · exact ticked

theorem socketRead_progress (size : Nat) : Progress stack (stack.socketRead now handle size).2 := by
  have consumed : Progress stack
      { stack with now, sockets := (stack.sockets.read handle size).2 } := by
    rcases stack.sockets.read_cases handle size with same | ⟨i, named, -, buffered, drained⟩
    · rw [same]
      exact .congr valid rfl rfl rfl
    have synced : isSynchronized (stack.socket i).state = true := by
      by_contra idle
      exact buffered ((valid i).quiet (by simpa using idle))
    have ticked : Progress stack { stack with now } := .congr valid rfl rfl rfl
    have apart := SocketTable.StoreApart.read stack.sockets i size
    rw [← named] at apart
    have taken : Works i { stack with now } { stack with now, sockets := _ } :=
      .received (valid i) synced drained.others apart drained.received
    exact ticked.trans (taken.progress ticked.valid)
  simp only [socketRead]
  split
  next i value resolved =>
    obtain ⟨inUse, rfl⟩ := slot_some resolved
    split
    · refine consumed.trans (Works.progress (Works.adjust (consumed.valid i) inUse ?_)
        consumed.valid)
      exact .tune
    · exact consumed
  · exact consumed

end Stack

end Mikos.Network
