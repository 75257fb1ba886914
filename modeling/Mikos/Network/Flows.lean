import Mikos.Network.SlotMoves

/-!
# Flows stay apart

Every routine of the stack works on the slot it was given.  It leaves all other slots alone, with
their queued and their stored segments, and it either frees its slot or moves it along `Develops`.
None of this needs to know who holds which handle, so it holds in every run.
-/

namespace Mikos.Network
open Library

namespace Stack
variable {driver : Nat → Bool} {stack first second third : Stack}
  {i j : Fin socketCapacity}

/-- Nothing that a slot sees changes. -/
structure Rests (before after : Stack) : Prop where
  sockets : after.sockets = before.sockets
  transmissions : after.transmissions = before.transmissions
  interface : after.interface = before.interface
  initialized : after.initialized = before.initialized

theorem Rests.refl : Rests stack stack := ⟨rfl, rfl, rfl, rfl⟩

theorem Rests.trans (left : Rests first second) (right : Rests second third) :
    Rests first third where
  sockets := right.sockets.trans left.sockets
  transmissions := right.transmissions.trans left.transmissions
  interface := right.interface.trans left.interface
  initialized := right.initialized.trans left.initialized

theorem sendSegment_rests {sequence} :
    Rests stack (sendSegment driver stack owner value flags payload sequence).2 := by
  simp only [sendSegment]
  split <;> exact ⟨rfl, rfl, rfl, rfl⟩

theorem allowControlReply_rests (stack : Stack) : Rests stack stack.allowControlReply.2 := by
  simp only [allowControlReply]
  split <;> split <;> exact ⟨rfl, rfl, rfl, rfl⟩

/-- Nothing of the other slots changes, nor does the interface. -/
structure Spares (index : Fin socketCapacity) (before after : Stack) : Prop where
  sockets : ∀ other ≠ index, after.socket other = before.socket other
  queued : ∀ other ≠ index, after.pendingAt other = before.pendingAt other
  stored : ∀ other ≠ index,
    after.sockets.storedAt other = before.sockets.storedAt other
  interface : after.interface = before.interface
  initialized : after.initialized = before.initialized

/-- A routine that works on one slot. -/
structure Works (index : Fin socketCapacity) (before after : Stack) : Prop
    extends Spares index before after where
  own : Outcome (before.socket index) (after.socket index)

namespace Spares

theorem trans (left : Spares i first second) (right : Spares i second third) :
    Spares i first third where
  sockets j apart := (right.sockets j apart).trans (left.sockets j apart)
  queued j apart := (right.queued j apart).trans (left.queued j apart)
  stored j apart := (right.stored j apart).trans (left.stored j apart)
  interface := right.interface.trans left.interface
  initialized := right.initialized.trans left.initialized

theorem rest (i : Fin socketCapacity) (rests : Rests first second) : Spares i first second where
  sockets j _ := by rw [socket, socket, rests.sockets]
  queued j _ := by
    funext place
    rw [pendingAt, pendingAt, rests.transmissions]
  stored j _ := by rw [rests.sockets]
  interface := rests.interface
  initialized := rests.initialized

theorem setSocket (i : Fin socketCapacity) (stack : Stack) (value : SocketSlot) :
    Spares i stack (stack.setSocket i value) :=
  ⟨fun _ apart => socket_setSocket_of_ne apart value, fun _ _ => rfl, fun _ _ => rfl,
    rfl, rfl⟩

theorem requeue {transmissions : Fin transmitCapacity → Option (TransmitKey × TransmitSegment)}
    (same : ∀ j ≠ i, ∀ place, ((transmissions place).filter fun entry => entry.1.handle = some j) =
        stack.pendingAt j place) : Spares i stack { stack with transmissions } :=
  ⟨fun _ _ => rfl, fun j apart => funext (same j apart), fun _ _ => rfl, rfl, rfl⟩

end Spares

theorem ne_free_of_connection (linked : isConnection state = true) : state ≠ .free := by
  rintro rfl
  cases linked

theorem release_forms (linked : isConnection (stack.socket i).state = true) :
    ((stack.socket i).references = 0 ∧ stack.release (some i) = stack) ∨
      ((stack.socket i).references ≠ 1 ∧
        stack.release (some i) = stack.setSocket i
          { stack.socket i with references := (stack.socket i).references - 1 }) ∨
      stack.release (some i) = stack.abort i {} := by
  have inUse := ne_free_of_connection linked
  have silent : ¬ (stack.sockets.slots i).state = .listening := by
    intro listening
    rw [socket, listening] at linked
    cases linked
  have resolved : stack.sockets.slot (some i) = some (stack.sockets.slots i) :=
    SocketTable.slot_eq_some.mpr ⟨i, rfl, inUse, rfl⟩
  simp only [release, SocketTable.release, resolved, if_neg silent]
  by_cases none : (stack.sockets.slots i).references = 0
  · exact .inl ⟨none, by rw [if_pos none]⟩
  by_cases last : (stack.sockets.slots i).references - 1 ≠ 0
  · refine .inr (.inl ⟨fun one => last ?_, by rw [if_neg none, if_pos last]; rfl⟩)
    rw [show (stack.sockets.slots i).references = 1 from one]
    rfl
  · exact .inr (.inr (by rw [if_neg none, if_neg last]; rfl))

namespace Works

theorem rest (valid : Valid (first.socket i)) (rests : Rests first second) : Works i first second :=
  ⟨.rest i rests, by
    rw [socket, socket, rests.sockets]
    exact .refl valid⟩

theorem refl (valid : Valid (stack.socket i)) : Works i stack stack := .rest valid .refl

theorem trans (left : Works i first second) (right : Works i second third) : Works i first third :=
  ⟨left.toSpares.trans right.toSpares, left.own.trans right.own⟩

theorem valid (works : Works i first second) : Valid (second.socket i) := works.own.valid

theorem sent (valid : Valid (stack.socket i)) {owner : SocketHandle} {value : SocketSlot}
    {flags : UInt8} {payload : List UInt8} {sequence : UInt32} :
    Works i stack (sendSegment driver stack owner value flags payload sequence).2 :=
  .rest valid sendSegment_rests

theorem setSocket (develops : Develops (stack.socket i) value) :
    Works i stack (stack.setSocket i value) :=
  ⟨.setSocket i stack value, by
    rw [socket_setSocket_self]
    exact .develops develops⟩

section
variable (valid : Valid (stack.socket i))
include valid

theorem adjust (inUse : (stack.socket i).state ≠ .free) (adjusts : Adjusts (stack.socket i) value) :
    Works i stack (stack.setSocket i value) :=
  .setSocket (adjusts.develops valid inUse)

theorem clearTransmissions : Works i stack (stack.clearTransmissions (some i)) := by
  refine ⟨.requeue fun j apart place => ?_, .refl valid⟩
  simp only [pendingAt, Option.filter_filter]
  congr 1
  funext entry
  by_cases same : entry.1.handle = some j
  · simp [same, apart]
  · simp [same]

theorem sentAdjust {sequence}
    (inUse : (stack.socket i).state ≠ .free) (adjusts : Adjusts (stack.socket i) value) :
    Works i stack
      ((sendSegment driver stack owner speaker flags payload sequence).2.setSocket i value) := by
  have sent := @sent driver stack i valid owner speaker flags payload sequence
  refine sent.trans (.adjust sent.valid ?_ ?_) <;> rw [sendSegment_socket]
  · exact inUse
  · exact adjusts

end

theorem abort (outcome : Outcome (stack.socket i) value) : Works i stack (stack.abort i value) :=
  ⟨⟨fun _ apart => SocketTable.setSlot_slots_of_ne apart _, fun _ _ => rfl,
      fun j apart => SocketTable.StoreApart.clearReassembly i _ j apart, rfl,
      rfl⟩, by
    rw [socket_abort]
    exact outcome⟩

/-- A holder of a connection gives up its reference; the slot of the last one is
freed. -/
theorem releaseFrom (spares : Spares i before stack)
    (started : isConnection (before.socket i).state = true)
    (linked : isConnection (stack.socket i).state = true)
    (shared : ∀ references, (stack.socket i).references ≠ 1 →
      Develops (before.socket i) { stack.socket i with references }) :
    Works i before (stack.release (some i)) := by
  rcases release_forms linked with ⟨none, same⟩ | ⟨more, same⟩ | same <;> rw [same]
  · refine ⟨spares, .develops (shared (stack.socket i).references ?_)⟩
    rw [none]
    decide
  · refine ⟨spares.trans (.setSocket i stack _), ?_⟩
    rw [socket_setSocket_self]
    exact .develops (shared _ more)
  · have freed : Works i stack (stack.abort i {}) := .abort (.freed linked)
    refine ⟨spares.trans freed.toSpares, ?_⟩
    rw [socket_abort]
    exact .freed started

section
variable (valid : Valid (stack.socket i))
include valid

section
variable (linked : isConnection (stack.socket i).state = true)
include linked

theorem release : Works i stack (stack.release (some i)) :=
  releaseFrom (.rest i .refl) linked linked fun _ more =>
    .advance linked (.inl linked) rfl valid.flags valid.quiet fun retiring detached =>
      absurd (retiring detached).1 more

theorem reset (held : (stack.socket i).detached = false) (failure : SocketResult) :
    Works i stack { stack with sockets := stack.sockets.reset (some i) failure } := by
  have inUse : (stack.sockets.slots i).state ≠ .free := ne_free_of_connection linked
  by_cases halfOpen : (stack.socket i).state = .synReceived
  · have resolved : stack.sockets.slot (some i) = some (stack.sockets.slots i) :=
      SocketTable.slot_eq_some.mpr ⟨i, rfl, inUse, rfl⟩
    have freed := release valid linked
    simp only [SocketTable.reset, resolved]
    rwa [if_pos (show (stack.sockets.slots i).state = .synReceived from halfOpen)]
  rw [reset_eq inUse halfOpen]
  refine .abort (.develops (.advance linked (.inl rfl) rfl rfl (fun _ => rfl) fun _ detached => ?_))
  rw [held] at detached
  cases detached

theorem failConnection : Works i stack (failConnection driver stack i) := by
  have cleared := clearTransmissions valid
  simp only [Stack.failConnection]
  split
  · exact .refl valid
  generalize announced : (if (stack.socket i).state ≠ .synReceived then
    (sendSegment driver (stack.clearTransmissions (some i)) (some i) (stack.socket i)
      (tcpRst ||| tcpAck) [] (stack.socket i).sendNext).2
    else stack.clearTransmissions (some i)) = after
  have same : after.socket i = stack.socket i := by
    rw [← announced]
    split
    · rw [sendSegment_socket]
      rfl
    · rfl
  have works : Works i stack after := by
    rw [← announced]
    split
    · exact cleared.trans (.sent cleared.valid)
    · exact cleared
  have connected' : isConnection (after.socket i).state = true := by rwa [same]
  split
  · exact works.trans (.release works.valid connected')
  next held =>
    simp only [not_or, Bool.not_eq_true] at held
    exact works.trans (.reset works.valid connected' (by rw [same]; exact held.2) _)

theorem sendFin (closed : (stack.socket i).sendClosed = true) :
    Works i stack (sendFin driver stack i) := by
  have inUse : (stack.socket i).state ≠ .free := ne_free_of_connection linked
  simp only [Stack.sendFin]
  split
  · exact .refl valid
  generalize (if (stack.socket i).finSent then _ else _ : UInt32) = sequence
  have sent := @sent driver stack i valid (some i) (stack.socket i) (tcpFin ||| tcpAck) [] sequence
  split
  · refine sent.trans (.setSocket ?_)
    rw [sendSegment_socket]
    exact .advance linked (.inl linked) rfl
      (valid.flags.finSent closed rfl rfl rfl rfl rfl rfl) valid.quiet fun retiring => retiring
  · exact .sentAdjust valid inUse .tune

/-- The end of our stream is requested and, where nothing is in its way, sent. -/
theorem requested
    (sending : (stack.socket i).state = .established ∨ (stack.socket i).state = .closeWait)
    (sole : Retiring (stack.socket i) → detached = true → (stack.socket i).references = 1)
    (timers : Timers) :
    Works i stack (Stack.sendFin driver
      (stack.setSocket i ((stack.socket i).requested detached timers)) i) := by
  have requested : Works i stack (stack.setSocket i _) :=
    .setSocket (.requested valid linked sending sole timers)
  refine requested.trans (sendFin requested.valid ?_ ?_) <;> rw [socket_setSocket_self]
  · cases received : (stack.socket i).receiveClosed <;>
      simp [SocketSlot.requested, received, isConnection]
  · rfl

theorem requestFin (complete : (stack.socket i).state ≠ .synReceived)
    (alive : (stack.socket i).state ≠ .reset) : Works i stack (requestFin driver stack i) := by
  simp only [Stack.requestFin]
  split
  · exact .refl valid
  next unclosed =>
    have sending := valid.flags.sending linked complete alive (by simpa using unclosed)
    exact requested valid linked sending (fun retiring gone => (retiring gone).1) _

end

theorem flushAcknowledgement : Works i stack (flushAcknowledgement driver stack i) := by
  simp only [Stack.flushAcknowledgement]
  split
  · exact .refl valid
  rename_i active
  have inUse : (stack.socket i).state ≠ .free := by
    intro free
    simp [free, isConnection] at active
  split
  · exact .sentAdjust valid inUse .tune
  · exact .sent valid

end

theorem adjustFlush (valid : Valid (stack.socket i))
    (inUse : (stack.socket i).state ≠ .free) (adjusts : Adjusts (stack.socket i) value) :
    Works i stack (Stack.flushAcknowledgement driver (stack.setSocket i value) i) := by
  have stored := adjust valid inUse adjusts
  exact stored.trans (.flushAcknowledgement stored.valid)

/-! ### Timers -/

section
variable (valid : Valid (stack.socket i))
include valid

theorem flushHandshake (linked : isConnection (stack.socket i).state = true) :
    Works i stack (flushHandshake driver stack i) := by
  have inUse := ne_free_of_connection linked
  simp only [Stack.flushHandshake]
  split
  · exact .failConnection valid linked
  split
  · split <;> exact .sentAdjust valid inUse .tune
  · exact .refl valid

theorem queryWindow (inUse : (stack.socket i).state ≠ .free) :
    Works i stack (queryWindow driver stack i) := by
  simp only [Stack.queryWindow]
  split
  · split <;> exact .sentAdjust valid inUse .tune
  · exact .refl valid

theorem flushTimer : Works i stack (flushTimer driver stack i) := by
  simp only [Stack.flushTimer]
  split
  · exact .refl valid
  rename_i active
  simp only [not_or, Bool.not_eq_false] at active
  obtain ⟨linked, alive⟩ := active
  split
  next waiting =>
    split
    · split
      · exact .release valid linked
      rename_i held
      have flags := valid.flags
      rw [FlagsAgree, waiting] at flags
      refine .setSocket (.advance linked (.inr rfl) rfl ?_ (by simp [isSynchronized])
        fun _ detached => absurd detached held)
      rw [FlagsAgree]
      exact flags
    · exact .refl valid
  split
  · exact .flushHandshake valid linked
  split
  · exact .failConnection valid linked
  have closing : Works i stack
      (if (stack.socket i).sendClosed ∧ (stack.socket i).finAcked = false ∧
          deadlineReached stack.now (stack.socket i).timers.controlRetryAt then
        Stack.sendFin driver stack i
      else stack) := by
    split
    next ending => exact .sendFin valid linked ending.1
    · exact .refl valid
  refine closing.trans (.queryWindow closing.valid ?_)
  split
  · rw [StackInvariant.sendFin_state]
    exact ne_free_of_connection linked
  · exact ne_free_of_connection linked

/-! ### The last holder leaves -/

theorem detach (last : (stack.socket i).references = 1)
    (linked : isConnection (stack.socket i).state = true)
    (complete : (stack.socket i).state ≠ .synReceived) (alive : (stack.socket i).state ≠ .reset)
    (unfinished : (stack.socket i).state = .lastAck → (stack.socket i).finAcked = false) :
    Works i stack (Stack.requestFin driver
      (stack.setSocket i { stack.socket i with detached := true }) i) := by
  simp only [Stack.requestFin, socket_setSocket_self]
  split
  next closed =>
    refine .setSocket (.advance linked (.inl linked) rfl valid.flags valid.quiet
      fun _ _ => ⟨last, ?_⟩)
    rcases valid.flags.ending linked alive closed with state | state | state | state | state <;>
      simp [state, unfinished]
  rename_i unclosed
  have sending := valid.flags.sending linked complete alive (by simpa using unclosed)
  rw [setSocket_setSocket]
  exact requested valid linked sending (fun _ _ => last) _

/-! ### Incoming segments -/

theorem challengeAck (inUse : (stack.socket i).state ≠ .free) :
    Works i stack (challengeAck driver stack i) := by
  have rests := stack.allowControlReply_rests
  have works := rest valid rests
  have inUse' : (stack.allowControlReply.2.socket i).state ≠ .free := by rwa [socket, rests.sockets]
  simp only [Stack.challengeAck]
  split
  · exact works.trans (.adjustFlush works.valid inUse' .tune)
  · exact works

theorem handleReset (linked : isConnection (stack.socket i).state = true) (sequence : UInt32) :
    Works i stack (handleReset driver stack i sequence) := by
  simp only [Stack.handleReset]
  split
  · exact .refl valid
  split
  · have cleared := clearTransmissions valid
    split
    · exact cleared.trans (.release cleared.valid linked)
    next held =>
      simp only [not_or, Bool.not_eq_true] at held
      exact cleared.trans (.reset cleared.valid linked held.1 _)
  split
  · exact .challengeAck valid (ne_free_of_connection linked)
  · exact .refl valid

end
end Works

end Stack
end Mikos.Network
