import Mikos.Network.StackCalls

/-!
# Writes keep the invariant

A write cuts its input into segments and hands them to the driver one by one.
Every segment the driver takes is queued and extends the accepted stream; the
first one it refuses ends the write.
-/

namespace Mikos.Network
open Library Stack Function List
namespace StackInvariant
variable {driver : Nat → Bool} {history : List Transmission}
  {accounts later : Fin socketCapacity → Account} {stack : Stack} {i : Fin socketCapacity}

/-- A segment is queued when the driver takes it; a refused one is only recorded. -/
theorem queueTransmission_cases (driver : Nat → Bool) (stack : Stack)
    (i : Fin socketCapacity) (flags : UInt8) (payload : List UInt8) (sequence : UInt32) :
    queueTransmission driver stack i flags payload sequence = (false, stack) ∨
      ((sendSegment driver stack (some i) (stack.socket i) flags payload sequence).1 = false ∧
        queueTransmission driver stack i flags payload sequence = (false,
            (sendSegment driver stack (some i) (stack.socket i) flags payload sequence).2)) ∨
      ((sendSegment driver stack (some i) (stack.socket i) flags payload sequence).1 = true ∧
        ∃ place pending, stack.transmissions place = none ∧ pending.flags = flags ∧
          pending.data = payload ∧
          queueTransmission driver stack i flags payload sequence = (true,
              (sendSegment driver stack (some i) (stack.socket i) flags payload
                sequence).2.enqueue place ⟨some i, sequence⟩ pending)) := by
  simp only [queueTransmission]
  split
  · exact .inl rfl
  next =>
  split
  · exact .inl rfl
  next place vacant =>
  have vacant : stack.transmissions place = none := by simpa using List.find?_some vacant
  split
  next taken =>
    refine .inr (.inr ⟨taken, place,
      { flags
        attempts := 1
        firstSent := stack.now
        delay := (stack.socket i).timers.rto
        retryAt := stack.now + (stack.socket i).timers.rto
        data := payload }, vacant, rfl, rfl, ?_⟩)
    simp only [enqueue, sendSegment_transmissions]
  next refused => exact .inr (.inl ⟨by simpa using refused, rfl⟩)

section
variable (invariant : StackInvariant history accounts stack)
include invariant

theorem enter (i : Fin socketCapacity) (input : List UInt8) :
    StackInvariant history (update accounts i ((accounts i).enter input)) stack := by
  refine invariant.touch (.refl i stack) (fun j apart => update_of_ne apart _ accounts) ?_ ?_ ?_
  · rw [update_self]
    rfl
  · have slot := invariant.slots i
    rw [update_self]
    exact slot.reowned rfl rfl slot.owned slot.flags rfl id rfl rfl rfl rfl rfl rfl
  obtain ⟨data, firsts, finish, unfinished, finished⟩ := invariant.records i
  rw [update_self]
  refine ⟨fun record mem nonempty => ?_, firsts, finish, unfinished, finished⟩
  rcases data record mem nonempty with ⟨refused, first, made, known, carried⟩ | taken
  · exact .inl ⟨refused, first, made, mem_append_left _ known, carried⟩
  · exact .inr taken

theorem queueTransmission_refused (carried : ∀ segment : Segment,
      segment.sequence = (stack.socket i).sendNext → segment.payload = data →
      CarriesOffered (accounts i) segment)
    (refused : (queueTransmission driver stack i (tcpAck ||| tcpPsh) data
      (stack.socket i).sendNext).1 = false) :
    StackInvariant history accounts (queueTransmission driver stack i (tcpAck ||| tcpPsh) data
        (stack.socket i).sendNext).2 := by
  rcases queueTransmission_cases driver stack i (tcpAck ||| tcpPsh) data
      (stack.socket i).sendNext with same | ⟨answer, sent⟩ | ⟨-, _, _, -, -, -, queued⟩
  · rw [same]
    exact invariant
  · rw [sent]
    have handed := handed driver i stack (stack.socket i) (tcpAck ||| tcpPsh) data
      (stack.socket i).sendNext
    refine invariant.touch handed.touches (fun _ _ => rfl) rfl ?_ ?_
    · rw [handed.socket, handed.pieces]
      exact invariant.slots i
    rw [handed.socket]
    rcases handed.log _ (invariant.begun i) with
      ⟨-, same⟩ | ⟨segment, ofSocket, ofFlags, ofPayload, ofSequence, appended⟩
    · rw [same]
      exact invariant.records i
    · rw [appended, answer]
      refine (invariant.records i).resend rfl (fun nonempty later => ?_)
        (fun _ => carried segment ofSequence ofPayload) (by rw [ofFlags]; decide)
      simp [Segment.isFirst, nonempty, ofSocket, ofSequence] at later
  · rw [queued] at refused
    cases refused

/-- A connection that may write sends next what follows its accepted bytes. -/
theorem opened
    (opened : (stack.socket i).state = .established ∨ (stack.socket i).state = .closeWait) :
    (stack.socket i).finSent = false ∧ (stack.socket i).finAcked = false ∧
      (stack.socket i).sendNext =
        (accounts i).first + UInt32.ofNat (accounts i).accepted.length := by
  have slot := invariant.slots i
  have flags := slot.flags
  have synced : isSynchronized (stack.socket i).state = true := by
    rcases opened with state | state <;> rw [state] <;> rfl
  obtain ⟨acked, flight, -⟩ := slot.flight synced
  have next := flight.next
  rw [FlagsAgree] at flags
  rcases opened with state | state <;> simp_all

/-- One segment of a write that the driver takes: the account grows by its data. -/
theorem queueTransmission_taken
    (opened : (stack.socket i).state = .established ∨ (stack.socket i).state = .closeWait)
    (accepted : (stack.socket i).accepted = true) (nonempty : data ≠ [])
    (short : data.length ≤ transmitSegmentCapacity)
    (taken : (queueTransmission driver stack i (tcpAck ||| tcpPsh) data
      (stack.socket i).sendNext).1 = true) (others : ∀ j ≠ i, later j = accounts j)
    (account : later i = { accounts i with accepted := (accounts i).accepted ++ data }) :
    StackInvariant history later
      ((queueTransmission driver stack i (tcpAck ||| tcpPsh) data
        (stack.socket i).sendNext).2.advanceSend i data.length) := by
  have slot := invariant.slots i
  have synced : isSynchronized (stack.socket i).state = true := by
    rcases opened with state | state <;> rw [state] <;> rfl
  obtain ⟨unfinished, unacked, located⟩ := invariant.opened opened
  rcases queueTransmission_cases driver stack i (tcpAck ||| tcpPsh) data
      (stack.socket i).sendNext with
    same | ⟨-, refused⟩ | ⟨answer, place, pending, vacant, ofFlags, ofData, queued⟩
  · rw [same] at taken
    cases taken
  · rw [refused] at taken
    cases taken
  rw [queued]
  have handed := handed driver i stack (stack.socket i) (tcpAck ||| tcpPsh) data
    (stack.socket i).sendNext
  generalize sendSegment driver stack (some i) (stack.socket i) (tcpAck ||| tcpPsh) data
    (stack.socket i).sendNext = sent at answer handed
  have enqueued : Touches i sent.2
      (sent.2.enqueue place ⟨some i, (stack.socket i).sendNext⟩ pending) :=
    .enqueue (by rw [handed.transmissions, vacant]) (by rw [ofFlags]; decide) _
  have same : (sent.2.enqueue place ⟨some i, (stack.socket i).sendNext⟩
      pending).socket i = stack.socket i := handed.socket i
  simp only [advanceSend, same]
  refine invariant.touch ((handed.touches.trans enqueued).trans (.setSocket i _ _)) others
    (by rw [account]) ?_ ?_
  · rw [socket_setSocket_self, account, setSocket_pieces, pieces_enqueue, handed.pieces, ofData]
    refine (slot.extended synced accepted unfinished unacked ?_ nonempty short).tuned ?_ ?_
    · simp [Stack.pieces, pendingAt, vacant]
    · constructor <;> simp
    · exact ne_free_of_synchronized synced
  rw [socket_setSocket_self, account, setSocket_sentBy]
  change Recorded _ _ (sent.2.sentBy i _)
  rcases handed.log _ (invariant.begun i) with
    ⟨refused, -⟩ | ⟨segment, ofSocket, ofFlags, ofPayload, ofSequence, appended⟩
  · rw [refused] at answer
    cases answer
  rw [appended, answer, ← ofPayload]
  refine ((invariant.records i).extend ?_ ?_ ?_ ?_).congr id id
  · rcases opened with state | state <;> rw [state] <;> rfl
  · simp [Segment.isFirst, ofPayload, nonempty, ofSocket, ofSequence]
  · rw [ofSequence, located]
  · rw [ofFlags]
    decide

end

theorem queueTransmission_socket (driver : Nat → Bool) (stack : Stack)
    (i : Fin socketCapacity) (flags : UInt8) (payload : List UInt8) (sequence : UInt32) :
    (queueTransmission driver stack i flags payload sequence).2.socket i = stack.socket i := by
  rcases queueTransmission_cases driver stack i flags payload sequence with
    same | ⟨-, sent⟩ | ⟨-, place, pending, -, -, -, queued⟩
  · rw [same]
  · rw [sent]
    exact sendSegment_socket driver stack _ _ _ _ _ i
  · rw [queued]
    exact sendSegment_socket driver stack _ _ _ _ _ i

/-- A write goes through the input in segments.  `account` is the account before
the write, with the write entered; the bytes before `written` have been queued. -/
theorem writeLoop {account : Account} (available : Nat)
    (entered : (account.accepted.length, input) ∈ account.offers) (fuel : Nat) :
    ∀ {accounts : Fin socketCapacity → Account} {stack : Stack} (written : Nat),
      StackInvariant history accounts stack → written ≤ input.length →
      accounts i = { account with accepted := account.accepted ++ input.take written } →
      ((stack.socket i).state = .established ∨ (stack.socket i).state = .closeWait) →
      (stack.socket i).accepted = true →
      StackInvariant history
        (update accounts i
          { account with
            accepted := account.accepted ++ input.take
              (Stack.writeLoop driver i input available fuel stack written).1.size })
        (Stack.writeLoop driver i input available fuel stack written).2 := by
  induction fuel with
  | zero =>
    intro accounts stack written invariant _ now _ _
    simp only [Stack.writeLoop]
    rwa [← now, update_eq_self]
  | succ fuel ih =>
    intro accounts stack written invariant bound now opened accepted
    obtain ⟨-, -, located⟩ := invariant.opened opened
    simp only [Stack.writeLoop]
    split
    next more =>
      have pos : (stack.socket i).flow.peerMss.toNat ≠ 0 := fun zero =>
        (invariant.slots i).positive (UInt16.toNat_inj.mp zero)
      have capacity : transmitSegmentCapacity = 1024 := rfl
      generalize chosen : min (min (input.length - written) (available - written))
        (min transmitSegmentCapacity (stack.socket i).flow.peerMss.toNat) = count
      have length : ((input.drop written).take count).length = count := by
        rw [length_take, length_drop]
        omega
      split
      next taken =>
        have nonempty : (input.drop written).take count ≠ [] := by
          intro empty
          rw [empty] at length
          simp only [length_nil] at length
          omega
        have grown := invariant.queueTransmission_taken opened accepted nonempty
          (by omega) taken (fun j apart => update_of_ne apart _ accounts)
          (update_self i _ accounts)
        rw [length] at grown
        have next := ih (written + count) grown (by omega) ?_ ?_ ?_
        · rwa [update_idem] at next
        · rw [update_self, now, take_add, append_assoc]
        · simpa [advanceSend, queueTransmission_socket] using opened
        · simpa [advanceSend, queueTransmission_socket] using accepted
      rename_i refused
      have kept := invariant.queueTransmission_refused (fun segment ofSequence ofPayload => ?_)
        (by simpa using refused)
      · split
        · subst_vars
          simp only [take_zero, append_nil] at now ⊢
          rwa [← now, update_eq_self]
        · rwa [← now, update_eq_self]
      refine ⟨(account.accepted.length, input), ?_, written, ?_, ?_⟩
      · rw [now]
        exact entered
      · rw [ofSequence, located, now]
        simp [bound]
      · rw [ofPayload, length]
    · rwa [← now, update_eq_self]

theorem restartIdle (invariant : StackInvariant history accounts stack)
    (inUse : (stack.socket i).state ≠ .free) :
    StackInvariant history accounts (stack.restartIdle i) := by
  simp only [Stack.restartIdle]
  split
  · exact invariant.tune inUse (by constructor <;> simp)
  · exact invariant

theorem restartIdle_socket (stack : Stack) (i : Fin socketCapacity) :
    Tuned (stack.socket i) ((stack.restartIdle i).socket i) := by
  simp only [Stack.restartIdle]
  split
  · rw [socket_setSocket_self]
    constructor <;> simp
  · constructor <;> simp

theorem awaitWindow (invariant : StackInvariant history accounts stack)
    (inUse : (stack.socket i).state ≠ .free) :
    StackInvariant history accounts (stack.awaitWindow i) := by
  simp only [Stack.awaitWindow]
  split
  · exact invariant.tune inUse (by constructor <;> simp)
  · exact invariant

theorem socketWrite (invariant : StackInvariant history accounts stack) (now : UInt64)
    {handle : SocketHandle} (input : List UInt8)
    (granted : ∀ i, handle = some i → (stack.socket i).state ≠ .free → 0 < (accounts i).holders) :
    StackInvariant history
      (fun i => StackEvent.credit driver stack (.write now handle input) i (accounts i))
      (stack.socketWrite driver now handle input).2 := by
  have ticked : StackInvariant history accounts { stack with now } := invariant.congr rfl rfl rfl
  simp only [StackEvent.credit]
  cases handle with
  | none => exact ticked
  | some i =>
    have credited : ∀ size, (fun j => if some i = some j then
          { (accounts j).enter input with
            accepted := (accounts j).accepted ++ input.take size }
          else accounts j) =
        update (update accounts i ((accounts i).enter input)) i
          { (accounts i).enter input with
            accepted := (accounts i).accepted ++ input.take size } := by
      intro size
      funext j
      by_cases same : j = i
      · subst same
        simp
      · simp [same, Ne.symm same]
    rw [credited]
    have entered := ticked.enter i input
    have unwritten : ∀ {after : Stack},
        StackInvariant history (update accounts i ((accounts i).enter input)) after →
        StackInvariant history (update (update accounts i ((accounts i).enter input)) i
          { (accounts i).enter input with
            accepted := (accounts i).accepted ++ input.take 0 }) after := by
      intro after kept
      rw [update_idem, take_zero, append_nil]
      exact kept
    by_cases free : (stack.socket i).state = .free
    · have unresolved : stack.sockets.slot (some i) = none := if_pos free
      simp only [Stack.socketWrite, unresolved]
      exact unwritten entered
    have resolved : stack.sockets.slot (some i) = some (stack.socket i) := if_neg free
    have writable : stack.sockets.writable (some i) = true →
        (stack.socket i).state = .established ∨ (stack.socket i).state = .closeWait := by
      intro writable
      simp only [SocketTable.writable, resolved, Bool.and_eq_true, Bool.or_eq_true,
        decide_eq_true_eq] at writable
      exact writable.1
    have held := granted i rfl free
    simp only [Stack.socketWrite, resolved]
    split
    · exact unwritten entered
    split
    · exact unwritten entered
    split
    · exact unwritten entered
    next open_ _ =>
    have opened := writable (by simpa using open_)
    have accepted := (invariant.held held).2.2 (by rcases opened with state | state <;>
      rw [state] <;> rfl)
    have tuned := restartIdle_socket { stack with now } i
    have restarted : StackInvariant history (update accounts i ((accounts i).enter input))
        (Stack.restartIdle { stack with now } i) := entered.restartIdle free
    split
    · refine unwritten (restarted.awaitWindow ?_)
      rwa [tuned.state]
    refine writeLoop _ (mem_append_right _ (mem_singleton.mpr rfl)) _ 0 restarted
      (Nat.zero_le _) ?_ ?_ ?_
    · rw [update_self, take_zero, append_nil]
    · rwa [tuned.state]
    · rw [tuned.accepted]
      exact accepted.1

end StackInvariant
end Mikos.Network
