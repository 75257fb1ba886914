import Mikos.Network.Rounds

/-!
# The order of the socket table

No two connections have the same tuple and no two slots own the same port.  Every call keeps this
order.
-/

namespace Mikos.Network
open Library List SocketTable

/-- States of a slot that owns a local port. -/
def isNamed : SocketState → Bool
  | .bound | .listening => true
  | _ => false

/-- Two endpoints may serve the same address. -/
def Overlaps (left right : Endpoint) : Prop :=
  left.port = right.port ∧
    (unspecified left.address = true ∨ unspecified right.address = true ∨
      left.address = right.address)

theorem Valid.rename (valid : Valid value) (opened : isLocal value.state = true)
    (still : isLocal state = true) (localEnd : Endpoint) (backlog : UInt8) :
    Valid { value with state, localEnd, backlog } where
  flags := (flagsAgree_local still).mpr ((flagsAgree_local opened).mp valid.flags)
  free free := by
    rw [show state = .free from free] at still
    cases still
  orphan _ _ := by
    refine valid.orphan ?_ ?_ <;> cases held : value.state <;> simp_all [isLocal, isConnection]
  quiet _ := valid.quiet (isSynchronized_local opened).1

/-- Two slots are sides of connections with the same tuple. -/
def SameTuple (left right : SocketSlot) : Prop :=
  isConnection left.state = true ∧ isConnection right.state = true ∧
    left.localEnd = right.localEnd ∧ left.remoteEnd = right.remoteEnd

/-- Two slots own local ports that may serve the same address. -/
def SamePort (left right : SocketSlot) : Prop :=
  isNamed left.state = true ∧ isNamed right.state = true ∧ Overlaps left.localEnd right.localEnd

/-- No two slots of a table are in the relation. -/
def Distinct (relation : SocketSlot → SocketSlot → Prop) (table : SocketTable) : Prop :=
  ∀ left right, relation (table.slots left) (table.slots right) → left = right

/-- The slots of a table are told apart by their names.  Connections that nobody
accepted yet belong to a slot that still listens, under the port it owns. -/
structure Orderly (address : Ipv4Address) (table : SocketTable) : Prop where
  valid : ∀ index, Valid (table.slots index)
  connections : Distinct SameTuple table
  ports : Distinct SamePort table
  streams : ∀ index, isNamed (table.slots index).state = true →
    (table.slots index).type = .stream
  backlog : ∀ index, (table.slots index).state = .listening →
    (table.slots index).backlog.toNat ≤ 4
  waiting : ∀ index listener, table.backlogged (some listener) index = true →
    (table.slots listener).state = .listening ∧
      (table.slots index).localEnd = ⟨address, (table.slots listener).localEnd.port⟩
  pending : ∀ listener, table.pending (some listener) ≤ 4

theorem SameTuple.symm (same : SameTuple left right) : SameTuple right left :=
  ⟨same.2.1, same.1, same.2.2.1.symm, same.2.2.2.symm⟩

theorem SamePort.symm (same : SamePort left right) : SamePort right left := by
  obtain ⟨named, named', port, address⟩ := same
  refine ⟨named', named, port.symm, ?_⟩
  rcases address with first | second | same
  · exact .inr (.inl first)
  · exact .inl second
  · exact .inr (.inr same.symm)

/-- One slot changes, and no other slot is then in the relation with it. -/
theorem Distinct.renew {before after : SocketTable} (distinct : Distinct relation before)
    (symm : ∀ {left right}, relation left right → relation right left)
    (others : ∀ j ≠ i, after.slots j = before.slots j)
    (new : ∀ j ≠ i, ¬ relation (before.slots j) (after.slots i)) : Distinct relation after := by
  intro left right related
  by_cases isLeft : left = i <;> by_cases isRight : right = i
  · rw [isLeft, isRight]
  · subst isLeft
    rw [others right isRight] at related
    exact absurd (symm related) (new right isRight)
  · subst isRight
    rw [others left isLeft] at related
    exact absurd related (new left isLeft)
  · rw [others left isLeft, others right isRight] at related
    exact distinct left right related

/-- A slot changes without a new name. -/
structure Passes (before after : SocketSlot) : Prop where
  valid : Valid after
  connection : isConnection after.state = true → isConnection before.state = true ∧
    after.localEnd = before.localEnd ∧ after.remoteEnd = before.remoteEnd
  named : isNamed after.state = true → isNamed before.state = true ∧
    after.localEnd = before.localEnd ∧ after.type = before.type
  backlog : (before.state = .listening → before.backlog.toNat ≤ 4) →
    after.state = .listening → after.backlog.toNat ≤ 4
  waiting : ∀ listener, after.listener = some listener → after.accepted = false →
    before.listener = some listener ∧ before.accepted = false ∧
      after.localEnd = before.localEnd

/-- A slot changes without a new name, and listens on if it did. -/
structure Lasts (before after : SocketSlot) : Prop extends Passes before after where
  listening : before.state = .listening →
    after.state = .listening ∧ after.localEnd = before.localEnd

theorem Passes.freed (before : SocketSlot) : Passes before {} where
  valid := .default
  connection linked := by cases linked
  named named := by cases named
  backlog _ listening := by cases listening
  waiting _ mine := by cases mine

namespace Lasts
variable {before after : SocketSlot}

theorem refl (valid : Valid before) : Lasts before before :=
  ⟨⟨valid, fun linked => ⟨linked, rfl, rfl⟩, fun named => ⟨named, rfl, rfl⟩, id,
    fun _ listener unaccepted => ⟨listener, unaccepted, rfl⟩⟩, fun listening => ⟨listening, rfl⟩⟩

theorem ofKeeps (keeps : Keeps before after) : Lasts before after := by
  have identity := keeps.identity
  simp only [SocketSlot.identity, Prod.mk.injEq] at identity
  obtain ⟨type, localEnd, remoteEnd, listener, backlog, taken⟩ := identity
  have named : isNamed after.state = true → after.state = before.state := by
    rcases keeps.state with same | ⟨-, linked | closed⟩
    · exact fun _ => same
    · intro named
      cases state : after.state <;> simp_all [isNamed, isConnection]
    · rw [closed]
      intro named
      cases named
  refine ⟨⟨keeps.valid, fun linked => ?_, fun owns => ?_, fun bound listening => ?_,
    fun _ mine unaccepted => ?_⟩, fun listening => ?_⟩
  · exact ⟨keeps.state.connected linked, localEnd, remoteEnd⟩
  · exact ⟨by rw [← named owns]; exact owns, localEnd, type⟩
  · rw [backlog]
    exact bound (by rw [← named (by rw [listening]; rfl)]; exact listening)
  · exact ⟨by rw [← listener]; exact mine, by rw [← taken]; exact unaccepted, localEnd⟩
  · rcases keeps.state with same | ⟨linked, -⟩
    · exact ⟨same.trans listening, localEnd⟩
    · rw [listening] at linked
      cases linked

theorem ofOutcome (outcome : Outcome before after) : Lasts before after := by
  cases outcome with
  | develops develops => exact .ofKeeps develops.toKeeps
  | freed linked =>
    refine ⟨.freed before, fun listening => ?_⟩
    rw [listening] at linked
    cases linked

end Lasts

namespace SocketTable
variable {table : SocketTable} {i : Fin socketCapacity}

theorem portConflicts_false (apart : table.portConflicts (some i) endpoint = false)
    (different : j ≠ i) (named : isNamed (table.slots j).state = true)
    (stream : (table.slots j).type = .stream) : ¬ Overlaps (table.slots j).localEnd endpoint := by
  have missing := any_eq_false.mp apart j (mem_finRange j)
  have inUse : (table.slots j).state ≠ .free ∧ (table.slots j).state ≠ .control := by
    constructor <;> intro state <;> rw [state] at named <;> cases named
  rintro ⟨port, address⟩
  simp [different, stream, inUse, port] at missing
  rcases address with left | right | same
  · simp [left] at missing
  · simp [right] at missing
  · exact missing.2 same

theorem backlogged_iff : table.backlogged handle i = true ↔
      (table.slots i).listener = handle ∧ (table.slots i).accepted = false := by
  simp [backlogged]

theorem listener_some (found : table.listener endpoint = some i) :
    (table.slots i).state = .listening ∧ (table.slots i).localEnd.port = endpoint.port ∧
      (unspecified (table.slots i).localEnd.address = true ∨
        (table.slots i).localEnd.address = endpoint.address) := by
  have matched := find?_some found
  simpa [and_assoc] using matched

theorem connection_some (found : table.connection localEnd remoteEnd = some i) :
    isConnection (table.slots i).state = true ∧
      (table.slots i).localEnd = localEnd ∧ (table.slots i).remoteEnd = remoteEnd := by
  have matched := find?_some found
  simpa [and_assoc] using matched

theorem connection_none (missing : table.connection localEnd remoteEnd = none)
    (linked : isConnection (table.slots i).state = true)
    (named : (table.slots i).localEnd = localEnd) : (table.slots i).remoteEnd ≠ remoteEnd := by
  have unmatched := find?_eq_none.mp missing i (mem_finRange i)
  simpa [linked, named] using unmatched

end SocketTable

theorem countP_le_succ {indices : List (Fin socketCapacity)} (distinct : indices.Nodup)
    (implies : ∀ j ≠ i, left j = true → right j = true) :
    indices.countP left ≤ indices.countP right + 1 := by
  induction indices with
  | nil => simp
  | cons first rest ih =>
    rw [nodup_cons] at distinct
    by_cases same : first = i
    · subst same
      have rest : rest.countP left ≤ rest.countP right :=
        countP_mono_left fun j mem => implies j fun same => distinct.1 (same ▸ mem)
      simp only [countP_cons]
      split <;> omega
    have rest := ih distinct.2
    have here := implies first same
    simp only [countP_cons]
    split
    next counted => simp [here counted, rest]
    · omega

namespace Orderly
variable {address : Ipv4Address} {before after : SocketTable} {i : Fin socketCapacity}

theorem initial (address : Ipv4Address) : Orderly address {} where
  valid _ := .default
  connections _ _ same := by cases same.1
  ports _ _ same := by cases same.1
  streams _ named := by cases named
  backlog _ listening := by cases listening
  waiting _ _ backlogged := by simp [SocketTable.backlogged, invalidSocket] at backlogged
  pending listener := by
    have none : SocketTable.pending {} (some listener) = 0 :=
      countP_eq_zero.mpr fun i _ => by simp [SocketTable.backlogged, invalidSocket]
    rw [none]
    exact Nat.zero_le 4

section
variable (orderly : Orderly address before)
include orderly

/-- Changes that give no slot a new name, and take no listener from a connection
that waits for it. -/
theorem passes (passes : ∀ i, Passes (before.slots i) (after.slots i))
    (served : ∀ i listener, after.backlogged (some listener) i = true →
      (before.slots listener).state = .listening →
      (after.slots listener).state = .listening ∧
        (after.slots listener).localEnd = (before.slots listener).localEnd) :
    Orderly address after := by
  have backlogged : ∀ i listener, after.backlogged (some listener) i = true →
      before.backlogged (some listener) i = true ∧
        (after.slots i).localEnd = (before.slots i).localEnd := by
    intro i listener waits
    obtain ⟨mine, unaccepted⟩ := backlogged_iff.mp waits
    obtain ⟨mine, unaccepted, named⟩ := (passes i).waiting listener mine unaccepted
    exact ⟨backlogged_iff.mpr ⟨mine, unaccepted⟩, named⟩
  refine ⟨fun i => (passes i).valid, ?_, ?_, ?_, ?_, ?_, ?_⟩
  · rintro left right ⟨linked, linked', sameEnds⟩
    obtain ⟨linked, localLeft, remoteLeft⟩ := (passes left).connection linked
    obtain ⟨linked', localRight, remoteRight⟩ := (passes right).connection linked'
    rw [localLeft, localRight, remoteLeft, remoteRight] at sameEnds
    exact orderly.connections left right ⟨linked, linked', sameEnds⟩
  · rintro left right ⟨named, named', overlaps⟩
    obtain ⟨named, localLeft, -⟩ := (passes left).named named
    obtain ⟨named', localRight, -⟩ := (passes right).named named'
    rw [localLeft, localRight] at overlaps
    exact orderly.ports left right ⟨named, named', overlaps⟩
  · intro i named
    obtain ⟨named, -, type⟩ := (passes i).named named
    rw [type]
    exact orderly.streams i named
  · exact fun i => (passes i).backlog (orderly.backlog i)
  · intro i listener waits
    obtain ⟨waited, named⟩ := backlogged i listener waits
    obtain ⟨listening, child⟩ := orderly.waiting i listener waited
    obtain ⟨listening, localEnd⟩ := served i listener waits listening
    exact ⟨listening, by rw [named, localEnd, child]⟩
  · intro listener
    refine le_trans (countP_mono_left fun i _ waits => ?_) (orderly.pending listener)
    exact (backlogged i listener waits).1

theorem lasts (lasts : ∀ i, Lasts (before.slots i) (after.slots i)) : Orderly address after :=
  orderly.passes (fun i => (lasts i).toPasses) fun _ listener _ => (lasts listener).listening

theorem last (others : ∀ j ≠ i, after.slots j = before.slots j)
    (lasts : Lasts (before.slots i) (after.slots i)) : Orderly address after := by
  refine orderly.lasts fun j => ?_
  by_cases same : j = i
  · subst same
    exact lasts
  · rw [others j same]
    exact .refl (orderly.valid j)

/-- A slot that does not listen gets a name that no other slot has. -/
theorem renew (others : ∀ j ≠ i, after.slots j = before.slots j)
    (valid : Valid (after.slots i)) (silent : (before.slots i).state ≠ .listening)
    (connection : ∀ j ≠ i, ¬ SameTuple (before.slots j) (after.slots i))
    (port : ∀ j ≠ i, ¬ SamePort (before.slots j) (after.slots i))
    (named : isNamed (after.slots i).state = true →
      (after.slots i).type = .stream ∧ (after.slots i).state ≠ .listening)
    (waiting : ∀ listener, after.backlogged (some listener) i = true →
      (before.slots listener).state = .listening ∧
      (after.slots i).localEnd = ⟨address, (before.slots listener).localEnd.port⟩ ∧
      before.pending (some listener) < 4) : Orderly address after := by
  have backlogged : ∀ j listener, j ≠ i →
      after.backlogged (some listener) j = before.backlogged (some listener) j := by
    intro j listener apart
    rw [backlogged, backlogged, others j apart]
  have listens : ∀ listener, (before.slots listener).state = .listening → listener ≠ i := by
    rintro listener listening rfl
    exact silent listening
  refine ⟨fun j => ?_, orderly.connections.renew .symm others connection,
    orderly.ports.renew .symm others port, ?_, ?_, ?_, ?_⟩
  · by_cases same : j = i
    · exact same ▸ valid
    · rw [others j same]
      exact orderly.valid j
  · intro j owns
    by_cases same : j = i
    · subst same
      exact (named owns).1
    · rw [others j same] at owns ⊢
      exact orderly.streams j owns
  · intro j listening
    have apart : j ≠ i := by
      rintro rfl
      exact (named (by rw [listening]; rfl)).2 listening
    rw [others j apart] at listening ⊢
    exact orderly.backlog j listening
  · intro j listener waits
    by_cases same : j = i
    · subst same
      obtain ⟨listening, child, -⟩ := waiting listener waits
      rw [others listener (listens listener listening)]
      exact ⟨listening, child⟩
    · rw [backlogged j listener same] at waits
      obtain ⟨listening, child⟩ := orderly.waiting j listener waits
      rw [others j same, others listener (listens listener listening)]
      exact ⟨listening, child⟩
  intro listener
  by_cases waits : after.backlogged (some listener) i = true
  · have count : after.pending (some listener) ≤ before.pending (some listener) + 1 :=
      countP_le_succ (nodup_finRange socketCapacity) fun j apart waits => by
        rwa [← backlogged j listener apart]
    have room := (waiting listener waits).2.2
    omega
  · refine le_trans (countP_mono_left fun j _ waits' => ?_) (orderly.pending listener)
    have apart : j ≠ i := fun same => waits (same ▸ waits')
    rwa [← backlogged j listener apart]

end

/-- A new connection takes the only place its tuple can have. -/
theorem opens {listener : Fin socketCapacity} (orderly : Orderly address stack.sockets)
    (opens : Stack.Opens listener i localEnd remoteEnd stack opened)
    (missing : stack.sockets.connection localEnd remoteEnd = none)
    (here : localEnd.address = address) : Orderly address opened.sockets := by
  have identity := opens.identity
  simp only [SocketSlot.identity, Prod.mk.injEq, Stack.socket] at identity
  obtain ⟨-, localIs, remoteIs, listenerIs, -, -⟩ := identity
  have state : (opened.sockets.slots i).state = .synReceived := opens.state
  have free := allocate_free opens.vacant
  obtain ⟨listening, port, -⟩ := listener_some opens.serving
  have unnamed : isNamed (opened.sockets.slots i).state ≠ true := by simp [state, isNamed]
  refine orderly.renew opens.sockets opens.valid (by simp [free]) ?_
    (fun _ _ same => unnamed same.2.1) (fun named => absurd named unnamed) ?_
  · rintro j - ⟨linked, -, named, remote⟩
    rw [localIs] at named
    rw [remoteIs] at remote
    exact connection_none missing linked named remote
  intro owner waits
  have mine := (backlogged_iff.mp waits).1
  rw [listenerIs] at mine
  cases mine
  have room := opens.room
  have bound := orderly.backlog listener listening
  refine ⟨listening, ?_, lt_of_lt_of_le room bound⟩
  rw [localIs, port, ← here]

section
variable (orderly : Orderly address before)
include orderly

theorem «open» (type : SocketType) : Orderly address (before.open type).2 := by
  rcases before.open_cases type with same | ⟨i, free, opened⟩
  · rw [same]
    exact orderly
  rw [opened, (orderly.valid i).free free]
  refine orderly.last (fun j apart => setSlot_slots_of_ne apart _) ?_
  rw [setSlot_slots_self, (orderly.valid i).free free]
  cases type <;> refine ⟨⟨⟨?_, ?_, ?_, ?_⟩, ?_, ?_, ?_, ?_⟩, ?_⟩ <;>
    simp [FlagsAgree, isConnection, isNamed, invalidSocket]

theorem recount (inUse : (before.slots i).state ≠ .free) (references : UInt16) :
    Orderly address (before.setSlot i { before.slots i with references }) := by
  have valid := orderly.valid i
  refine orderly.last (fun j apart => setSlot_slots_of_ne apart _) ?_
  rw [setSlot_slots_self]
  exact .ofKeeps ⟨rfl, { valid with free := fun free => absurd free inUse },
    .inl rfl, fun free => absurd free inUse⟩

theorem retain (handle : SocketHandle) : Orderly address (before.retain handle).2 := by
  rcases before.retain_cases handle with same | ⟨i, -, inUse, -, retained⟩
  · rw [same]
    exact orderly
  · rw [retained]
    exact orderly.recount inUse _

theorem freed (freed : SocketTable.Freed before after i) : Orderly address after := by
  have untouched : ∀ j ≠ i, before.backlogged (some i) j = false →
      after.slots j = before.slots j := by
    intro j apart free
    rw [freed.others j apart, if_neg]
    rintro ⟨-, waits⟩
    rw [free] at waits
    cases waits
  refine orderly.passes (fun j => ?_) fun j listener waits listening => ?_
  · by_cases same : j = i
    · subst same
      rw [freed.self]
      exact .freed _
    · rw [freed.others j same]
      split
      · exact .freed _
      · exact (Lasts.refl (orderly.valid j)).toPasses
  -- A connection that still waits does not wait for the slot that is gone.
  have apart : j ≠ i := by
    rintro rfl
    simp [backlogged, freed.self, invalidSocket] at waits
  have remains : listener ≠ i := by
    rintro rfl
    have slot := freed.others j apart
    rw [backlogged, slot] at waits
    by_cases waited : before.backlogged (some listener) j = true
    · simp [listening, waited, invalidSocket] at waits
    · rw [if_neg fun both => waited both.2, ← backlogged] at waits
      exact waited waits
  have orphan : (before.slots listener).listener = invalidSocket :=
    (orderly.valid listener).orphan (by rw [listening]; rfl) (by rw [listening]; simp)
  rw [untouched listener remains (by simp [backlogged, orphan, invalidSocket])]
  exact ⟨listening, rfl⟩

variable (handle : SocketHandle)

theorem release : Orderly address (before.release handle).2 := by
  rcases before.release_cases handle with same | ⟨i, -, inUse, -, ⟨-, less⟩ | ⟨-, -, freed⟩⟩
  · rw [same]
    exact orderly
  · rw [less]
    exact orderly.recount inUse _
  · exact orderly.freed freed

theorem accept : Orderly address (before.accept handle).2 := by
  rcases before.accept_cases handle with ⟨-, same⟩ | ⟨i, -, acceptable, taken⟩
  · rw [same]
    exact orderly
  rw [taken]
  have valid := orderly.valid i
  have linked : isConnection (before.slots i).state = true := by
    simp only [SocketTable.acceptable, Bool.and_eq_true, Bool.or_eq_true,
      decide_eq_true_eq] at acceptable
    rcases acceptable.2 with (state | state) | state <;> rw [state] <;> rfl
  refine orderly.last (fun j apart => setSlot_slots_of_ne apart _) ?_
  rw [setSlot_slots_self]
  refine ⟨⟨{ valid with free := fun free => ?_ },
    fun still => ⟨still, rfl, rfl⟩, fun named => ⟨named, rfl, rfl⟩, id,
    fun _ _ unaccepted => ?_⟩, fun listening => ⟨listening, rfl⟩⟩
  · exact absurd free (Stack.ne_free_of_connection linked)
  · cases unaccepted

theorem bind (endpoint : Endpoint) : Orderly address (before.bind handle endpoint).2 := by
  rcases before.bind_cases handle endpoint with
    same | ⟨i, chosen, created, stream, apart, bound⟩
  · rw [same]
    exact orderly
  rw [bound]
  have opened : isLocal (before.slots i).state = true := by rw [created]; rfl
  have orphan := (orderly.valid i).orphan (by rw [created]; rfl) (by simp [created])
  refine orderly.renew (fun j different => setSlot_slots_of_ne different _)
    ?_ (by simp [created]) ?_ ?_ ?_ ?_ <;> rw [setSlot_slots_self]
  · exact (orderly.valid i).rename opened rfl _ _
  · rintro _ - ⟨-, linked, -⟩
    cases linked
  · rintro j different ⟨named, -, overlaps⟩
    exact portConflicts_false apart different named (orderly.streams j named) overlaps
  · exact fun _ => ⟨stream, by simp⟩
  · intro listener waits
    simp [backlogged, orphan, invalidSocket] at waits

theorem listen (backlog : UInt32) : Orderly address (before.listen handle backlog).2 := by
  rcases before.listen_cases handle backlog with same | ⟨i, room, ready, bound, listening⟩
  · rw [same]
    exact orderly
  rw [listening]
  have opened : isLocal (before.slots i).state = true := by
    rcases ready with state | state <;> rw [state] <;> rfl
  have named : isNamed (before.slots i).state = true := by
    rcases ready with state | state <;> rw [state] <;> rfl
  refine orderly.last (fun j apart => setSlot_slots_of_ne apart _) ?_
  rw [setSlot_slots_self]
  refine ⟨⟨(orderly.valid i).rename opened rfl _ _, fun linked => ?_,
    fun _ => ⟨named, rfl, rfl⟩, fun _ _ => bound, fun _ mine unaccepted => ?_⟩, fun _ => ⟨rfl, rfl⟩⟩
  · cases linked
  · exact ⟨mine, unaccepted, rfl⟩

end
end Orderly

end Mikos.Network
