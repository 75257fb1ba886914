import Mikos.Drivers.Block

/-!
# Runs of the block driver

As long as every call begins when the disk has completed all earlier requests, a call that
reports success was carried out.  Otherwise the completion of an earlier request can be taken
for that of the call.
-/

namespace Mikos.Drivers.Block
open Drivers List

/-! ## What a call asks for -/

namespace BlockCall

def header : BlockCall → Request
  | .readSectors sector _ _ => { type := 0, sector }
  | .writeSectors sector _ _ => { type := 1, sector }
  | .flush => { type := 4 }

def chain : BlockCall → List (Descriptor Place)
  | .readSectors _ output byteCount =>
    [SplitQueue.descriptor 8 .request Driver.sizeofRequest .deviceReads 1,
      SplitQueue.descriptor 8 (.buffer output) byteCount .deviceWrites 2,
      SplitQueue.descriptor 8 .status 1 .deviceWrites 8]
  | .writeSectors _ input byteCount =>
    [SplitQueue.descriptor 8 .request Driver.sizeofRequest .deviceReads 1,
      SplitQueue.descriptor 8 (.buffer input) byteCount .deviceReads 2,
      SplitQueue.descriptor 8 .status 1 .deviceWrites 8]
  | .flush =>
    [SplitQueue.descriptor 8 .request Driver.sizeofRequest .deviceReads 1,
      SplitQueue.descriptor 8 .status 1 .deviceWrites 8]

/-- What the disk should fetch for a call. -/
def job (call : BlockCall) (entry : Nat) : Job := ⟨entry, 0, call.header, call.chain⟩

/-- What a call should achieve: a buffer holds the sectors, the sectors hold the buffer, or all
is durable. -/
def Done (call : BlockCall) (contents : Contents) : Prop :=
  match call with
  | .readSectors sector output byteCount => ∀ offset < byteCount,
      contents.memory (output + offset) = contents.disk (sector * sectorSize + offset)
  | .writeSectors sector input byteCount => ∀ offset < byteCount,
      contents.disk (sector * sectorSize + offset) = contents.memory (input + offset)
  | .flush => contents.durable = contents.disk

end BlockCall

variable {system after : System} {call : BlockCall} {action : Action} {entry taken : Nat}
  {contents : Contents} {sectors : Nat} {flushSupported : Bool}

theorem copyBytes_apply {origin place length offset : Nat} (inside : offset < length) :
    copyBytes source target origin place length (place + offset) = source (origin + offset) := by
  rw [copyBytes, if_pos (by omega), Nat.add_sub_cancel_left]

theorem job_hasStatus (call : BlockCall) (entry : Nat) : (call.job entry).hasStatus = true := by
  cases call <;> rfl

theorem perform_done (call : BlockCall) (entry : Nat) (contents : Contents) :
    call.Done (contents.perform (call.job entry)) := by
  cases call with
  | readSectors sector output byteCount =>
    have buffer : ((BlockCall.readSectors sector output byteCount).job entry).buffer true =
        some (output, byteCount) := by
      simp [Job.buffer, BlockCall.job, BlockCall.chain, findSome?]
    rw [Contents.perform, buffer]
    exact fun offset inside => copyBytes_apply inside
  | writeSectors sector input byteCount =>
    have buffer : ((BlockCall.writeSectors sector input byteCount).job entry).buffer false =
        some (input, byteCount) := by
      simp [Job.buffer, BlockCall.job, BlockCall.chain, findSome?]
    rw [Contents.perform, buffer]
    exact fun offset inside => copyBytes_apply inside
  | flush => rfl

/-- The driver's memory describes a call that is not answered yet. -/
structure Describes (driver : Driver) (call : BlockCall) : Prop where
  request : driver.request = call.header
  chain : driver.queue.chain 8 0 = call.chain
  status : driver.status = 0xff

theorem describes_describing (driver : Driver) (call : BlockCall) :
    Describes ((Driver.describing call).foldl Driver.store driver) call := by
  refine ⟨?_, ?_, ?_⟩
  · cases call <;> rfl
  · cases call <;>
      simp [Driver.describing, Driver.transfer, Driver.store, SplitQueue.describe,
        SplitQueue.chain, BlockCall.chain, Function.update]
  · cases call <;> rfl

/-! ## The invariant -/

/-- A store that only the driver sees as long as nothing is offered. -/
def Store.Private : Store → Prop
  | .request _ | .status _ | .describe .. => True
  | _ => False

theorem describing_private (call : BlockCall) :
    ∀ store ∈ Driver.describing call, store.Private := by
  cases call <;> simp [Driver.describing, Driver.transfer, Store.Private]

/-- How far the disk has come with the entry of a call. -/
inductive Served (system : System) (call : BlockCall) (entry : Nat) : Prop where
  | waiting (described : Describes system.driver call) (fetched : system.fetched = entry)
      (pending : system.pending = []) (completed : system.log.length = entry)
  | serving (fetched : system.fetched = entry + 1) (pending : system.pending = [call.job entry])
      (completed : system.log.length = entry) (status : system.driver.status = 0xff)
  | served (older : List Completion) (fetched : system.fetched = entry + 1)
      (pending : system.pending = [])
      (log : system.log = ⟨call.job entry, system.driver.status⟩ :: older)
      (completed : older.length = entry)
      (done : system.phase ≠ .idle → system.phase ≠ .finished false →
        system.driver.status = 0 → call.Done system.contents)

/-- Nothing changed that the disk's progress depends on, nor what a running call relies on. -/
structure Unmoved (before after : System) : Prop where
  request : after.driver.request = before.driver.request
  descriptors : after.driver.queue.descriptors = before.driver.queue.descriptors
  status : after.driver.status = before.driver.status
  fetched : after.fetched = before.fetched
  pending : after.pending = before.pending
  log : after.log = before.log
  kept : after.phase ≠ .idle → after.phase ≠ .finished false → before.phase ≠ .idle ∧
    before.phase ≠ .finished false ∧ after.contents = before.contents

theorem Served.unmoved (served : Served system call entry) (unmoved : Unmoved system after) :
    Served after call entry := by
  cases served with
  | waiting described fetched pending completed =>
    refine .waiting ⟨?_, ?_, ?_⟩ (unmoved.fetched.trans fetched) (unmoved.pending.trans pending)
      (by rw [unmoved.log, completed])
    · rw [unmoved.request, described.request]
    · rw [SplitQueue.chain_congr unmoved.descriptors, described.chain]
    · rw [unmoved.status, described.status]
  | serving fetched pending completed status =>
    exact .serving (unmoved.fetched.trans fetched) (unmoved.pending.trans pending)
      (by rw [unmoved.log, completed]) (unmoved.status.trans status)
  | served older fetched pending log completed done =>
    refine .served older (unmoved.fetched.trans fetched) (unmoved.pending.trans pending)
      (by rw [unmoved.log, log, unmoved.status]) completed fun running answer success => ?_
    obtain ⟨running, answer, same⟩ := unmoved.kept running answer
    rw [same]
    exact done running answer (unmoved.status.symm.trans success)

/-- A call has offered its entry and takes nothing back yet. -/
def Phase.Waits : Phase → Prop
  | .storing stores => stores = [.notify] ∨ stores = []
  | .polling _ => True
  | _ => False

/-- A call has taken an entry back, or is over. -/
def Phase.Ends (status : UInt8) : Phase → Prop
  | .judging id => id = 0
  | .finished answer => answer = true → status = 0
  | .idle => True
  | _ => False

theorem Phase.Ends.of_ne_zero {phase : Phase} (ends : phase.Ends status) (failed : status ≠ 0) :
    phase.Ends status' := by
  cases phase with
  | finished answer => exact fun success => absurd (ends success) failed
  | judging id => exact ends
  | idle => trivial
  | storing stores => exact ends
  | polling spin => exact ends

/-- How far the last call has come. -/
inductive Stage (system : System) (taken : Nat) : Prop where
  | fresh (phase : system.phase.Ends 1) (rests : system.Rests) (offers : system.offers = 0)
      (fetched : system.fetched = 0) (pending : system.pending = []) (log : system.log = [])
  | describing (call : BlockCall) (stores : List Store)
      (phase : system.phase = .storing (stores ++ Driver.submit))
      (current : system.current = some (call, system.offers))
      (unseen : ∀ store ∈ stores, store.Private)
      (described : Describes (stores.foldl Driver.store system.driver) call)
      (fetched : system.fetched = system.offers) (pending : system.pending = [])
      (settled : system.Settled) (behind : system.offers ≤ taken + 1)
  | counting (call : BlockCall) (phase : system.phase = .storing [.index, .notify])
      (current : system.current = some (call, system.offers))
      (written : system.driver.queue.availableRing
        (system.driver.queue.availableIndex.toNat % 8) = 0)
      (described : Describes system.driver call)
      (fetched : system.fetched = system.offers) (pending : system.pending = [])
      (settled : system.Settled) (behind : system.offers ≤ taken + 1)
  | offered (call : BlockCall) (entry : Nat) (current : system.current = some (call, entry))
      (offers : system.offers = entry + 1) (served : Served system call entry)
      (place : (system.phase.Waits ∧ entry ≤ taken + 1) ∨
        (system.phase.Ends system.driver.status ∧ entry ≤ taken))

/-- What the rings stand for. -/
def System.books (system : System) (taken : Nat) : SplitQueue.Books where
  offered := replicate system.offers 0
  fetched := system.fetched
  returned := system.log.reverse.map fun completion => ⟨completion.job.head.toUInt32, 1⟩
  taken := taken

/-- The driver and the disk agree, and only one entry is under way at a time. -/
structure Orderly (system : System) (taken : Nat) : Prop where
  keeps : SplitQueue.Keeps system.driver.queue system.seenAvailable (system.books taken)
  heads : ∀ completion ∈ system.log,
    completion.job.head = 0 ∧ completion.job.entry < system.log.length
  stage : Stage system taken

theorem orderly_initial : Orderly (System.initial sectors flushSupported contents) 0 where
  keeps := SplitQueue.Keeps.start (by decide) (by decide)
  heads := by simp [System.initial]
  stage := .fresh trivial trivial rfl rfl rfl rfl

theorem Orderly.nextAvailable_eq_none (orderly : Orderly system taken)
    (all : system.fetched = system.offers) :
    system.driver.queue.nextAvailable system.seenAvailable = none := by
  rw [orderly.keeps.nextAvailable_eq_none_iff]
  simp [System.books, all]

/-! ## Steps of the disk -/

theorem Orderly.fetch (orderly : Orderly system taken) (fetched : system.fetch = some after) :
    Orderly after taken := by
  rw [System.fetch] at fetched
  split at fetched
  next head ready =>
    cases fetched
    have unfetched : system.fetched ≠ system.offers := fun all => by
      rw [orderly.nextAvailable_eq_none all] at ready
      cases ready
    obtain ⟨found, keeps⟩ := orderly.keeps.fetch ready
    have zero : head = 0 := eq_of_mem_replicate (mem_of_getElem? found)
    refine ⟨keeps, orderly.heads, ?_⟩
    cases orderly.stage with
    | fresh phase rests offers none => omega
    | describing call stores phase current unseen described all
    | counting call phase current written described all => exact absurd all unfetched
    | offered call entry current offers served place =>
      refine .offered call entry current offers ?_ place
      cases served with
      | serving all => omega
      | served older all => omega
      | waiting described fetched pending completed =>
        refine .serving (by rw [← fetched]) ?_ completed described.status
        subst zero
        have chain : system.driver.queue.chain 8 (0 : UInt16).toNat = call.chain := described.chain
        rw [pending, chain, described.request, fetched]
        cases call <;> rfl
  · cases fetched

theorem Orderly.respond (orderly : Orderly system taken) {status : UInt8}
    (responded : system.respond status effect = some after)
    (done : ∀ (call : BlockCall) (entry : Nat), status = 0 → call.Done (effect (call.job entry))) :
    Orderly after taken := by
  rw [System.respond] at responded
  split at responded
  next job rest waiting =>
    cases responded
    cases orderly.stage with
    | fresh phase rests offers none pending
    | describing call stores phase current unseen described all pending
    | counting call phase current written described all pending => cases pending.symm.trans waiting
    | offered call entry current offers served place =>
      cases served with
      | waiting described fetched pending
      | served older fetched pending => cases pending.symm.trans waiting
      | serving fetched pending completed unanswered =>
        cases pending.symm.trans waiting
        have behind : entry ≤ taken + 1 := by
          rcases place with ⟨-, behind⟩ | ⟨-, behind⟩ <;> omega
        refine ⟨?_, ?_, ?_⟩
        · have room : (system.books taken).returned.length < (system.books taken).taken + 8 := by
            simp only [System.books, length_map, length_reverse]
            omega
          have keeps := orderly.keeps.publish room ⟨(call.job entry).head.toUInt32, 1⟩
          simpa [System.books] using keeps
        · intro completion mem
          rcases mem_cons.mp mem with rfl | mem
          · exact ⟨rfl, by simp [BlockCall.job, completed]⟩
          · have earlier := orderly.heads completion mem
            exact ⟨earlier.1, Nat.lt_succ_of_lt earlier.2⟩
        refine .offered call entry current offers ?_ ?_
        · refine .served system.log fetched rfl ?_ completed ?_
          · rw [job_hasStatus, if_pos rfl]
          · rw [job_hasStatus, if_pos rfl]
            exact fun _ _ => done call entry
        rw [job_hasStatus, if_pos rfl]
        rcases place with waits | ⟨ends, behind⟩
        · exact .inl waits
        · refine .inr ⟨ends.of_ne_zero ?_, behind⟩
          rw [unanswered]
          decide
  · cases responded

/-! ## Steps of the driver -/

theorem Stage.behind (stage : Stage system taken) (rests : system.Rests) :
    system.offers ≤ taken + 1 := by
  cases stage with
  | fresh phase rests offers => omega
  | describing call stores phase
  | counting call phase => simp [System.Rests, phase] at rests
  | offered call entry current offers served place =>
    rcases place with ⟨waits, -⟩ | ⟨-, behind⟩
    · rw [System.Rests] at rests
      revert waits rests
      cases system.phase <;> simp [Phase.Waits]
    · omega

section
variable (orderly : Orderly system taken)
include orderly

theorem Orderly.settled (settled : system.Settled) :
    system.fetched = system.offers ∧ system.pending = [] := by
  rw [System.Settled] at settled
  cases orderly.stage with
  | fresh phase rests offers fetched pending log => exact ⟨fetched.trans offers.symm, pending⟩
  | describing call stores phase current unseen described fetched pending
  | counting call phase current written described fetched pending => exact ⟨fetched, pending⟩
  | offered call entry current offers served place =>
    cases served with
    | waiting described fetched pending completed => omega
    | serving fetched pending completed => omega
    | served older fetched pending => exact ⟨by omega, pending⟩

/-- While no call runs, the last one may count as failed or as over, with other contents. -/
theorem Orderly.closed (rests : system.Rests) (contents : Contents)
    (idle : phase = .idle ∨ phase = .finished false) :
    Orderly { system with phase, contents } taken := by
  have ends {status : UInt8} : phase.Ends status := by
    rcases idle with rfl | rfl
    · trivial
    · nofun
  refine ⟨orderly.keeps, orderly.heads, ?_⟩
  have behind := orderly.stage.behind rests
  cases orderly.stage with
  | fresh _ _ offers fetched pending log =>
    exact .fresh ends (by rcases idle with rfl | rfl <;> trivial) offers fetched pending log
  | describing call stores phase
  | counting call phase => simp [System.Rests, phase] at rests
  | offered call entry current offers served place =>
    refine .offered call entry current offers ?_ (.inr ⟨ends, by omega⟩)
    exact served.unmoved ⟨rfl, rfl, rfl, rfl, rfl, rfl, fun running failed =>
      absurd (idle.resolve_left running) failed⟩

theorem Orderly.start (rests : system.Rests)
    (careful : system.driver.Accepts call → system.Settled) :
    Orderly (system.start call) taken := by
  rw [System.start]
  split
  next accepted =>
    have settled := careful accepted
    obtain ⟨fetched, pending⟩ := orderly.settled settled
    exact ⟨orderly.keeps, orderly.heads, .describing call _ rfl rfl (describing_private call)
      (describes_describing _ call) fetched pending settled (orderly.stage.behind rests)⟩
  · exact orderly.closed rests _ (.inr rfl)

end

theorem store_private {driver : Driver} {store : Store} (unseen : store.Private) :
    (driver.store store).queue.availableRing = driver.queue.availableRing ∧
      (driver.store store).queue.availableIndex = driver.queue.availableIndex ∧
      (driver.store store).queue.usedRing = driver.queue.usedRing ∧
      (driver.store store).queue.usedIndex = driver.queue.usedIndex ∧
      (driver.store store).queue.seenUsed = driver.queue.seenUsed ∧ store ≠ .index := by
  cases store <;> simp_all [Store.Private, Driver.store, SplitQueue.describe]

section
variable (orderly : Orderly system taken)
include orderly

/-- A call that has offered its entry goes on in another phase. -/
theorem Orderly.rephase (running : ¬ system.Rests)
    (short : ∀ stores, system.phase = .storing stores → stores.length < 2)
    (waits : system.phase.Waits → phase.Waits)
    (ends : system.phase.Ends system.driver.status → phase.Ends system.driver.status) :
    Orderly { system with phase } taken := by
  refine ⟨orderly.keeps, orderly.heads, ?_⟩
  cases orderly.stage with
  | fresh _ rests => exact absurd rests running
  | describing call stores other =>
    have few := short _ other
    simp only [Driver.submit, length_append, length_cons, length_nil] at few
    omega
  | counting call other => exact absurd (short _ other) (by simp)
  | offered call entry current offers served place =>
    refine .offered call entry current offers (served.unmoved ⟨rfl, rfl, rfl, rfl, rfl, rfl,
      fun _ _ => ⟨fun idle => ?_, fun failed => ?_, rfl⟩⟩) ?_
    · exact running (by simp [System.Rests, idle])
    · exact running (by simp [System.Rests, failed])
    · exact place.imp (fun placed => ⟨waits placed.1, placed.2⟩) fun placed =>
        ⟨ends placed.1, placed.2⟩

theorem Orderly.poll (phase : system.phase = .polling spin) :
    ∃ taken, Orderly (system.poll spin) taken := by
  cases orderly.stage with
  | fresh ends rests => simp [System.Rests, phase] at rests
  | describing call stores other
  | counting call other => cases phase.symm.trans other
  | offered call entry current offers served place =>
    have behind : entry ≤ taken + 1 := by
      rcases place with ⟨-, behind⟩ | ⟨-, behind⟩ <;> omega
    have running : system.phase ≠ .idle ∧ system.phase ≠ .finished false := by simp [phase]
    rw [System.poll]
    split
    next element ready =>
      obtain ⟨found, keeps⟩ := orderly.keeps.take ready
      refine ⟨taken + 1, keeps, orderly.heads, .offered call entry current offers ?_ ?_⟩
      · refine served.unmoved ⟨rfl, ?_, rfl, rfl, rfl, rfl, fun _ _ =>
          ⟨running.1, running.2, rfl⟩⟩
        rw [SplitQueue.take]
        split <;> rfl
      obtain ⟨completion, mem, same⟩ := mem_map.mp (mem_of_getElem? found)
      refine .inr ⟨?_, by omega⟩
      have head := (orderly.heads completion (mem_reverse.mp mem)).1
      rw [← same, head]
      rfl
    rename_i none
    have all := orderly.keeps.completion_eq_none_iff.mp none
    simp only [System.books, length_map, length_reverse] at all
    split
    · exact ⟨taken, orderly.rephase (by simp [System.Rests, phase]) (by simp [phase])
        (fun _ => trivial) (by rw [phase]; exact False.elim)⟩
    refine ⟨taken, orderly.keeps, orderly.heads, .offered call entry current offers ?_ ?_⟩
    · exact served.unmoved ⟨rfl, rfl, rfl, rfl, rfl, rfl, fun _ failed => absurd rfl failed⟩
    -- All that was returned is taken, and no earlier entry is under way.
    refine .inr ⟨(Bool.noConfusion ·), ?_⟩
    cases served with
    | waiting described fetched pending completed => omega
    | serving fetched pending completed => omega
    | served older fetched pending log completed =>
      rw [log, length_cons] at all
      omega

theorem Orderly.advance (advanced : system.advance = some after) :
    ∃ taken, Orderly after taken := by
  rw [System.advance] at advanced
  split at advanced
  · cases advanced
  · cases advanced
  next phase =>
    cases advanced
    exact ⟨taken, orderly.rephase (by simp [System.Rests, phase]) (by simp [phase])
      (fun _ => trivial) (by rw [phase]; exact False.elim)⟩
  next store rest phase =>
    cases advanced
    refine ⟨taken, ?_⟩
    cases orderly.stage with
    | fresh ends rests => simp [System.Rests, phase] at rests
    | describing call stores other current unseen described fetched pending settled behind =>
      have same := phase.symm.trans other
      cases stores with
      | nil =>
        -- The entry is written before it is counted.
        rw [nil_append, Driver.submit] at same
        cases same
        have room : (system.books taken).offered.length < (system.books taken).fetched + 8 := by
          simp only [System.books, length_replicate]
          omega
        refine ⟨orderly.keeps.offerEntry room 0, orderly.heads, .counting call rfl current ?_
          ⟨described.request, ?_, described.status⟩ fetched pending settled behind⟩
        · exact Function.update_self ..
        · exact described.chain
      | cons first others =>
        cases same
        obtain ⟨ring, i, usedRing, usedIndex, seenUsed, counted⟩ :=
          @store_private system.driver store (unseen store mem_cons_self)
        rw [if_neg counted]
        refine ⟨⟨?_, ?_⟩, orderly.heads, .describing call others rfl current ?_ described
          fetched pending settled behind⟩
        · have available := orderly.keeps.available
          rw [← ring, ← i] at available
          exact available
        · have used := orderly.keeps.used
          rw [← usedRing, ← usedIndex, ← seenUsed] at used
          exact used
        · exact fun store mem => unseen store (mem_cons_of_mem _ mem)
    | counting call other current written described fetched pending settled behind =>
      cases phase.symm.trans other
      have room : (system.books taken).offered.length < (system.books taken).fetched + 8 := by
        simp only [System.books, length_replicate]
        omega
      have keeps := orderly.keeps.offerIndex room written
      refine ⟨?_, orderly.heads, .offered call system.offers current rfl ?_ ?_⟩
      · rw [if_pos rfl]
        simpa [System.books, Driver.store, replicate_succ'] using keeps
      · exact .waiting { described with } fetched pending settled
      · exact .inl ⟨.inl rfl, behind⟩
    | offered call entry current offers served place =>
      have last : store = .notify ∧ rest = [] := by
        rcases place with ⟨waits, -⟩ | ⟨ends, -⟩
        · simpa [phase, Phase.Waits] using waits
        · rw [phase] at ends
          exact ends.elim
      obtain ⟨rfl, rfl⟩ := last
      exact orderly.rephase (by simp [System.Rests, phase]) (by simp [phase])
        (fun _ => .inr rfl) (by rw [phase]; exact False.elim)
  next spin phase =>
    cases advanced
    exact orderly.poll phase
  rename_i id phase
  cases advanced
  refine ⟨taken, orderly.rephase (by simp [System.Rests, phase]) (by simp [phase])
    (by simp [phase, Phase.Waits]) fun _ success => ?_⟩
  simp only [Bool.and_eq_true, beq_iff_eq] at success
  exact success.2

end

/-! ## Runs -/

/-- What happens from one state to another, with what is allowed in between. -/
inductive Run (Allowed : System → Action → Prop) (first : System) : System → Prop where
  | refl : Run Allowed first first
  | step {system after : System} {action : Action} (run : Run Allowed first system)
      (acted : system.act action = some after) (allowed : Allowed system action) :
      Run Allowed first after

/-- A call begins only when the disk has completed whatever was offered before. -/
def Careful (system : System) (action : Action) : Prop :=
  ∀ call, action = .call call → system.driver.Accepts call → system.Settled

/-- No other call begins. -/
def Continues (_ : System) (action : Action) : Prop := ∀ call, action ≠ .call call

/-- The last call was carried out: the disk has completed its very request with success, and
what it asked for is achieved. -/
def Fulfilled (system : System) : Prop :=
  ∃ call entry, system.current = some (call, entry) ∧ ⟨call.job entry, 0⟩ ∈ system.log ∧
    call.Done system.contents

theorem Orderly.act (orderly : Orderly system taken) (acted : system.act action = some after)
    (careful : Careful system action) : ∃ taken, Orderly after taken := by
  cases action with
  | call call =>
    rw [System.act] at acted
    split at acted
    next rests =>
      cases acted
      exact ⟨taken, orderly.start rests (careful call rfl)⟩
    · cases acted
  | advance => exact orderly.advance acted
  | fetch => exact ⟨taken, orderly.fetch acted⟩
  | complete => exact ⟨taken, orderly.respond acted fun call entry _ => perform_done call entry _⟩
  | fail status contents =>
    rw [System.act] at acted
    split at acted
    · cases acted
    next failed =>
      exact ⟨taken, orderly.respond acted fun call entry success => absurd success failed⟩
  | prepare memory =>
    rw [System.act] at acted
    split at acted
    next rests =>
      cases acted
      exact ⟨taken, orderly.closed rests _ (.inl rfl)⟩
    · cases acted

/-- Driver and device stay in step over every run. -/
theorem Run.orderly (orderly : Orderly first taken) (run : Run Careful first system) :
    ∃ taken, Orderly system taken := by
  induction run with
  | refl => exact ⟨taken, orderly⟩
  | step run acted careful ih =>
    obtain ⟨taken, orderly⟩ := ih
    exact orderly.act acted careful

theorem Orderly.fulfilled (orderly : Orderly system taken)
    (success : system.phase = .finished true) : Fulfilled system := by
  cases orderly.stage with
  | fresh ends =>
    rw [success] at ends
    exact absurd (ends rfl) (by decide)
  | describing call stores other
  | counting call other => cases success.symm.trans other
  | offered call entry current offers served place =>
    have status : system.driver.status = 0 := by
      rcases place with ⟨waits, -⟩ | ⟨ends, -⟩
      · rw [success] at waits
        exact waits.elim
      · rw [success] at ends
        exact ends rfl
    cases served with
    | waiting described => cases described.status.symm.trans status
    | serving fetched pending completed unanswered => cases unanswered.symm.trans status
    | served older fetched pending log completed done =>
      refine ⟨call, entry, current, ?_, done ?_ ?_ status⟩
      · rw [log, status]
        exact mem_cons_self
      · rw [success]
        nofun
      · rw [success]
        nofun

theorem Run.trans (run : Run Allowed first system) (later : Run Allowed system after) :
    Run Allowed first after := by
  induction later with
  | refl => exact run
  | step later acted allowed ih => exact .step ih acted allowed

theorem Run.mono (run : Run Allowed first system)
    (weaker : ∀ system action, Allowed system action → Allowed' system action) :
    Run Allowed' first system := by
  induction run with
  | refl => exact .refl
  | step run acted allowed ih => exact .step ih acted (weaker _ _ allowed)

theorem Continues.careful (continues : Continues system action) : Careful system action :=
  fun call same => absurd same (continues call)

/-! ## The late completion -/

theorem run_stores {stores : List Store} (phase : system.phase = .storing stores) :
    ∃ after, Run Continues system after ∧ after.phase = .polling 0 ∧
      after.current = system.current ∧
      after.driver = stores.foldl Driver.store system.driver ∧
      after.seenAvailable = system.seenAvailable ∧ after.fetched = system.fetched ∧
      after.pending = system.pending ∧ after.log = system.log := by
  induction stores generalizing system with
  | nil =>
    refine ⟨{ system with phase := .polling 0 }, .step .refl (?_ : system.act .advance = _) nofun,
      rfl, rfl, rfl, rfl, rfl, rfl, rfl⟩
    rw [System.act, System.advance, phase]
  | cons store rest ih =>
    let next : System :=
      { system with
        driver := system.driver.store store
        offers := if store = .index then system.offers + 1 else system.offers
        phase := .storing rest }
    have acted : system.act .advance = some next := by rw [System.act, System.advance, phase]
    obtain ⟨after, run, same⟩ := @ih next rfl
    exact ⟨after, (Run.step .refl acted nofun).trans run, same⟩

theorem foldl_store_used (stores : List Store) (driver : Driver) :
    (stores.foldl Driver.store driver).queue.usedRing = driver.queue.usedRing ∧
      (stores.foldl Driver.store driver).queue.usedIndex = driver.queue.usedIndex ∧
      (stores.foldl Driver.store driver).queue.seenUsed = driver.queue.seenUsed := by
  induction stores generalizing driver with
  | nil => exact ⟨rfl, rfl, rfl⟩
  | cons store rest ih =>
    obtain ⟨ring, i, seen⟩ := ih (driver.store store)
    rw [foldl_cons, ring, i, seen]
    cases store <;> exact ⟨rfl, rfl, rfl⟩

section
variable (orderly : Orderly system taken)
include orderly

/-- A request that the disk has fetched is completed when the next call has just offered its
own, which then takes the completion for its own. -/
theorem Orderly.late (accepted : system.driver.Accepts call)
    {job : Job} (pending : system.pending = [job]) (status : job.hasStatus = true)
    (head : job.head = 0) (few : system.log.length ≤ taken + 1) :
    ∃ after, Run Continues (system.start call) after ∧ after.phase = .finished true ∧
      after.current = some (call, system.offers) ∧ after.log = ⟨job, 0⟩ :: system.log := by
  rw [System.start, if_pos accepted]
  obtain ⟨offered, stored, polling, current, driver, -, -, waiting, log⟩ :=
    @run_stores { system with
      phase := .storing (Driver.describing call ++ Driver.submit)
      current := some (call, system.offers) } _ rfl
  obtain ⟨ring, i, seen⟩ := foldl_store_used (Driver.describing call ++ Driver.submit) system.driver
  rw [← driver] at ring i seen
  -- The disk answers the earlier request.
  let answered : System :=
    { offered with
      driver :=
        { offered.driver with
          status := 0
          queue := offered.driver.queue.publish ⟨job.head.toUInt32, 1⟩ }
      pending := []
      log := ⟨job, 0⟩ :: offered.log
      contents := offered.contents.perform job }
  have completed : offered.act .complete = some answered := by
    rw [System.act, System.respond, waiting, pending]
    simp only [status, if_true, answered]
  -- The call takes an entry, which is the first for every call.
  have carried := orderly.keeps.used
  rw [← ring, ← i, ← seen] at carried
  have used := carried.append (by simp [System.books]; omega) ⟨job.head.toUInt32, 1⟩
  have behind : taken < ((system.books taken).returned ++
      [(⟨job.head.toUInt32, 1⟩ : UsedElement)]).length := by
    rw [length_append, length_singleton]
    exact Nat.lt_succ_of_le carried.order
  have apart : answered.driver.queue.seenUsed ≠ answered.driver.queue.usedIndex :=
    fun same => Nat.ne_of_lt behind (used.seen_eq_index_iff.mp same)
  have first : (answered.driver.queue.usedRing
      (answered.driver.queue.seenUsed.toNat % 8)).id = 0 := by
    have mem := mem_of_getElem? (used.take behind).1
    rcases mem_append.mp mem with returned | last
    · obtain ⟨completion, inside, same⟩ := mem_map.mp returned
      have zero := (orderly.heads completion (mem_reverse.mp inside)).1
      have id := congrArg UsedElement.id same
      rw [zero] at id
      exact id.symm
    · have id := congrArg UsedElement.id (mem_singleton.mp last)
      exact id.trans (by rw [head]; rfl)
  let taking : System :=
    { answered with
      driver := { answered.driver with queue := answered.driver.queue.take }
      phase := .judging 0 }
  have taken : answered.act .advance = some taking := by
    have phase : answered.phase = .polling 0 := polling
    rw [System.act, System.advance, phase]
    simp only [System.poll, SplitQueue.completion, if_neg apart, first, taking]
  let last : System := { taking with phase := .finished true }
  have judged : taking.act .advance = some last := rfl
  refine ⟨last, ?_, rfl, current, congrArg _ log⟩
  have continues : Continues answered .advance := fun _ same => Action.noConfusion same
  exact .step (.step (.step stored completed fun _ same => Action.noConfusion same) taken
    continues) judged continues

theorem Orderly.late_of_fetched (rests : system.Rests) (accepted : system.driver.Accepts call)
    (unsettled : ¬ system.Settled) (all : system.fetched = system.offers) :
    ∃ after, Run Continues (system.start call) after ∧ after.phase = .finished true ∧
      ¬ Fulfilled after := by
  have behind := orderly.stage.behind rests
  cases orderly.stage with
  | fresh ends rests offers fetched pending log =>
    exact absurd (by rw [System.Settled, log, offers]; rfl) unsettled
  | describing call stores phase
  | counting call phase => simp [System.Rests, phase] at rests
  | offered previous entry current offers served place =>
    cases served with
    | waiting described fetched => omega
    | served older fetched pending log completed =>
      exact absurd (by rw [System.Settled, log, offers, length_cons, completed]) unsettled
    | serving fetched pending completed status =>
      obtain ⟨after, run, success, same, log⟩ :=
        orderly.late accepted pending (job_hasStatus ..) rfl (by omega)
      refine ⟨after, run, success, ?_⟩
      rintro ⟨call, own, other, mem, -⟩
      cases same.symm.trans other
      -- The call's own request is not even fetched.
      have earlier : ∀ completion ∈ after.log, completion.job.entry < system.offers := by
        intro completion inside
        rw [log] at inside
        rcases mem_cons.mp inside with rfl | inside
        · change entry < system.offers
          omega
        · have bound := (orderly.heads completion inside).2
          omega
      exact absurd (earlier _ mem) (Nat.lt_irrefl _)

/-- At most one entry that was offered is not fetched. -/
theorem Orderly.offers_of_ne (some : system.fetched ≠ system.offers) :
    system.offers = system.fetched + 1 := by
  cases orderly.stage with
  | fresh ends rests offers fetched => omega
  | describing call stores phase current unseen described fetched
  | counting call phase current written described fetched => exact absurd fetched some
  | offered call entry current offers served place =>
    cases served with
    | waiting described fetched => omega
    | serving fetched => omega
    | served older fetched => omega

end

theorem fetch_start : (system.start call).fetch = system.fetch.map fun next => next.start call := by
  rw [System.start]
  split
  next taken =>
    rw [System.fetch, System.fetch]
    dsimp only
    split
    · simp [System.start, taken]
    · rfl
  rename_i refused
  rw [System.fetch, System.fetch]
  dsimp only
  split
  · simp [System.start, refused]
  · rfl

/-- A call that begins while a request is under way can report success without being done. -/
theorem Orderly.late_of_not_settled (orderly : Orderly system taken) (rests : system.Rests)
    (accepted : system.driver.Accepts call) (unsettled : ¬ system.Settled) :
    ∃ after, Run Continues (system.start call) after ∧ after.phase = .finished true ∧
      ¬ Fulfilled after := by
  by_cases all : system.fetched = system.offers
  · exact orderly.late_of_fetched rests accepted unsettled all
  -- The disk fetches the earlier request before the call changes anything.
  cases found : system.fetch with
  | none =>
    have none : system.driver.queue.nextAvailable system.seenAvailable = none := by
      rw [System.fetch] at found
      split at found
      · cases found
      next none => exact none
    rw [orderly.keeps.nextAvailable_eq_none_iff] at none
    exact absurd (by simpa [System.books] using none) all
  | some next =>
    have acted : (system.start call).act .fetch = some (next.start call) := by
      rw [System.act, fetch_start, found]
      rfl
    have later := orderly.fetch found
    have same : next.driver = system.driver ∧ next.phase = system.phase ∧
        next.offers = system.offers ∧ next.log = system.log ∧
        next.fetched = system.fetched + 1 := by
      rw [System.fetch] at found
      split at found
      · cases found
        exact ⟨rfl, rfl, rfl, rfl, rfl⟩
      · cases found
    obtain ⟨driver, phase, offers, log, fetched⟩ := same
    obtain ⟨after, run, result⟩ :=
      @Orderly.late_of_fetched next call taken later (by rwa [System.Rests, phase])
        (by rwa [driver]) (by rwa [System.Settled, log, offers])
        (by rw [fetched, offers, orderly.offers_of_ne all])
    exact ⟨after, (Run.step .refl acted nofun).trans run, result⟩

/-! ## Main result -/

/-- In every run whose calls all begin when the disk has completed whatever was offered, a call
that reports success was carried out by the disk; and in each state reached this is so for the
next call, whatever the disk does, exactly if all is completed when it begins. -/
theorem requests_done_when_settled
    (run : Run Careful (System.initial sectors flushSupported contents) system) :
    (system.phase = .finished true → Fulfilled system) ∧
      ∀ call, system.Rests → system.driver.Accepts call →
        ((∀ after, Run Continues (system.start call) after → after.phase = .finished true →
          Fulfilled after) ↔ system.Settled) := by
  obtain ⟨taken, orderly⟩ := run.orderly orderly_initial
  refine ⟨orderly.fulfilled, fun call rests accepted => ⟨fun always => ?_, fun settled => ?_⟩⟩
  · by_contra unsettled
    obtain ⟨after, later, success, unfulfilled⟩ :=
      orderly.late_of_not_settled rests accepted unsettled
    exact unfulfilled (always after later success)
  · intro after later success
    have started : Orderly (system.start call) taken := orderly.start rests fun _ => settled
    obtain ⟨taken, orderly⟩ := (later.mono fun _ _ => Continues.careful).orderly started
    exact orderly.fulfilled success

/-! ## A call that timed out -/

/-- A call that polls while nothing is returned gives up in the end. -/
theorem run_polls {spin left : Nat} (phase : system.phase = .polling spin)
    (none : system.driver.queue.completion = none) (limit : spin + left + 1 = Driver.pollLimit) :
    Run Continues system
      { system with driver := system.driver.fail, phase := .finished false } := by
  induction left generalizing system spin with
  | zero =>
    refine .step .refl (?_ : system.act .advance = _) nofun
    rw [System.act, System.advance, phase]
    simp only [System.poll, none]
    rw [if_neg (by omega)]
  | succ left ih =>
    let next : System := { system with phase := .polling (spin + 1) }
    have acted : system.act .advance = some next := by
      rw [System.act, System.advance, phase]
      simp only [System.poll, none]
      rw [if_pos (by omega)]
    exact (Run.step .refl acted nofun).trans (@ih next (spin + 1) rfl none (by omega))

/-- Several actions one after the other. -/
def follow (system : System) : List Action → Option System
  | [] => some system
  | action :: rest => (system.act action).bind fun next => follow next rest

theorem run_follow (followed : follow system actions = some after)
    (continues : ∀ action ∈ actions, ∀ call, action ≠ .call call) : Run Continues system after := by
  induction actions generalizing system with
  | nil =>
    cases followed
    exact .refl
  | cons action rest ih =>
    obtain ⟨next, acted, followed⟩ := Option.bind_eq_some_iff.mp followed
    exact (Run.step .refl acted (continues action mem_cons_self)).trans
      (ih followed fun other mem => continues other (mem_cons_of_mem _ mem))

/-- A disk of eight sectors. -/
def small : System := System.initial 8 true {}

/-- The first sector is asked for and the disk has fetched the request. -/
def asked : System :=
  (follow (small.start (.readSectors 0 1024 512))
    (replicate 9 .advance ++ [.fetch])).getD small

theorem run_asked : Run Careful small asked := by
  have started : Run Careful small (small.start (.readSectors 0 1024 512)) :=
    .step .refl (rfl : small.act (.call (.readSectors 0 1024 512)) = _) fun _ _ _ => rfl
  have followed : follow (small.start (.readSectors 0 1024 512))
      (replicate 9 .advance ++ [.fetch]) = some asked := rfl
  have later : Run Continues _ asked := run_follow followed (by simp)
  exact started.trans (later.mono fun _ _ => Continues.careful)

/-- The disk completes the request in time. -/
theorem requests_done_when_settled_read :
    ∃ system, Run Careful small system ∧ system.phase = .finished true ∧
      system.current = some (.readSectors 0 1024 512, 0) ∧ Fulfilled system := by
  have followed : follow asked [.complete, .advance, .advance] =
      some ((follow asked [.complete, .advance, .advance]).getD small) := rfl
  have later : Run Continues asked _ := run_follow followed (by simp)
  have run := run_asked.trans (later.mono fun _ _ => Continues.careful)
  exact ⟨_, run, rfl, rfl, (requests_done_when_settled run).1 rfl⟩

/-- The call has given up. -/
def abandoned : System := { asked with driver := asked.driver.fail, phase := .finished false }

/-- The first call gives up while the disk still works on it; the second, which writes another
sector, reports success because the disk then completes the first. -/
theorem late_completion_reported :
    ∃ system, Run (fun _ _ => True) small system ∧ system.phase = .finished true ∧
      system.current = some (.writeSectors 4 2048 512, 1) ∧
      system.log = [⟨(BlockCall.readSectors 0 1024 512).job 0, 0⟩] ∧ ¬ Fulfilled system := by
  have polls : Run Continues asked abandoned := @run_polls asked 0 9999999 rfl rfl rfl
  have run := run_asked.trans (polls.mono fun _ _ => Continues.careful)
  obtain ⟨taken, orderly⟩ := run.orderly orderly_initial
  obtain ⟨system, later, success, current, log⟩ :=
    @Orderly.late abandoned (.writeSectors 4 2048 512) taken orderly (by decide)
      ((BlockCall.readSectors 0 1024 512).job 0) rfl rfl rfl (Nat.zero_le _)
  have second : abandoned.act (.call (.writeSectors 4 2048 512)) =
      some (abandoned.start (.writeSectors 4 2048 512)) := rfl
  refine ⟨system, ?_, success, current, log, ?_⟩
  · exact ((run.mono fun _ _ _ => trivial).step second trivial).trans
      (later.mono fun _ _ _ => trivial)
  rintro ⟨call, entry, same, member, -⟩
  cases current.symm.trans same
  rw [log] at member
  exact absurd (congrArg (fun completion => completion.job.entry) (mem_singleton.mp member))
    (by decide)

end Mikos.Drivers.Block
