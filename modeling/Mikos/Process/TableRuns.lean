import Mikos.Process.Effects

/-!
# Runs of the process table

A table that was set up once and then changed by calls alone.  Every such table passes the
check that it makes of itself, and the numbers in it were all given out before.
-/

namespace Mikos.Process
namespace ProcessTable
variable {capacity : Nat} {table after : ProcessTable capacity} {pid parentPid : UInt32}
  {i j parent child : Fin capacity}

/-! ## Numbers that were given out -/

/-- The number is not one that a new process will get. -/
def Issued (table : ProcessTable capacity) (pid : UInt32) : Prop :=
  table.nextPid = 0 ∨ pid < table.nextPid

theorem not_issued_nextPid (valid : table.nextPid ≠ 0) : ¬ table.Issued table.nextPid := by
  rintro (exhausted | below)
  · exact valid exhausted
  · exact absurd below (UInt32.lt_irrefl _)

theorem issued_zero : table.Issued 0 := by
  by_cases exhausted : table.nextPid = 0
  · exact .inl exhausted
  · refine .inr (UInt32.lt_iff_toNat_lt.mpr (Nat.pos_of_ne_zero fun zero => exhausted ?_))
    exact UInt32.toNat_inj.mp zero

theorem issued_of_le (next : table.nextPid = last + 1) (below : pid ≤ last) : table.Issued pid := by
  unfold Issued
  rw [next]
  by_cases top : last + 1 = 0
  · exact .inl top
  right
  rw [UInt32.le_iff_toNat_le] at below
  have room : last.toNat + 1 < 2 ^ 32 := by
    have bound := last.toNat_lt
    rcases Nat.lt_or_ge (last.toNat + 1) (2 ^ 32) with small | full
    · exact small
    · refine absurd ?_ top
      apply UInt32.toNat_inj.mp
      rw [UInt32.toNat_add, UInt32.toNat_one, show last.toNat + 1 = 2 ^ 32 by omega]
      rfl
  rw [UInt32.lt_iff_toNat_lt, UInt32.toNat_add, UInt32.toNat_one, Nat.mod_eq_of_lt room]
  omega

theorem Issued.next (issued : table.Issued pid) (valid : table.nextPid ≠ 0)
    (next : after.nextPid = table.nextPid + 1) : after.Issued pid := by
  rcases issued with exhausted | below
  · exact absurd exhausted valid
  · exact issued_of_le next (UInt32.le_of_lt below)

theorem Issued.congr (issued : table.Issued pid) (next : after.nextPid = table.nextPid) :
    after.Issued pid := by
  unfold Issued at issued ⊢
  rwa [next]

/-! ## Sound tables -/

/-- What the table checks of one record, that all numbers in it were given out, and that parents
are older than their children. -/
structure SoundRecord (table : ProcessTable capacity) (record : ProcessRecord) : Prop where
  vacant : record.state = .free → record.pid = 0 ∧ record.addressSpace = false
  named : record.Live → record.pid ≠ 0 ∧ record.processGroup ≠ 0 ∧ record.session ≠ 0
  elder : record.Live → record.parent < record.pid
  emptied : record.state = .zombie → record.addressSpace = false
  issued : record.Live → table.Issued record.pid ∧ table.Issued record.processGroup ∧
    table.Issued record.session ∧ table.Issued record.vforkParent

structure Sound (table : ProcessTable capacity) : Prop where
  unique : table.Unique
  records : ∀ index, SoundRecord table (table.records index)

theorem Sound.invariant (sound : table.Sound) : table.invariant = true := by
  simp only [ProcessTable.invariant, List.all_eq_true, List.mem_finRange, true_implies]
  intro i
  split
  next free => simp [(sound.records i).vacant free]
  rename_i live
  obtain ⟨pid, group, session⟩ := (sound.records i).named live
  simp only [pid, group, session, false_or, Bool.decide_and, Bool.and_eq_true, decide_eq_true_eq]
  refine ⟨?_, ?_⟩
  · rintro ⟨zombie, space⟩
    simp [(sound.records i).emptied zombie] at space
  intro later mem
  have behind := (List.mem_filter.mp mem).2
  simp only [decide_eq_true_eq] at behind ⊢
  rintro ⟨liveLater, same⟩
  have equal := sound.unique later i liveLater live same
  exact absurd behind (by rw [equal]; exact lt_irrefl i)

theorem Sound.acting_ne_zero (sound : table.Sound) (acting : table.Acts pid i) : pid ≠ 0 :=
  acting.2 ▸ ((sound.records i).named acting.1.live).1

theorem Sound.pid_ne_nextPid (sound : table.Sound) (valid : table.nextPid ≠ 0)
    (live : (table.records i).Live) : (table.records i).pid ≠ table.nextPid := by
  intro same
  exact not_issued_nextPid valid (same ▸ ((sound.records i).issued live).1)

/-! ## Calls by what they change -/

/-- The processes of before are there under their numbers, and no others. -/
structure Keeps (table after : ProcessTable capacity) : Prop where
  live : ∀ index, (after.records index).Live ↔ (table.records index).Live
  pid : ∀ index, (after.records index).pid = (table.records index).pid
  next : after.nextPid = table.nextPid

theorem Released.occupied (freed : table.Released child j) : (table.records j).Alive := by
  simp [ProcessRecord.Alive, freed.2.2]

theorem Roused.occupied (roused : table.Roused child j) : (table.records j).Alive := by
  simp [ProcessRecord.Alive, roused.2]

theorem occupied_of_woken (woken : table.Released child j ∨ table.Roused child j) :
    (table.records j).Alive := by
  rcases woken with freed | roused
  · exact freed.occupied
  · exact roused.occupied

variable {record : ProcessRecord} {state : ProcessState}

/-- Setting the state of processes that have not ended, to a state of such processes. -/
theorem live_of_ite [Decidable condition] (alive : condition → record.Alive)
    (occupied : state ≠ .free) :
    (if condition then state else record.state) ≠ .free ↔ record.state ≠ .free := by
  by_cases holds : condition
  · simp [holds, occupied, (alive holds).1]
  · simp [holds]

theorem eq_of_ite [Decidable condition] (apart : state ≠ kept)
    (same : (if condition then state else record.state) = kept) : record.state = kept := by
  by_cases holds : condition
  · simp [holds, apart] at same
  · simpa [holds] using same

namespace Keeps

theorem refl : Keeps table table := ⟨fun _ => Iff.rfl, fun _ => rfl, rfl⟩

theorem names (keeps : Keeps table after) : after.Names pid i ↔ table.Names pid i := by
  rw [Names, Names, keeps.live, keeps.pid]

theorem issued (keeps : Keeps table after) : after.Issued pid ↔ table.Issued pid := by
  rw [Issued, Issued, keeps.next]

end Keeps

section Forks
variable {vfork : Bool}

section
variable (forks : Forks table after parentPid vfork parent child)
include forks

theorem Forks.live (apart : j ≠ child) (live : (after.records j).Live) :
    (table.records j).Live := by
  rw [forks.others j apart] at live
  refine (live_of_ite ?_ (by decide)).mp live
  rintro ⟨-, rfl⟩
  exact forks.acting.1

theorem Forks.names (issued : table.Issued pid) (named : after.Names pid i) :
    i ≠ child ∧ table.Names pid i := by
  obtain ⟨live, same⟩ := named
  have apart : i ≠ child := by
    rintro rfl
    rw [forks.born] at same
    subst same
    exact not_issued_nextPid forks.valid issued
  refine ⟨apart, forks.live apart live, ?_⟩
  rwa [forks.others i apart] at same

theorem Forks.kept (held : (after.records i).state = state) (runs : .runnable ≠ state)
    (halts : .vforkWait ≠ state) : i ≠ child ∧ (table.records i).state = state := by
  have apart : i ≠ child := by
    rintro rfl
    rw [forks.born] at held
    exact runs held
  rw [forks.others i apart] at held
  exact ⟨apart, eq_of_ite halts held⟩

end
end Forks

theorem Executes.keeps (executes : Executes table after pid i) : Keeps table after := by
  refine ⟨fun j => ?_, fun j => by rw [executes.changed j], executes.next⟩
  rw [executes.changed j]
  exact live_of_ite Released.occupied (by decide)

theorem Ends.keeps (ends : Ends table after pid status i) : Keeps table after := by
  refine ⟨fun j => ?_, fun j => ?_, ends.next⟩
  · by_cases equal : j = i
    · rw [equal, ends.ended]
      exact iff_of_true (by simp [ProcessRecord.Live]) ends.acting.1.live
    · rw [ends.others j equal]
      exact live_of_ite occupied_of_woken (by decide)
  · by_cases equal : j = i
    · rw [equal, ends.ended]
    · rw [ends.others j equal]

/-- A child of the process that ends goes to the heir, and others stay where they are. -/
theorem Ends.parent_eq (ends : Ends table after pid status i) (live : (table.records j).Live) :
    (after.records j).parent =
      if (table.records j).parent = pid then table.adopter pid
      else (table.records j).parent := by
  by_cases equal : j = i
  · rw [equal, ends.ended]
  · rw [ends.others j equal]
    simp only [live, true_and]

theorem Collects.apart (collects : Collects table after child) (live : (after.records i).Live) :
    i ≠ child := by
  rintro rfl
  exact live (by rw [collects.freed])

theorem Collects.names (collects : Collects table after child) (named : after.Names pid i) :
    i ≠ child ∧ table.Names pid i := by
  have apart := collects.apart named.1
  rw [Names, collects.others i apart] at named
  exact ⟨apart, named⟩

theorem Sets.keeps (sets : Sets table after i state) : Keeps table after := by
  refine ⟨fun j => ?_, fun j => by rw [sets.changed j], sets.next⟩
  rw [sets.changed j]
  exact live_of_ite (fun equal => equal ▸ sets.alive) sets.occupied

theorem Joins.keeps (joins : Joins table after i group session) : Keeps table after :=
  ⟨fun j => by rw [joins.changed j]; exact Iff.rfl, fun j => by rw [joins.changed j], joins.next⟩

/-! ## Changes of sound tables -/

theorem SoundRecord.empty : SoundRecord table {} := by
  constructor <;> simp [ProcessRecord.Live]

theorem SoundRecord.mono (sound : SoundRecord table record)
    (issued : ∀ {pid}, table.Issued pid → after.Issued pid) : SoundRecord after record := by
  refine { sound with issued := fun live => ?_ }
  obtain ⟨pid, group, session, vfork⟩ := sound.issued live
  exact ⟨issued pid, issued group, issued session, issued vfork⟩

/-- A change of some fields of a record that leaves a process in it, under its number. -/
theorem SoundRecord.change (sound : SoundRecord table before) (live : record.Live ↔ before.Live)
    (same : record.pid = before.pid)
    (elder : before.Live → record.parent = before.parent ∨ record.parent < before.pid)
    (space : record.addressSpace = before.addressSpace ∧
      (record.state = .zombie → before.state = .zombie) ∨ record.addressSpace = false)
    (vfork : record.vforkParent = before.vforkParent ∨ record.vforkParent = 0)
    (group : before.Live → record.processGroup = before.processGroup ∨
      record.processGroup ≠ 0 ∧ table.Issued record.processGroup)
    (session : before.Live → record.session = before.session ∨
      record.session ≠ 0 ∧ table.Issued record.session) : SoundRecord table record := by
  -- the fields of a process, each as before or proper by itself
  have fields : before.Live → (record.processGroup ≠ 0 ∧ table.Issued record.processGroup) ∧
      (record.session ≠ 0 ∧ table.Issued record.session) := by
    intro alive
    have named := sound.named alive
    have issued := sound.issued alive
    refine ⟨?_, ?_⟩
    · rcases group alive with kept | changed
      · rw [kept]
        exact ⟨named.2.1, issued.2.1⟩
      · exact changed
    · rcases session alive with kept | changed
      · rw [kept]
        exact ⟨named.2.2, issued.2.2.1⟩
      · exact changed
  constructor
  · intro free
    have vacant : before.state = .free := by
      by_contra occupied
      exact live.mpr occupied free
    obtain ⟨pid, memory⟩ := sound.vacant vacant
    refine ⟨same.trans pid, ?_⟩
    rcases space with ⟨kept, -⟩ | gone
    · exact kept.trans memory
    · exact gone
  · intro alive
    obtain ⟨grouped, sessioned⟩ := fields (live.mp alive)
    exact ⟨same ▸ (sound.named (live.mp alive)).1, grouped.1, sessioned.1⟩
  · intro alive
    rw [same]
    rcases elder (live.mp alive) with kept | changed
    · rw [kept]
      exact sound.elder (live.mp alive)
    · exact changed
  · intro zombie
    rcases space with ⟨kept, before⟩ | gone
    · exact kept.trans (sound.emptied (before zombie))
    · exact gone
  intro alive
  obtain ⟨grouped, sessioned⟩ := fields (live.mp alive)
  obtain ⟨pid, -, -, lent⟩ := sound.issued (live.mp alive)
  refine ⟨same ▸ pid, grouped.2, sessioned.2, ?_⟩
  rcases vfork with kept | none
  · exact kept ▸ lent
  · exact none ▸ issued_zero

theorem Sound.change (sound : table.Sound) (keeps : Keeps table after)
    (records : ∀ i, SoundRecord table (after.records i)) : after.Sound := by
  refine ⟨?_, fun i => (records i).mono keeps.issued.mpr⟩
  exact sound.unique.congr (fun i => (keeps.live i).mp) fun i _ => keeps.pid i

theorem Unique.forked (unique : table.Unique) (child : Fin capacity)
    (fresh : ∀ i, (table.records i).Live → (table.records i).pid ≠ (after.records child).pid)
    (live : ∀ j ≠ child, (after.records j).Live → (table.records j).Live)
    (same : ∀ j ≠ child, (after.records j).pid = (table.records j).pid) : after.Unique := by
  intro left right liveLeft liveRight equal
  by_cases onLeft : left = child
  · by_cases onRight : right = child
    · rw [onLeft, onRight]
    · rw [onLeft, same right onRight] at equal
      exact absurd equal.symm (fresh right (live right onRight liveRight))
  by_cases onRight : right = child
  · rw [onRight, same left onLeft] at equal
    exact absurd equal (fresh left (live left onLeft liveLeft))
  · rw [same left onLeft, same right onRight] at equal
    exact unique left right (live left onLeft liveLeft) (live right onRight liveRight) equal

section
variable (sound : table.Sound)
include sound

theorem Sound.forked {vfork : Bool} (forks : Forks table after parentPid vfork parent child) :
    after.Sound := by
  have live := forks.acting.1.live
  have given := (sound.records parent).issued live
  have issued : ∀ {pid}, table.Issued pid → after.Issued pid := fun issued =>
    issued.next forks.valid forks.next
  refine ⟨sound.unique.forked child ?_ (fun _ => forks.live) ?_, fun i => ?_⟩
  · intro i alive
    rw [forks.born]
    exact sound.pid_ne_nextPid forks.valid alive
  · intro j apart
    rw [forks.others j apart]
  by_cases equal : i = child
  · rw [equal, forks.born]
    constructor
    · nofun
    · exact fun _ => ⟨forks.valid, ((sound.records parent).named live).2⟩
    · intro _
      rcases given.1 with exhausted | below
      · exact absurd exhausted forks.valid
      · rwa [forks.acting.2] at below
    · nofun
    intro _
    refine ⟨issued_of_le forks.next (UInt32.le_refl _), issued given.2.1, issued given.2.2.1, ?_⟩
    simp only [offspring]
    split
    · rw [← forks.acting.2]
      exact issued given.1
    · exact issued_zero
  rw [forks.others i equal]
  refine SoundRecord.change ((sound.records i).mono issued)
    (live_of_ite ?_ (by decide)) rfl (fun _ => .inl rfl) (.inl ⟨rfl, eq_of_ite (by decide)⟩)
    (.inl rfl) (fun _ => .inl rfl) fun _ => .inl rfl
  rintro ⟨-, rfl⟩
  exact forks.acting.1

theorem Sound.collected (collects : Collects table after child) : after.Sound := by
  refine ⟨sound.unique.congr ?_ ?_, fun i => ?_⟩
  · intro i alive
    rwa [← collects.others i (collects.apart alive)]
  · intro i alive
    rw [collects.others i (collects.apart alive)]
  by_cases equal : i = child
  · rw [equal, collects.freed]
    exact .empty
  · rw [collects.others i equal]
    exact (sound.records i).mono fun issued => issued.congr collects.next

theorem Sound.set (sets : Sets table after i state) : after.Sound := by
  refine sound.change sets.keeps fun j => ?_
  rw [sets.changed j]
  exact (sound.records j).change
    (live_of_ite (fun equal => equal ▸ sets.alive) sets.occupied) rfl (fun _ => .inl rfl)
    (.inl ⟨rfl, eq_of_ite sets.running⟩) (.inl rfl) (fun _ => .inl rfl) fun _ => .inl rfl

theorem Sound.executed (executes : Executes table after pid i) : after.Sound := by
  refine sound.change executes.keeps fun j => ?_
  rw [executes.changed j]
  refine (sound.records j).change (live_of_ite Released.occupied (by decide)) rfl
    (fun _ => .inl rfl) (.inl ⟨rfl, eq_of_ite (by decide)⟩) ?_ (fun _ => .inl rfl)
    fun _ => .inl rfl
  by_cases equal : j = i
  · exact .inr (if_pos equal)
  · exact .inl (if_neg equal)

/-- Whoever inherits the children of a process is older than they are. -/
theorem Sound.adopter_lt (acting : table.Acts pid i)
    (orphaned : (table.records j).parent = pid) (live : (table.records j).Live) :
    table.adopter pid < (table.records j).pid := by
  have younger := (sound.records j).elder live
  have known : pid ≠ 0 := sound.acting_ne_zero acting
  rw [orphaned, UInt32.lt_iff_toNat_lt] at younger
  have pos : pid.toNat ≠ 0 := fun zero => known (UInt32.toNat_inj.mp zero)
  rw [UInt32.lt_iff_toNat_lt]
  rcases table.adopter_cases pid with one | zero
  · rw [one, UInt32.toNat_one]
    omega
  · rw [zero, UInt32.toNat_zero]
    omega

theorem Sound.exited {status : UInt32} (ends : Ends table after pid status i) : after.Sound := by
  refine sound.change ends.keeps fun j => ?_
  have elder : (table.records j).Live → (after.records j).parent = (table.records j).parent ∨
      (after.records j).parent < (table.records j).pid := by
    intro live
    rw [ends.parent_eq live]
    split
    next orphaned => exact .inr (sound.adopter_lt ends.acting orphaned live)
    next kept => exact .inl rfl
  have before := sound.records j
  have live := ends.keeps.live j
  by_cases equal : j = i
  · subst equal
    rw [ends.ended] at elder live ⊢
    exact before.change live rfl elder (.inr rfl) (.inr rfl) (fun _ => .inl rfl) fun _ => .inl rfl
  · rw [ends.others j equal] at elder live ⊢
    exact before.change live rfl elder (.inl ⟨rfl, eq_of_ite (by decide)⟩) (.inl rfl)
      (fun _ => .inl rfl) fun _ => .inl rfl

theorem Sound.joined (joins : Joins table after i group session)
    (grouped : group ≠ 0 ∧ table.Issued group) (sessioned : session ≠ 0 ∧ table.Issued session) :
    after.Sound := by
  have either : ∀ {j number kept}, number ≠ 0 ∧ table.Issued number →
      (if j = i then number else kept) = kept ∨
        (if j = i then number else kept) ≠ 0 ∧ table.Issued (if j = i then number else kept) := by
    intro j number kept proper
    by_cases equal : j = i
    · exact .inr (by simpa only [if_pos equal] using proper)
    · exact .inl (if_neg equal)
  refine sound.change joins.keeps fun j => ?_
  rw [joins.changed j]
  exact (sound.records j).change Iff.rfl rfl (fun _ => .inl rfl) (.inl ⟨rfl, id⟩)
    (.inl rfl) (fun _ => either grouped) fun _ => either sessioned

theorem Sound.effect (effect : Effect table call answer after) : after.Sound := by
  cases effect with
  | notForked | notExecuted | notExited | notWaited | notRegrouped | notDetached | notStopped |
    notResumed => exact sound
  | forked forks => exact sound.forked forks
  | executed executes => exact sound.executed executes
  | exited ends => exact sound.exited ends
  | blocked acting unmet sets
  | stopped sets
  | resumed named halted sets => exact sound.set sets
  | collected acting met collects => exact sound.collected collects
  | regrouped granted joins =>
    have live := granted.named.1
    refine sound.joined joins ?_
      ⟨((sound.records _).named live).2.2, ((sound.records _).issued live).2.2.1⟩
    rcases granted.led with own | ⟨leader, named, mem, -⟩
    · rw [own]
      exact ⟨((sound.records _).named live).1, ((sound.records _).issued live).1⟩
    · rw [← mem]
      exact ⟨((sound.records leader).named named.1).2.1, ((sound.records leader).issued named.1).2.1⟩
  | detached named mem joins =>
    have own := And.intro ((sound.records _).named named.1).1 ((sound.records _).issued named.1).1
    rw [named.2] at own
    exact sound.joined joins own own

end

/-! ## Runs -/

/-- The calls made so far with their answers, the latest first. -/
abbrev History := List (ProcessCall × ProcessAnswer)

/-- The tables that calls lead to from a table set up with one process; a call is made if it
is allowed then. -/
inductive Reached [NeZero capacity]
    (allowed : History → ProcessTable capacity → ProcessCall → Prop) (first : UInt32) :
    History → ProcessTable capacity → Prop where
  | start {table : ProcessTable capacity}
      (started : initializeTable {} first = (.success, table)) : Reached allowed first [] table
  | call {history : History} {table : ProcessTable capacity}
      (reached : Reached allowed first history table) (call : ProcessCall)
      (permitted : allowed history table call) :
      Reached allowed first ((call, (table.perform call).1) :: history) (table.perform call).2

section Runs
variable [NeZero capacity] {allowed : History → ProcessTable capacity → ProcessCall → Prop}
  {first : UInt32} {history : History}

section
variable (started : initializeTable {} first = (.success, table))
include started

theorem initializeTable_records :
    first ≠ 0 ∧ table.nextPid = first + 1 ∧
      table.records 0 =
        { state := .running, pid := first, processGroup := first, session := first,
          addressSpace := true } ∧
      ∀ i ≠ 0, table.records i = {} := by
  unfold initializeTable at started
  split at started
  next refused => cases started
  rename_i valid
  obtain ⟨-, rfl⟩ := Prod.mk.inj started
  refine ⟨fun zero => valid (.inl zero), rfl, ?_, ?_⟩
  · simp [invalidPid]
  · intro i apart
    simp [apart]

theorem eq_zero_of_live (live : (table.records i).Live) : i = 0 := by
  by_contra apart
  rw [(initializeTable_records started).2.2.2 i apart] at live
  exact live rfl

theorem Sound.initial : table.Sound := by
  obtain ⟨valid, next, filled, others⟩ := initializeTable_records started
  have issued : table.Issued first := issued_of_le next (UInt32.le_refl _)
  refine ⟨fun left right liveLeft liveRight _ => ?_, fun i => ?_⟩
  · rw [eq_zero_of_live started liveLeft, eq_zero_of_live started liveRight]
  by_cases equal : i = 0
  · rw [equal, filled]
    refine ⟨nofun, fun _ => ⟨valid, valid, valid⟩, fun _ => ?_, nofun,
      fun _ => ⟨issued, issued, issued, issued_zero⟩⟩
    rw [UInt32.lt_iff_toNat_lt]
    exact Nat.pos_of_ne_zero fun zero => valid (UInt32.toNat_inj.mp zero)
  · rw [others i equal]
    exact .empty

end

/-- The history of some calls on a table and the table that they lead to. -/
def follow (table : ProcessTable capacity) (calls : List ProcessCall) :
    History × ProcessTable capacity :=
  calls.foldl (fun (history, table) call =>
    ((call, (table.perform call).1) :: history, (table.perform call).2)) ([], table)

/-- Any calls may be made from a table set up with one process. -/
theorem reached_follow (started : initializeTable {} first = (.success, table))
    (calls : List ProcessCall) :
    Reached (fun _ _ _ => True) first (table.follow calls).1 (table.follow calls).2 := by
  refine List.foldlRecOn (motive := fun (went : History × ProcessTable capacity) =>
    Reached (fun _ _ _ => True) first went.1 went.2) calls _ (.start started) ?_
  rintro ⟨history, table⟩ reached call -
  exact reached.call call trivial

/-- A table with the first process in it. -/
def lone (capacity : Nat) [NeZero capacity] : ProcessTable capacity := (initializeTable {} 1).2

theorem Reached.sound (reached : Reached allowed first history table) : table.Sound := by
  induction reached with
  | start started => exact .initial started
  | call _ call _ ih => exact ih.effect (ih.unique.perform_effect call)

end Runs
end ProcessTable
end Mikos.Process
