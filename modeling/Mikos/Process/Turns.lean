import Mikos.Process.Exchanges

/-!
# Parking and resuming

A process that parks joins the records while its parent, or the nearest older ancestor, leaves
them.  A process that is resumed leaves them while the one that ran joins them.
-/

namespace Mikos.Process
open Library Network List Suspended
namespace Kernel
variable {machine : Machine} {kernel kernel' : Kernel} {outcome : Outcome}

variable {leaked : Multiset SnapshotAllocation} {lost : Multiset Holding}

/-- Who goes on when the running process parks: its parent, or the nearest older ancestor while
the parent is set aside. -/
inductive Successor (kernel kernel' : Kernel) : Holding → Prop where
  | parent (same : kernel'.suspended.interactiveParent = kernel.suspended.interactiveParent) :
      Successor kernel kernel' kernel.suspended.parentHolding
  | relay {ancestor : SuspendedParent × DescriptorTable}
      (before : kernel.suspended.relayed = false)
      (aside : kernel'.suspended.interactiveParent = kernel.suspended.parent) :
      Successor kernel kernel' (ancestor.1.toSavedContext.quiet, ancestor.2)

theorem parkedBackground_occupied (kernel : Kernel) (socket : SocketHandle)
    (valid : SnapshotAllocation.Valid record.snapshot) :
    (kernel.parkedBackground socket record).occupied + kernel.suspended.parked =
      {(record.quiet, kernel.descriptors)} + kernel.suspended.occupied := by
  have parked : (kernel.parkedBackground socket record).parked =
      {(record.quiet, kernel.descriptors)} := if_pos ⟨rfl, rfl, valid⟩
  rw [occupied, parked, occupied]
  simp only [parkedBackground, captureBackground]
  abel

theorem parkedInteractive_occupied (orderly : kernel.suspended.Orderly)
    (unused : kernel.suspended.interactiveChild.used = false) {relay : Bool}
    (relays : relay = true → kernel.suspended.relayed = false ∧ kernel.suspended.nested ≠ [])
    (valid : SnapshotAllocation.Valid record.snapshot) :
    (kernel.parkedInteractive waitPty waitEnd relay record).Orderly ∧
      (kernel.parkedInteractive waitPty waitEnd relay record).occupied =
        {(record.quiet, kernel.descriptors)} + kernel.suspended.occupied := by
  have empty : ¬ SnapshotAllocation.Valid kernel.suspended.interactiveChild.snapshot := by
    rw [← orderly.interactiveChild, unused]
    decide
  generalize placed : ({ toSavedContext := record, waitPty, waitEnd, used := true } :
    ParkedInteractiveChild) = child
  have used : child.used = true ∧ child.toSavedContext = record := by
    rw [← placed]
    exact ⟨rfl, rfl⟩
  generalize direct : { kernel.suspended with
    interactiveChild := child
    interactiveChildDescriptors := kernel.descriptors } = suspended
  have orderly' : suspended.Orderly := by
    rw [← direct]
    refine { orderly with interactiveChild := ?_ }
    rw [used.1, used.2]
    exact ⟨fun _ => valid, fun _ => rfl⟩
  have occupied : suspended.occupied =
      {(record.quiet, kernel.descriptors)} + kernel.suspended.occupied := by
    have same : suspended.parked = kernel.suspended.parked := by rw [← direct]; rfl
    rw [occupied, same, ← direct]
    rw [used.2, held_of_valid valid, occupied, held_of_invalid empty]
    abel
  simp only [parkedInteractive, placed, direct]
  cases relay with
  | false => exact ⟨orderly', occupied⟩
  | true =>
    obtain ⟨alone, stack⟩ := relays rfl
    have moved := occupied_relay orderly' (by rw [← direct]; exact alone)
      (by rw [← direct]; exact stack)
    exact ⟨orderly'.relay, moved.trans occupied⟩

theorem parkedInteractive_successor (orderly : kernel.suspended.Orderly)
    (active : kernel.suspended.parent.active = true) {waitPty : PtyHandle} {waitEnd : PtyEnd}
    {relay : Bool}
    (relays : relay = true → kernel.suspended.relayed = false ∧ kernel.suspended.nested ≠ [])
    (record : SavedContext) :
    (kernel.parkedInteractive waitPty waitEnd relay record).parentHolding ∈
        kernel.suspended.occupied ∧
      ∀ {kernel' : Kernel}, kernel'.suspended.interactiveParent =
          (kernel.parkedInteractive waitPty waitEnd relay record).interactiveParent →
        Successor kernel kernel'
          (kernel.parkedInteractive waitPty waitEnd relay record).parentHolding := by
  cases relay with
  | false => exact ⟨mem_parentHolding orderly.parent active, fun aside => .parent aside⟩
  | true =>
    obtain ⟨alone, stack⟩ := relays rfl
    obtain ⟨ancestor, nested, stack⟩ := exists_cons_of_ne_nil stack
    have valid := (orderly.nested ancestor (by rw [stack]; exact mem_cons_self)).1.valid.mp
      (orderly.nested ancestor (by rw [stack]; exact mem_cons_self)).2
    have shape : (kernel.parkedInteractive waitPty waitEnd true record).parentHolding =
          (ancestor.1.toSavedContext.quiet, ancestor.2) ∧
        (kernel.parkedInteractive waitPty waitEnd true record).interactiveParent =
          kernel.suspended.parent := by
      simp only [parkedInteractive, if_true, relay, popAncestor, stack]
      exact ⟨rfl, trivial⟩
    rw [shape.1, shape.2]
    refine ⟨?_, fun aside => .relay alone aside⟩
    rw [occupied, stack, stacked, map_cons, sum_cons, held_of_valid valid]
    simp

theorem resumedInteractive_occupied {suspended suspended' : Suspended}
    (orderly : suspended.Orderly) (used : suspended.interactiveChild.used = true)
    (rearranged : resumedInteractive suspended suspended') :
    suspended'.Orderly ∧
      suspended.occupied =
        {(suspended.interactiveChild.toSavedContext.quiet,
          suspended.interactiveChildDescriptors)} + suspended'.occupied := by
  obtain ⟨stacked, relays, rfl⟩ := rearranged
  -- moving the server of the terminal keeps every process
  have moved : stacked.Orderly ∧ stacked.occupied = suspended.occupied ∧
      stacked.interactiveChild = suspended.interactiveChild ∧
      stacked.interactiveChildDescriptors = suspended.interactiveChildDescriptors := by
    split at relays
    · obtain ⟨aside, stacking, rfl⟩ := relays
      have orderly' := orderly.stackAncestor stacking
      have same : aside.parent.active = false ∧
          aside.interactiveChild = suspended.interactiveChild ∧
          aside.interactiveChildDescriptors = suspended.interactiveChildDescriptors := by
        rw [stackAncestor] at stacking
        split at stacking
        · cases stacking
        · cases stacking
          exact ⟨rfl, rfl, rfl⟩
      exact ⟨orderly'.unrelay, (occupied_unrelay orderly' same.1).trans
        (occupied_stackAncestor stacking), same.2⟩
    · rw [relays]
      exact ⟨orderly, rfl, rfl, rfl⟩
  obtain ⟨orderly', occupied, child, table⟩ := moved
  have valid := orderly'.interactiveChild.mp (by rw [child]; exact used)
  refine ⟨orderly'.childless _, ?_⟩
  rw [← occupied, occupied_childless stacked .closed, held_of_valid valid, child, table]

section
variable (stocked : Stocked machine kernel.suspended kernel.arena leaked)
  (bounded : Bounded kernel.context)
include stocked bounded

theorem Parks.exchanged {place : SavedContext → Suspended}
    (orderly : ∀ record, SnapshotAllocation.Valid record.snapshot → (place record).Orderly)
    (danger : lost ≠ 0 → kernel.suspended.background.Parked)
    (active : ∀ record, (place record).parent.active = true)
    (older : ∀ record, (place record).parentHolding ∈ kernel.suspended.occupied)
    (occupied : ∀ record, SnapshotAllocation.Valid record.snapshot →
      (place record).occupied + lost =
        {(record.quiet, kernel.descriptors)} + kernel.suspended.occupied)
    (parks : Parks machine kernel place kernel') :
    ∃ record : SavedContext, Exchanged machine kernel kernel' leaked
      {(record.quiet, kernel.descriptors)} {(place record).parentHolding} lost ∧
      kernel'.suspended.interactiveParent = (place record).interactiveParent := by
  cases parks with
  | @intro saved record arena arena' memory memory' same stack saves loaded freed =>
    have savedAs := savedAs_of_saveMemory stocked.owned stack saves
    rw [same] at savedAs
    have occupied := occupied record savedAs.valid
    have stocked' := stocked.insert (orderly record savedAs.valid) savedAs bounded occupied
    have active := active record
    have older := older record
    refine ⟨record, ?_⟩
    generalize placed : place record = suspended at loaded freed occupied stocked' active older ⊢
    have adopts : Adopts machine
        { kernel with suspended, descriptors := .closed, arena, memory } _ _ :=
      adoptParent_adopts stocked' active loaded freed 0 false (firstPark suspended.parent)
    refine ⟨exchanged_of_savedAs savedAs bounded danger adopts.stocked adopts.bounded
      (fun holding mem => ?_) adopts.memory, by rw [adoptParent_eq]⟩
    rw [Multiset.mem_singleton.mp mem]
    exact adopts.returned.earlier rfl rfl (staged_of_savedAs savedAs stocked older)

theorem parksBackground_exchanged (parks : ParksBackground machine kernel socket (true, kernel')) :
    ∃ record : SavedContext, ∃ holding lost, Exchanged machine kernel kernel' leaked
      {(record.quiet, kernel.descriptors)} {holding} lost ∧ Successor kernel kernel' holding := by
  have orderly : ∀ record, SnapshotAllocation.Valid record.snapshot →
      (kernel.parkedBackground socket record).Orderly := by
    intro record valid
    have before := stocked.orderly
    exact { before with background := fun _ _ => valid }
  cases parks with
  | parks free active parks =>
    have older : ∀ record, (kernel.parkedBackground socket record).parentHolding ∈
        kernel.suspended.occupied :=
      fun _ => mem_parentHolding stocked.orderly.parent active
    obtain ⟨record, exchanged, aside⟩ := parks.exchanged stocked bounded orderly
      parked_of_ne_zero (fun _ => active) older
      (fun _ valid => parkedBackground_occupied kernel socket valid)
    exact ⟨record, kernel.suspended.parentHolding, _, exchanged, .parent aside⟩

theorem parksInteractive_exchanged
    (parks : ParksInteractive machine kernel waitPty waitEnd (true, kernel')) :
    ∃ record : SavedContext, ∃ holding, Exchanged machine kernel kernel' leaked
      {(record.quiet, kernel.descriptors)} {holding} 0 ∧ Successor kernel kernel' holding := by
  have orderly := stocked.orderly
  cases parks with
  | @parks _ relay unused active relays parks =>
    have successor := @parkedInteractive_successor kernel orderly active waitPty waitEnd relay relays
    obtain ⟨record, exchanged, aside⟩ := parks.exchanged stocked bounded
      (fun _ valid => (parkedInteractive_occupied orderly unused relays valid).1)
      (absurd rfl ·)
      (fun _ => (parkedInteractive_parent orderly active fun relayed => (relays relayed).2).2)
      (fun record => (successor record).1)
      (fun _ valid => (Multiset.add_zero _).trans
        (parkedInteractive_occupied orderly unused relays valid).2)
    exact ⟨record, _, exchanged, (successor record).2 aside⟩

/-! ## Resuming -/

theorem Resumes.exchanged
    (rearranges : ∀ {parent suspended}, parent.Regular → parent.active = true →
      rearranged { kernel.suspended with parent, parentDescriptors := kernel.descriptors }
        suspended →
      suspended.Orderly ∧
        { kernel.suspended with parent, parentDescriptors := kernel.descriptors }.occupied =
          {(saved.quiet, table)} + suspended.occupied)
    (older : (saved.quiet, table) ∈ kernel.suspended.occupied)
    (resumes : Resumes machine kernel childPid saved table frame rearranged kernel') :
    ∃ record : SavedContext, Exchanged machine kernel kernel' leaked
      {(record.quiet, kernel.descriptors)} {(saved.quiet, table)} 0 := by
  cases resumes with
  | @intro suspending suspended arena memory idle suspends rearranged loaded freed =>
    obtain ⟨record, suspendedAs⟩ := suspends.suspendedAs stocked bounded idle
    have savedAs := suspendedAs.savedAs
    have stockedSuspending := suspendedAs.stocked
    have occupiedSuspending := suspendedAs.occupied
    have shape : suspending.suspended = { kernel.suspended with
        parent := suspending.suspended.parent, parentDescriptors := kernel.descriptors } := by
      cases suspends
      rfl
    have regular := stockedSuspending.orderly.parent
    have active : suspending.suspended.parent.active = true := by rw [suspendedAs.parent]
    rw [shape] at rearranged occupiedSuspending
    obtain ⟨orderly, occupied⟩ := rearranges regular active rearranged
    rw [← shape] at occupied
    have placed := stocked.placed _ older
    have staged : Staged kernel saved.quiet suspending.memory :=
      staged_of_savedAs savedAs stocked older
    have stocked' := stockedSuspending.remove orderly freed occupied
    have reloads : Reloads machine kernel saved.quiet suspending.memory memory := loaded
    refine ⟨record, exchanged_of_savedAs savedAs bounded (absurd rfl ·) ?_
      { placed.bounded with } ?_ fun inside _ => reloads.restored inside placed⟩
    · rw [ranges_zero, Multiset.zero_add]
      exact stocked'
    · intro holding mem
      rw [Multiset.mem_singleton.mp mem]
      exact ⟨suspending.memory, memory, staged, loaded, rfl⟩

theorem resumesBackground_exchanged (resumes : ResumesBackground machine kernel (true, kernel')) :
    ∃ record : SavedContext, Exchanged machine kernel kernel' leaked
      {(record.quiet, kernel.descriptors)}
      {(kernel.suspended.background.toSavedContext.quiet,
        kernel.suspended.backgroundDescriptors)} 0 := by
  have orderly := stocked.orderly
  cases resumes with
  | resumes ready resumes =>
    have parked : kernel.suspended.background.Parked := by
      simp only [backgroundReady, Bool.and_eq_true, decide_eq_true_eq] at ready
      exact ⟨ready.1.1.1, ready.1.1.2, orderly.background ready.1.1.1 ready.1.1.2⟩
    have older : (kernel.suspended.background.toSavedContext.quiet,
        kernel.suspended.backgroundDescriptors) ∈ kernel.suspended.occupied := by
      rw [Suspended.occupied, Suspended.parked, if_pos parked]
      simp
    refine resumes.exchanged stocked bounded ?_ older
    intro parent suspended regular active rearranged
    cases rearranged
    have nobody : ¬ ParkedBackground.Parked
        { kernel.suspended.background with snapshot := .invalid, wait := .none } := by
      rintro ⟨-, waits, -⟩
      cases waits
    refine ⟨{ orderly with parent := regular, background := fun _ waits => by cases waits }, ?_⟩
    rw [Suspended.occupied, Suspended.parked, if_pos parked, Suspended.occupied,
      Suspended.parked, if_neg nobody]
    abel

theorem resumesInteractive_exchanged (resumes : ResumesInteractive machine kernel (true, kernel')) :
    ∃ record : SavedContext, Exchanged machine kernel kernel' leaked
      {(record.quiet, kernel.descriptors)}
      {(kernel.suspended.interactiveChild.toSavedContext.quiet,
        kernel.suspended.interactiveChildDescriptors)} 0 := by
  have orderly := stocked.orderly
  cases resumes with
  | resumes ready resumes =>
    have used : kernel.suspended.interactiveChild.used = true := by
      simp only [interactiveChildCanResume, Bool.and_eq_true] at ready
      exact ready.1.1.1
    have older : (kernel.suspended.interactiveChild.toSavedContext.quiet,
        kernel.suspended.interactiveChildDescriptors) ∈ kernel.suspended.occupied := by
      rw [occupied, held_of_valid (orderly.interactiveChild.mp used)]
      simp
    refine resumes.exchanged stocked bounded ?_ older
    intro parent suspended regular active rearranged
    have orderly' : { kernel.suspended with
        parent, parentDescriptors := kernel.descriptors }.Orderly :=
      { orderly with parent := regular }
    exact resumedInteractive_occupied orderly' used rearranged

end
end Kernel
end Mikos.Process
