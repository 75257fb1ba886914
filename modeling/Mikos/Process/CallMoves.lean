import Mikos.Process.Opens
import Mikos.Process.Snapshots

/-!
# Moves of the running process

What the calls of the running process leave of its state and of memory.
-/

namespace Mikos.Process
open Library Network Function

/-- What calls keep of the state of a process. -/
structure Ordinary (before after : Context) : Prop where
  pid : after.pid = before.pid
  bounded : Bounded before → Bounded after

namespace Ordinary

theorem refl (context : Context) : Ordinary context context := ⟨rfl, id⟩

theorem trans (first : Ordinary before between) (second : Ordinary between after) :
    Ordinary before after :=
  ⟨second.pid.trans first.pid, second.bounded ∘ first.bounded⟩

end Ordinary

namespace Running

/-- A move of the running process stays within its state and user memory. -/
structure Moves (running running' : Running) : Prop where
  context : Ordinary running.context running'.context
  outside : ∀ address, ¬ UserAddress address → running'.memory address = running.memory address

variable {machine : Machine} {running running' : Running} {moment : Moment}

namespace Moves

theorem same (context : running'.context = running.context)
    (memory : running'.memory = running.memory) : Moves running running' :=
  ⟨context ▸ .refl _, fun _ _ => by rw [memory]⟩

theorem refl : Moves running running := same rfl rfl

theorem trans (first : Moves running between) (second : Moves between running') :
    Moves running running' :=
  ⟨first.context.trans second.context, fun address outside =>
    (second.outside address outside).trans (first.outside address outside)⟩

theorem store (moves : Moves running running') {memory : Bytes}
    (outside : ∀ address, ¬ UserAddress address → memory address = running'.memory address) :
    Moves running { running' with memory } :=
  moves.trans ⟨.refl _, outside⟩

theorem adapt (moves : Moves running running') {context : Context}
    (ordinary : Ordinary running'.context context) : Moves running { running' with context } :=
  moves.trans ⟨ordinary, fun _ _ => rfl⟩

end Moves

theorem moves_ite [Decidable condition] {left right : UInt32 × Running}
    (first : Moves running left.2) (second : Moves running right.2) :
    Moves running (if condition then left else right).2 := by
  split
  · exact first
  · exact second

/-! ## State and memory -/

theorem splice_user (user : UserContains address size) (fits : amount ≤ size) (memory bytes : Bytes)
    (outside : ¬ UserAddress place) : splice memory address amount bytes place = memory place := by
  rw [UserContains] at user
  rw [UserAddress] at outside
  exact splice_outside (by omega)

theorem moves_brk (address : UInt32) : Moves running (running.brk address).2 := by
  refine Moves.adapt .refl ⟨rfl, fun bounded => { bounded with brk := ?_ }⟩
  have brk := bounded.brk
  have cursor := bounded.mmapCursor
  have top : userStackTop ≤ userEnd := by decide
  dsimp only
  split
  next inside => omega
  · exact brk

/-- A mapping leaves all as it is, or gets the pages behind the last ones. -/
inductive Maps (running : Running) (size flags : UInt32) : UInt32 × Running → Prop where
  | unmapped (result : UInt32) (failed : flags &&& 0x10 = 0 → userEnd ≤ result.toNat) :
      Maps running size flags (result, running)
  | mapped {pages : Span} (first : pages.address = running.context.mmapCursor)
      (rounded : pages.size = alignUp size.toNat 4096) (user : UserContains pages.address pages.size)
      (fits : pages.address + pages.size ≤ userStackTop) :
      Maps running size flags (UInt32.ofNat pages.address,
        { running with
          context.mmapCursor := pages.address + pages.size
          memory := splice running.memory pages.address pages.size zeroBytes })

theorem mmap_maps (address size flags : UInt32) :
    Maps running size flags (running.mmap address size flags) := by
  rw [mmap]
  refine iteInduction (fun _ => .unmapped _ fun _ => error_large _) fun _ =>
    iteInduction (fun _ => .unmapped _ fun _ => error_large _) fun _ =>
    iteInduction (fun fixed => ?_) fun _ =>
    iteInduction (fun _ => .unmapped _ fun _ => error_large _) fun fits => ?_
  · split <;> exact .unmapped _ fun plain => absurd plain fixed
  · refine @Maps.mapped running size flags ⟨_, _⟩ rfl rfl ?_ ?_
    · exact not_not.mp fun outside => fits (.inl outside)
    · show running.context.mmapCursor + alignUp size.toNat 4096 ≤ userStackTop
      omega

theorem moves_mmap (address size flags : UInt32) :
    Moves running (running.mmap address size flags).2 := by
  have maps := @mmap_maps running address size flags
  generalize running.mmap address size flags = outcome at maps
  cases maps with
  | unmapped => exact .refl
  | mapped first rounded user fits =>
    refine (Moves.store .refl fun place => splice_user user le_rfl _ _).adapt
      ⟨rfl, fun bounded => { bounded with mmapCursor := ⟨?_, fits⟩ }⟩
    exact Nat.le_trans bounded.mmapCursor.1 (first ▸ Nat.le_add_right ..)

theorem moves_umask (mask : UInt32) : Moves running (running.umask mask).2 :=
  Moves.adapt .refl ⟨rfl, fun bounded => { bounded with }⟩

theorem moves_setsid : Moves running running.setsid.2 := by
  rw [setsid]
  split
  · exact .refl
  · exact Moves.adapt .refl ⟨rfl, fun bounded => { bounded with }⟩

theorem moves_setTidAddress (address : UInt32) : Moves running (running.setTidAddress address).2 :=
  Moves.adapt .refl ⟨rfl, fun bounded => { bounded with }⟩

theorem ordinary_signals (context : Context) (signals : SignalState) :
    Ordinary context { context with signals } :=
  ⟨rfl, fun bounded => { bounded with }⟩

theorem moves_rtSigaction (signal action old size : UInt32) :
    Moves running (running.rtSigaction signal action old size).2 := by
  rw [rtSigaction]
  split
  · exact .refl
  split
  · exact .refl
  rename_i valid
  have reported : Moves running
      (if old = 0 then running
        else { running with
          memory := putAction running.memory old.toNat
            (running.context.signals.actions (Fin.ofNat 65 signal.toNat)) }) := by
    split
    · exact .refl
    rename_i given
    rw [not_and, not_not] at valid
    have user := valid given
    refine Moves.store .refl fun place outside => ?_
    rw [UserContains] at user
    rw [UserAddress] at outside
    rw [putAction, put64, put32, put32, splice_outside (by omega), splice_outside (by omega),
      splice_outside (by omega)]
  dsimp only
  split
  · exact reported
  split
  · exact reported
  · split
    · exact reported.adapt (ordinary_signals ..)
    · exact reported

theorem moves_rtSigprocmask (operation set old size : UInt32) :
    Moves running (running.rtSigprocmask operation set old size).2 := by
  rw [rtSigprocmask]
  split
  · exact .refl
  split
  · exact .refl
  rename_i valid
  have reported : Moves running
      (if old = 0 then running
        else { running with
          memory := put64 running.memory old.toNat running.context.signals.blocked }) := by
    split
    · exact .refl
    next given =>
      rw [not_and, not_not] at valid
      exact Moves.store .refl fun place => splice_user (valid given) le_rfl _ _
  dsimp only
  split
  · exact reported
  split
  · exact reported
  split
  · exact reported.adapt (ordinary_signals ..)
  split
  · exact reported.adapt (ordinary_signals ..)
  split
  · exact reported.adapt (ordinary_signals ..)
  · exact reported

theorem moves_chdir (path : UInt32) : Moves running (running.chdir machine path).2 := by
  rw [chdir]
  split
  · exact .refl
  · split
    · exact Moves.adapt .refl ⟨rfl, fun bounded => { bounded with }⟩
    · exact .refl

/-! ## Descriptors -/

theorem moves_openat (descriptor path flags : UInt32) :
    Moves running (running.openat machine moment descriptor path flags).2 := by
  have opens := openat_opens machine running moment descriptor path flags
  generalize running.openat machine moment descriptor path flags = outcome at opens
  cases opens <;> exact .same rfl rfl

theorem moves_close (descriptor : UInt32) : Moves running (running.close machine descriptor).2 := by
  rw [close]
  split
  · dsimp only
    split
    · exact .refl
    · exact .same rfl rfl
  · exact .refl

theorem moves_duplicateTo (oldDescriptor newDescriptor : Nat) (flags : UInt32) :
    Moves running (running.duplicateTo machine oldDescriptor newDescriptor flags).2 := by
  rw [duplicateTo]
  split
  · dsimp only
    split
    · exact .refl
    split
    · exact .refl
    split <;> exact .same rfl rfl
  · exact .refl

theorem moves_pipe2 (address flags : UInt32) : Moves running (running.pipe2 address flags).2 := by
  rw [pipe2]
  split
  · exact .refl
  split
  · exact .refl
  rename_i valid
  simp only [not_or, not_not] at valid
  split
  · exact .refl
  split
  · exact .refl
  split
  · refine ⟨.refl _, fun place outside => ?_⟩
    rw [UserContains] at valid
    rw [UserAddress] at outside
    change put32 (put32 running.memory _ _) _ _ place = _
    rw [put32, put32, splice_outside (by omega), splice_outside (by omega)]
  · exact .same rfl rfl

theorem moves_fcntl (descriptor command argument : UInt32) :
    Moves running (running.fcntl machine descriptor command argument).2 := by
  rw [fcntl]
  split
  · split <;> exact .refl
  split
  · split
    · split
      · exact .refl
      · split <;> exact .refl
    · exact .refl
  split
  · split
    · split
      · exact .refl
      · split
        · exact .same rfl rfl
        · exact .refl
    · exact .refl
  split
  · exact .refl
  split
  · exact .refl
  split
  · exact .refl
  · exact moves_duplicateTo ..

theorem moves_lseek (descriptor offset : UInt32) :
    Moves running (running.lseek descriptor offset).2 := by
  rw [lseek]
  split
  · dsimp only
    split
    · exact .refl
    · exact .same rfl rfl
  · exact .refl

theorem moves_transferred (slot : Fin 16) (result : UInt32) :
    Moves running (running.transferred slot result).2 :=
  .same rfl rfl

/-! ## Sockets -/

theorem moves_socket (domain type protocol : UInt32) :
    Moves running (running.socket machine domain type protocol).2 := by
  unfold socket
  refine moves_ite .refl (moves_ite .refl (moves_ite .refl ?_))
  generalize (if type &&& ~~~(sockNonblock ||| sockCloexec) = 1 then SocketType.stream
    else .datagram) = kind
  dsimp only
  split
  · exact .same rfl rfl
  · split <;> exact .same rfl rfl

theorem moves_bind (descriptor address size : UInt32) :
    Moves running (running.bind descriptor address size).2 := by
  rw [bind]
  split
  · exact .refl
  · split <;> exact .same rfl rfl

theorem moves_listen (descriptor backlog : UInt32) :
    Moves running (running.listen descriptor backlog).2 := by
  rw [listen]
  split <;> exact .same rfl rfl

theorem moves_shutdownSocket (descriptor how : UInt32) :
    Moves running (running.shutdownSocket machine descriptor how).2 := by
  rw [shutdownSocket]
  split <;> exact .same rfl rfl

theorem moves_write (descriptor address size : UInt32) :
    Moves running (running.write machine moment descriptor address size).2 := by
  rw [write]
  split
  · exact .refl
  split
  · exact moves_ite .refl (moves_ite .refl (.same rfl rfl))
  · exact moves_transferred ..
  · exact .refl

end Running
end Mikos.Process
