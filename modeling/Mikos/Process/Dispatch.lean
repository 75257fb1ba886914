import Mikos.Process.Moves

/-!
# Every event by its moves

`dispatch_spec` and `step_spec` tell what a system call and an event do in terms of the moves.
-/

namespace Mikos.Process
open Library Network Function
namespace Kernel
open Relation
variable {machine : Machine} {kernel kernel' : Kernel} {moment : Moment} {outcome : Outcome}

/-! ## Calls that run programs -/

theorem copyUserString_length (copied : copyUserString memory address capacity = some name) :
    name.length < capacity := by
  induction capacity generalizing address name with
  | zero => cases copied
  | succ capacity ih =>
    rw [copyUserString] at copied
    split at copied
    · cases copied
    split at copied
    · cases copied
      exact Nat.succ_pos _
    · obtain ⟨rest, found, rfl⟩ := Option.map_eq_some_iff.mp copied
      have bound := ih found
      simp only [List.length_cons]
      omega

theorem readTexts_bound (read : readTexts memory address fuel = .ok texts) :
    texts.length ≤ fuel ∧ ∀ text ∈ texts, text.length < 128 := by
  induction fuel generalizing address texts with
  | zero =>
    cases read
    exact ⟨Nat.le_refl _, by simp⟩
  | succ fuel ih =>
    rw [readTexts] at read
    split at read
    · cases read
    split at read
    · cases read
      exact ⟨Nat.zero_le _, by simp⟩
    split at read
    · cases read
    rename_i first copied
    cases later : readTexts memory (address + 4) fuel with
    | error value =>
      rw [later] at read
      cases read
    | ok rest =>
      rw [later] at read
      cases read
      obtain ⟨length, short⟩ := ih later
      refine ⟨by simpa using length, fun text mem => ?_⟩
      rcases List.mem_cons.mp mem with rfl | mem
      · exact copyUserString_length copied
      · exact short text mem

theorem readTexts_admissible (read : readTexts memory address maxArguments = .ok texts) :
    Admissible texts :=
  ⟨(readTexts_bound read).1, (readTexts_bound read).2⟩

theorem saveParentMemory_of_saved (saved : kernel.suspended.parent.memorySaved = true) :
    kernel.saveParentMemory = (true, kernel) := by
  rw [saveParentMemory, if_pos saved]

/-- What `execve` checks before it tries to replace the program, and the texts that it reads. -/
structure ExecveReads (machine : Machine) (kernel : Kernel) (path argv envp : UInt32)
    (arguments environment : List Text) : Prop where
  aligned : ¬ (argv.toNat % 4 ≠ 0 ∨ envp.toNat % 4 ≠ 0)
  file : ∃ file, (kernel.executableNode machine path).1 = .file file ∧ ¬ file.type ≠ .regular ∧
    ¬ file.mode &&& 0o111 = 0
  idle : ¬ (machine.interactive ∧ kernel.suspended.background.used ∧
    (kernel.executableNode machine path).2 = kernel.suspended.background.executablePath)
  arguments : readTexts kernel.memory argv.toNat maxArguments = .ok arguments ∧
    ¬ (arguments.length = 0 ∨ arguments.length = maxArguments)
  environment : (if envp = 0 then .ok [] else readTexts kernel.memory envp.toNat maxArguments) =
    .ok environment ∧ environment.length ≠ maxArguments

/-- A call of `execve` fails before anything changes, or tries to replace the program. -/
theorem execve_cases {path argv envp : UInt32} (regular : kernel.suspended.parent.Regular) :
    ((∃ value, kernel.execve machine path argv envp = kernel.fails value) ∧
        ∀ arguments environment,
          ¬ ExecveReads machine kernel path argv envp arguments environment) ∨
      ∃ arguments environment, ExecveReads machine kernel path argv envp arguments environment ∧
        kernel.execve machine path argv envp =
          match kernel.replaceWithExecutable machine (kernel.executableNode machine path).2
            arguments environment with
          | (true, kernel) => { result := 0, kernel }
          | (false, kernel) => kernel.fails .execFormat := by
  have saved : (if kernel.suspended.parent.active = true then kernel.saveParentMemory
      else (true, kernel)) = (true, kernel) := by
    split
    next active => exact saveParentMemory_of_saved (regular.saved.trans active)
    · rfl
  rw [execve]
  dsimp only
  split
  next odd => exact .inl ⟨⟨_, rfl⟩, fun _ _ reads => reads.aligned odd⟩
  rename_i aligned
  split
  next file named =>
    have same {other} (isFile : (kernel.executableNode machine path).1 = .file other) :
        other = file := by
      rw [named] at isFile
      cases isFile
      rfl
    split
    next special =>
      exact .inl ⟨⟨_, rfl⟩, fun _ _ ⟨_, ⟨_, is, plain, _⟩, _, _, _⟩ => plain (same is ▸ special)⟩
    rename_i plain
    split
    next barred =>
      exact .inl ⟨⟨_, rfl⟩, fun _ _ ⟨_, ⟨_, is, _, may⟩, _, _, _⟩ => may (same is ▸ barred)⟩
    rename_i may
    split
    next busy => exact .inl ⟨⟨_, rfl⟩, fun _ _ reads => reads.idle busy⟩
    rename_i idle
    split
    next value failed =>
      exact .inl ⟨⟨_, rfl⟩, fun _ _ reads => by cases failed.symm.trans reads.arguments.1⟩
    rename_i arguments read
    split
    next count =>
      refine .inl ⟨⟨_, rfl⟩, fun _ _ reads => reads.arguments.2 ?_⟩
      cases read.symm.trans reads.arguments.1
      exact count
    rename_i counted
    rw [saved]
    dsimp only
    split
    next value failed =>
      exact .inl ⟨⟨_, rfl⟩, fun _ _ reads => by cases failed.symm.trans reads.environment.1⟩
    rename_i environment read'
    split
    next count =>
      refine .inl ⟨⟨_, rfl⟩, fun _ _ reads => reads.environment.2 ?_⟩
      cases read'.symm.trans reads.environment.1
      exact count
    next counted' =>
      exact .inr ⟨arguments, environment,
        ⟨aligned, ⟨file, named, plain, may⟩, idle, ⟨read, counted⟩, ⟨read', counted'⟩⟩, rfl⟩
  next other =>
    exact .inl ⟨⟨_, rfl⟩, fun _ _ ⟨_, ⟨file, is, _⟩, _, _, _⟩ => other file is⟩

theorem ExecveReads.admissible {given settings : List Text}
    (reads : ExecveReads machine kernel path argv envp given settings) :
    Admissible given ∧ Admissible settings := by
  refine ⟨readTexts_admissible reads.arguments.1, ?_⟩
  obtain ⟨read, -⟩ := reads.environment
  split at read
  · cases read
    exact ⟨Nat.zero_le _, by simp⟩
  · exact readTexts_admissible read

section
variable (regular : kernel.suspended.parent.Regular)
include regular

theorem execve_executes (path argv envp : UInt32) :
    (∃ value, kernel.execve machine path argv envp = kernel.fails value) ∨
      ∃ arguments environment replaced kernel', Admissible arguments ∧ Admissible environment ∧
        Executes machine kernel (kernel.executableNode machine path).2 arguments environment
          (replaced, kernel') ∧
        kernel.execve machine path argv envp =
          { result := if replaced then 0 else error .execFormat, kernel := kernel' } := by
  obtain ⟨fails, -⟩ | ⟨arguments, environment, reads, done⟩ :=
    @execve_cases machine kernel path argv envp regular
  · exact .inl fails
  have executes := @replaceWithExecutable_spec machine kernel
    (kernel.executableNode machine path).2 arguments environment
  rw [done]
  generalize kernel.replaceWithExecutable machine (kernel.executableNode machine path).2
    arguments environment = attempt at executes ⊢
  obtain ⟨replaced, after⟩ := attempt
  obtain ⟨given, settings⟩ := reads.admissible
  exact .inr ⟨arguments, environment, replaced, after, given, settings, executes,
    by cases replaced <;> rfl⟩

theorem dispatched_execve : Dispatched machine kernel (kernel.execve machine path argv envp) := by
  obtain ⟨value, fails⟩ | ⟨arguments, environment, replaced, after, admissible, admissible',
    executes, done⟩ := execve_executes regular path argv envp
  · rw [fails]
    exact .stays .refl
  · rw [done]
    exact .executes admissible admissible' executes

theorem dispatched_exit (done : kernel.exit machine status = .ok outcome) :
    Dispatched machine kernel outcome := by
  rw [exit] at done
  split at done
  next active =>
    obtain ⟨memory, arena, loaded, freed, rfl⟩ :=
      (exitToParent_eq_ok (regular.saved.trans active)).mp done
    exact .ends active loaded freed
  split at done
  · split at done
    · cases done
    split at done
    · cases done
    split at done
    next replaced =>
      cases done
      exact .startsStress (replaced ▸ replaceWithExecutable_spec)
    · cases done
  · cases done

end

/-! ## Children and signals -/

theorem dispatched_wait4 : Dispatched machine kernel (kernel.wait4 selector status) := by
  rw [wait4]
  split
  · exact .stays .refl
  split
  · exact .stays .refl
  rename_i valid
  refine .reaps fun place outside => ?_
  split
  · rfl
  next given =>
    rw [not_and, not_not] at valid
    exact Running.splice_user (valid given) le_rfl _ _ outside

theorem dispatched_waitid :
    Dispatched machine kernel (kernel.waitid which pid address options) := by
  rw [waitid]
  split
  · exact .stays .refl
  split
  · split
    next empty =>
      exact .stays (quiets_of_moves (.store .refl fun place =>
        Running.splice_user empty.2 le_rfl _ _))
    · exact .stays .refl
  rename_i i _
  split
  · exact .stays .refl
  rename_i user
  rw [not_not] at user
  have outside : ∀ place, ¬ UserAddress place → splice kernel.memory address.toNat 128
      (childSiginfo (kernel.children i)) place = kernel.memory place :=
    fun place => Running.splice_user user le_rfl _ _
  split
  · exact .reaps outside
  · exact .stays (quiets_of_moves (.store .refl outside))

theorem dispatched_setpgid : Dispatched machine kernel (kernel.setpgid pid group) := by
  rw [setpgid]
  split
  · exact .regroups
  dsimp only
  split
  · exact .stays .refl
  generalize (if group = 0 then kernel.context.pid else group.toNat) = processGroup
  split
  · exact .stays .refl
  split
  · exact .stays .refl
  · exact .stays (quiets_of_moves (.adapt .refl ⟨rfl, fun bounded => { bounded with }⟩))

theorem quiets_sendSignal (pid signal : UInt32) :
    Quiets machine kernel (kernel.sendSignal pid signal).kernel ∧
      (kernel.sendSignal pid signal).switch = .stays := by
  rw [sendSignal]
  split
  · exact ⟨.refl, rfl⟩
  split
  · exact ⟨.refl, rfl⟩
  split
  · exact ⟨.refl, rfl⟩
  split
  · exact ⟨.single .signalsParent, rfl⟩
  · exact ⟨quiets_of_moves (.adapt .refl (Running.ordinary_signals ..)), rfl⟩

/-! ## Events -/

theorem dispatched_runs (moves : Running.Moves kernel.toRunning (call kernel.toRunning).2) :
    Dispatched machine kernel (kernel.runs call) :=
  .stays (quiets_of_moves moves)

theorem dispatched_of_quiets
    (quiets : Quiets machine kernel outcome.kernel ∧ outcome.switch = .stays) :
    Dispatched machine kernel outcome := by
  obtain ⟨switch, result, kernel'⟩ := outcome
  obtain ⟨quiets, same⟩ := quiets
  cases same
  exact .stays quiets

theorem number_of_clone (called : SystemCall.ofNumber number = .clone) :
    number = cloneSystemCall := by
  rw [SystemCall.ofNumber] at called
  cases found : SystemCall.numbers.lookup number with
  | none =>
    rw [found] at called
    cases called
  | some call =>
    rw [found] at called
    cases called
    obtain ⟨before, later, numbers, -⟩ := List.lookup_eq_some_iff.mp found
    have mem : (number, SystemCall.clone) ∈ SystemCall.numbers := by
      rw [numbers]
      simp
    have unique : ∀ entry ∈ SystemCall.numbers, entry.2 = .clone → entry.1 = cloneSystemCall := by
      decide
    exact unique _ mem rfl

theorem dispatch_spec (healthy : kernel.Healthy)
    (done : kernel.dispatch machine moment = .ok outcome) : Dispatched machine kernel outcome := by
  obtain ⟨blocks, represents⟩ := healthy.represents
  have regular := healthy.orderly.parent
  have other : ∀ {call : SystemCall}, SystemCall.ofNumber kernel.context.frame.number = call →
      call ≠ .clone → kernel.context.frame.number ≠ cloneSystemCall := by
    rintro _ rfl apart same
    rw [same] at apart
    exact apart (by decide)
  rw [dispatch] at done
  generalize called : SystemCall.ofNumber kernel.context.frame.number = call at done
  cases call with
  | dup3 => cases done; exact dispatched_runs (Running.moves_duplicateTo ..)
  | fcntl => cases done; exact dispatched_runs (Running.moves_fcntl ..)
  | chdir => cases done; exact dispatched_runs (Running.moves_chdir ..)
  | openat => cases done; exact dispatched_runs (Running.moves_openat ..)
  | close => cases done; exact dispatched_runs (Running.moves_close ..)
  | pipe2 => cases done; exact dispatched_runs (Running.moves_pipe2 ..)
  | lseek => cases done; exact dispatched_runs (Running.moves_lseek ..)
  | read => exact .waited (other called (by decide)) (waits_read healthy _ done)
  | write => cases done; exact dispatched_runs (Running.moves_write ..)
  | pselect6
  | pselect6Time64 => exact .waited (other called (by decide)) (waits_pselect6 healthy _ done)
  | ppoll
  | ppoll64 => exact .waited (other called (by decide)) (waits_ppoll healthy _ done)
  | exit => exact dispatched_exit regular done
  | waitid => cases done; exact dispatched_waitid
  | setTidAddress => cases done; exact dispatched_runs (Running.moves_setTidAddress ..)
  | kill => cases done; exact dispatched_of_quiets (quiets_sendSignal ..)
  | tgkill =>
    cases done
    split
    · exact dispatched_of_quiets (quiets_sendSignal ..)
    · exact .stays .refl
  | rtSigaction => cases done; exact dispatched_runs (Running.moves_rtSigaction ..)
  | rtSigprocmask => cases done; exact dispatched_runs (Running.moves_rtSigprocmask ..)
  | setpgid => cases done; exact dispatched_setpgid
  | setsid => cases done; exact dispatched_runs Running.moves_setsid
  | umask => cases done; exact dispatched_runs (Running.moves_umask ..)
  | socket => cases done; exact dispatched_runs (Running.moves_socket ..)
  | bind => cases done; exact dispatched_runs (Running.moves_bind ..)
  | listen => cases done; exact dispatched_runs (Running.moves_listen ..)
  | accept
  | accept4 => exact .waited (other called (by decide)) (waits_accept healthy _ done)
  | shutdown => cases done; exact dispatched_runs (Running.moves_shutdownSocket ..)
  | brk => cases done; exact dispatched_runs (Running.moves_brk ..)
  | clone =>
    cases done
    exact .clones (number_of_clone called) (clone_spec represents regular ..)
  | execve => cases done; exact dispatched_execve regular
  | mmap2 => cases done; exact dispatched_runs (Running.moves_mmap ..)
  | wait4 => cases done; exact dispatched_wait4
  | other => cases done; exact .stays .refl

theorem step_spec (healthy : kernel.Healthy) (done : kernel.step machine event = .ok result) :
    Stepped machine kernel event result := by
  cases event with
  | user frame bytes pending blocked signalFrame =>
    cases done
    refine .quiet (quiets_of_moves ((Running.Moves.store .refl fun address outside => ?_).adapt
      ⟨rfl, fun bounded => { bounded with }⟩)) rfl
    exact if_neg outside
  | call moment =>
    obtain ⟨outcome, dispatched, same⟩ := Halting.bind_eq_ok.mp done
    cases same
    exact .trap (dispatch_spec healthy dispatched)
  | start
  | poll
  | ioctl
  | transfer
  | files =>
    cases done
    exact .quiet (quiets_of_moves (.same rfl rfl)) rfl

theorem step_exit (called : SystemCall.ofNumber kernel.context.frame.number = .exit)
    (regular : kernel.suspended.parent.Regular) (active : kernel.suspended.parent.active = true) :
    kernel.step machine (.call moment) = .ok (switch, kernel') ↔
      ∃ memory arena,
        kernel.leaving.reloadIfReplaced machine kernel.suspended.parent.toSavedContext =
          .ok memory ∧
        releaseSnapshot kernel.arena kernel.suspended.parent.snapshot = .ok arena ∧
        switch = .ends ∧
        kernel' = (kernel.leaving.adoptParent machine memory arena (kernel.context.frame.argument 0)
          true true).reinstated.finish (UInt32.ofNat kernel.suspended.parent.childPid) := by
  rw [step, trap, Halting.bind_eq_ok]
  simp only [dispatch, called, exit, if_pos active, exitToParent_eq_ok (regular.saved.trans active)]
  constructor
  · rintro ⟨_, ⟨memory, arena, loaded, freed, rfl⟩, same⟩
    cases same
    exact ⟨memory, arena, loaded, freed, rfl, rfl⟩
  · rintro ⟨memory, arena, loaded, freed, rfl, rfl⟩
    exact ⟨_, ⟨memory, arena, loaded, freed, rfl⟩, rfl⟩

theorem course_cons : kernel.course machine (event :: events) = .ok (switches, kernel') ↔
      ∃ switch between rest, kernel.step machine event = .ok (switch, between) ∧
        between.course machine events = .ok (rest, kernel') ∧ switches = switch :: rest := by
  rw [course]
  simp only [Halting.bind_eq_ok]
  constructor
  · rintro ⟨⟨switch, between⟩, stepped, ⟨rest, kernel'⟩, went, same⟩
    cases same
    exact ⟨switch, between, rest, stepped, went, rfl⟩
  · rintro ⟨switch, between, rest, stepped, went, rfl⟩
    exact ⟨(switch, between), stepped, (rest, kernel'), went, rfl⟩

end Kernel
end Mikos.Process
