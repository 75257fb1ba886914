import Mikos.Library.Packing
import Mikos.Process.Executable

/-!
# What a new program reads from its stack
-/

namespace Mikos.Process
open Library List

/-- Words stand in memory one behind the other. -/
def Words (memory : Bytes) (start : Nat) (words : List Nat) : Prop :=
  ∀ position word, words[position]? = some word → littleU32 memory (start + 4 * position) = word

/-- The address is that of a text with a zero byte at its end. -/
def Names (memory : Bytes) (address : Nat) (string : Text) : Prop :=
  ∀ position ≤ string.length, memory (address + position) = textBytes string position

/-- Texts fill the memory from `start` to `stop`. -/
inductive Lies (memory : Bytes) : List Text → List Nat → Nat → Nat → Prop
  | nil : Lies memory [] [] stop stop
  | cons (names : Names memory start string)
      (rest : Lies memory texts addresses (start + (string.length + 1)) stop) :
      Lies memory (string :: texts) (start :: addresses) start stop

namespace Lies

theorem bounds (lies : Lies memory texts addresses start stop) :
    start ≤ stop ∧ ∀ address ∈ addresses, start ≤ address ∧ address < stop := by
  induction lies with
  | nil => simp
  | cons names rest ih =>
    refine ⟨by omega, forall_mem_cons.2 ⟨by omega, fun address mem => ?_⟩⟩
    have bounds := ih.2 address mem
    omega

theorem congr (lies : Lies memory texts addresses start stop)
    (same : ∀ address, start ≤ address → address < stop → memory' address = memory address) :
    Lies memory' texts addresses start stop := by
  induction lies with
  | nil => exact .nil
  | cons names rest ih =>
    have below := rest.bounds.1
    exact .cons (fun i bound => (same _ (by omega) (by omega)).trans (names i bound))
      (ih fun address low => same address (by omega))

theorem append (lies : Lies memory texts addresses start middle)
    (above : Lies memory texts' addresses' middle stop) :
    Lies memory (texts ++ texts') (addresses ++ addresses') start stop := by
  induction lies with
  | nil => exact above
  | cons names rest ih => exact .cons names (ih above)

theorem named (lies : Lies memory texts addresses start stop) :
    Forall₂ (Names memory) addresses texts := by
  induction lies with
  | nil => exact .nil
  | cons names rest ih => exact .cons names ih

theorem apart (lies : Lies memory texts addresses start stop) :
    let spans := zipWith Span.mk addresses (texts.map fun string => string.length + 1)
    (∀ span ∈ spans, start ≤ span.address) ∧ spans.Pairwise Span.Apart := by
  induction lies with
  | nil => simp
  | cons names rest ih =>
    refine ⟨forall_mem_cons.2 ⟨Nat.le_refl _, fun span mem => ?_⟩,
      pairwise_cons.2 ⟨fun span mem => .inl (ih.1 span mem), ih.2⟩⟩
    have low := ih.1 span mem
    omega

end Lies

/-- The room that texts take, with the zero bytes at their ends. -/
def textsSize (texts : List Text) : Nat := (texts.map fun text => text.length + 1).sum

theorem textsSize_cons (first : Text) (rest : List Text) :
    textsSize (first :: rest) = first.length + 1 + textsSize rest := by
  simp [textsSize]

theorem textsSize_le (short : ∀ text ∈ texts, text.length < 128) :
    textsSize texts ≤ 128 * texts.length := by
  induction texts with
  | nil => exact Nat.le_refl 0
  | cons first rest ih =>
    rw [forall_mem_cons] at short
    have tail := ih short.2
    rw [textsSize_cons, length_cons]
    omega

/-- What putting texts on the stack does. -/
structure CopiedDown (texts : List Text) (cursor : Nat) (memory : Bytes)
    (result : Nat × List Nat × Bytes) : Prop where
  moved : result.1 + textsSize texts = cursor
  addresses : result.2.1.length = texts.length
  lies : Lies result.2.2 texts result.2.1 result.1 cursor
  outside : ∀ address, address < result.1 ∨ cursor ≤ address →
    result.2.2 address = memory address

theorem copyStringsDown_cons (first : Text) (rest : List Text) (cursor : Nat) (memory : Bytes) :
    copyStringsDown (first :: rest) cursor memory = let below := copyStringsDown rest cursor memory
      (below.1 - (first.length + 1), (below.1 - (first.length + 1)) :: below.2.1,
        splice below.2.2 (below.1 - (first.length + 1)) (first.length + 1) (textBytes first)) :=
  rfl

theorem copyStringsDown_spec {texts : List Text} {cursor : Nat} (memory : Bytes)
    (room : textsSize texts ≤ cursor) :
    CopiedDown texts cursor memory (copyStringsDown texts cursor memory) := by
  induction texts with
  | nil => exact ⟨rfl, rfl, .nil, fun _ _ => rfl⟩
  | cons first rest ih =>
    have total := textsSize_cons first rest
    obtain ⟨moved, addresses, lies, outside⟩ := ih (by omega)
    rw [copyStringsDown_cons]
    refine ⟨?_, by simp [addresses], .cons (fun i bound => ?_) ?_, fun address apart => ?_⟩
    · dsimp only
      omega
    · dsimp only
      rw [splice_inside (by omega), Nat.add_sub_cancel_left]
    · rw [Nat.sub_add_cancel (by omega)]
      exact lies.congr fun address low high => splice_outside (by omega)
    · dsimp only at apart ⊢
      rw [splice_outside (by omega), outside address (by omega)]

theorem putWords_outside (outside : address < start ∨ start + 4 * words.length ≤ address) :
    putWords words start memory address = memory address := by
  induction words generalizing start memory with
  | nil => rfl
  | cons word rest ih =>
    rw [length_cons] at outside
    rw [putWords, ih (by omega), put32, splice_outside (by omega)]

theorem putWords_words (small : ∀ word ∈ words, word < 0x100000000) :
    Words (putWords words start memory) start words := by
  induction words generalizing start memory with
  | nil => simp [Words]
  | cons first rest ih =>
    rintro (_ | i) word found
    · obtain rfl : first = word := by simpa using found
      -- The other words are written behind the first one.
      have same : littleU32 (putWords rest (start + 4) (put32 memory start first)) start =
          littleU32 (put32 memory start first) start :=
        littleU32_congr fun i _ _ => putWords_outside (by omega)
      rw [Nat.mul_zero, Nat.add_zero, putWords, same, littleU32_put32,
        Nat.mod_eq_of_lt (small first mem_cons_self)]
    · rw [show start + 4 * (i + 1) = start + 4 + 4 * i by omega]
      exact ih (fun word mem => small word (mem_cons_of_mem _ mem)) i word (by simpa using found)

/-! ## The parts of a stack -/

/-- Arguments of a size that a system call accepts. -/
structure Admissible (texts : List Text) : Prop where
  few : texts.length ≤ 16
  short : ∀ text ∈ texts, text.length < 128

theorem Admissible.size (admissible : Admissible texts) : textsSize texts ≤ 2048 := by
  have sized := textsSize_le admissible.short
  have few := admissible.few
  omega

/-- Below the texts of the arguments and the environment stand the random bytes and the words. -/
theorem makeInitialStack_parts (admissible : Admissible arguments)
    (admissible' : Admissible environment) (image : Image) (memory : Bytes) :
    ∃ cursor pointers pointers' words below,
      words = arguments.length :: pointers ++ 0 :: pointers' ++
        0 :: auxiliaryVector image (cursor - 16) (pointers.headD 0) ∧
      words.length ≤ 69 ∧ pointers.length = arguments.length ∧ userStackTop ≤ cursor + 0x1000 ∧
      Lies below (arguments ++ environment) (pointers ++ pointers') cursor userStackTop ∧
      (∀ address, address < cursor ∨ userStackTop ≤ address → below address = memory address) ∧
      makeInitialStack image arguments environment memory =
        (alignDown (cursor - 16 - words.length * 4) 16,
          putWords words (alignDown (cursor - 16 - words.length * 4) 16)
            (splice below (cursor - 16) 16 stackRandom)) := by
  have top : userStackTop = 0x81fff000 := rfl
  have size := admissible.size
  have size' := admissible'.size
  have few := admissible.few
  have few' := admissible'.few
  have first := @copyStringsDown_spec environment userStackTop memory (by omega)
  rw [makeInitialStack]
  generalize copyStringsDown environment userStackTop memory = above at first ⊢
  obtain ⟨cursor, pointers', between⟩ := above
  obtain ⟨moved, number, upper, outside⟩ := first
  dsimp only at moved number upper outside ⊢
  have second := @copyStringsDown_spec arguments cursor between (by omega)
  generalize copyStringsDown arguments cursor between = below at second ⊢
  obtain ⟨cursor', pointers, below⟩ := below
  obtain ⟨moved', number', lower, outside'⟩ := second
  dsimp only at moved' number' lower outside' ⊢
  refine ⟨cursor', pointers, pointers', _, below, rfl, ?_, number', by omega,
    lower.append (upper.congr fun address above _ => outside' address (by omega)),
    fun address apart => ?_, rfl⟩
  · simp only [auxiliaryVector, length_append, length_cons, length_nil]
    omega
  · rw [outside' address (by omega), outside address (by omega)]

/-- The initial stack is made in two pages at the top of user memory. -/
theorem makeInitialStack_spec (admissible : Admissible arguments)
    (admissible' : Admissible environment) (image : Image) (memory : Bytes) :
    let made := makeInitialStack image arguments environment memory
    userStackTop - 0x2000 ≤ made.1 ∧ made.1 ≤ userStackTop ∧
      ∀ address, address < made.1 ∨ userStackTop ≤ address → made.2 address = memory address := by
  have top : userStackTop = 0x81fff000 := rfl
  obtain ⟨cursor, pointers, pointers', words, below, -, length, -, room, lies, outside, made⟩ :=
    makeInitialStack_parts admissible admissible' image memory
  have inside := lies.bounds.1
  rw [made]
  have low := lt_alignDown_add (cursor - 16 - words.length * 4) (show 0 < 16 by decide)
  have high := alignDown_le (cursor - 16 - words.length * 4) 16
  dsimp only
  refine ⟨by omega, by omega, fun address apart => ?_⟩
  rw [putWords_outside (by omega), splice_outside (by omega), outside address (by omega)]

/-- A program finds its arguments, its environment and the auxiliary pairs on its stack. -/
theorem makeInitialStack_reads (admissible : Admissible arguments)
    (admissible' : Admissible environment)
    (machine : image.programHeaders < 2 ^ 32 ∧ image.programCount < 2 ^ 32 ∧ image.entry < 2 ^ 32) :
    let (stack, memory) := makeInitialStack image arguments environment memory
    stack % 16 = 0 ∧ stack < userStackTop ∧ ∃ pointers pointers' random,
      let words := arguments.length :: pointers ++ 0 :: pointers' ++
        0 :: auxiliaryVector image random (pointers.headD 0)
      Words memory stack words ∧ 0 ∉ pointers ++ pointers' ∧
      Forall₂ (Names memory) (pointers ++ pointers') (arguments ++ environment) ∧
      pointers.length = arguments.length ∧
      (∀ position < 16, memory (random + position) = stackRandom position) ∧
      (⟨stack, 4 * words.length⟩ :: ⟨random, 16⟩ :: zipWith Span.mk (pointers ++ pointers')
        ((arguments ++ environment).map fun string => string.length + 1)).Pairwise Span.Apart := by
  have top : userStackTop = 0x81fff000 := rfl
  have few := admissible.few
  obtain ⟨cursor, pointers, pointers', vector, below, words, length, number, room, lies, -, made⟩ :=
    makeInitialStack_parts admissible admissible' image memory
  have inside := lies.bounds.1
  rw [made]
  have high := alignDown_le (cursor - 16 - vector.length * 4) 16
  have aligned := alignDown_mod (cursor - 16 - vector.length * 4) 16
  generalize alignDown (cursor - 16 - vector.length * 4) 16 = stack at high aligned ⊢
  -- The texts stand above the words and the random bytes.
  replace lies := lies.congr fun address (above : cursor ≤ address) _ =>
    show putWords vector stack (splice below (cursor - 16) 16 stackRandom) address = _ by
      rw [putWords_outside (by omega), splice_outside (by omega)]
  have bounds := lies.bounds.2
  have spans := lies.apart
  refine ⟨aligned, by omega, pointers, pointers', cursor - 16, ?_⟩
  rw [← words]
  refine ⟨putWords_words ?_, fun member => ?_, lies.named, number, fun position bound => ?_, ?_⟩
  · have small : ∀ address ∈ pointers ++ pointers', address < 0x100000000 :=
      fun address member => (bounds address member).2.trans (by decide)
    have head : pointers.headD 0 < 0x100000000 := by
      cases pointers with
      | nil => decide
      | cons first rest => exact small first (by simp)
    rw [forall_mem_append] at small
    rw [words]
    simp only [cons_append, forall_mem_cons, forall_mem_append, auxiliaryVector, not_mem_nil,
      false_implies, implies_true, and_true, programHeaderSize]
    exact ⟨by omega, ⟨small.1, by omega, small.2⟩, by omega⟩
  · have low := (bounds 0 member).1
    omega
  · rw [putWords_outside (by omega), splice_inside (by omega), Nat.add_sub_cancel_left]
  simp only [pairwise_cons, forall_mem_cons]
  refine ⟨⟨.inl (by dsimp only; omega), fun span member => ?_⟩, fun span member => ?_, spans.2⟩
  all_goals
    have low := spans.1 span member
    exact .inl (by dsimp only; omega)

/-- A program with the arguments `ls` and `-l` and one variable. -/
theorem makeInitialStack_reads_two :
    let (stack, memory) := makeInitialStack { entry := 0x81000054 }
      [[0x6c, 0x73], [0x2d, 0x6c]] [[0x41, 0x3d, 0x31]] zeroBytes
    littleU32 memory stack = 2 ∧ ∃ pointers pointers', pointers.length = 2 ∧
      Forall₂ (Names memory) (pointers ++ pointers')
        [[0x6c, 0x73], [0x2d, 0x6c], [0x41, 0x3d, 0x31]] := by
  have reads := @makeInitialStack_reads [[0x6c, 0x73], [0x2d, 0x6c]] [[0x41, 0x3d, 0x31]]
    { entry := 0x81000054 } zeroBytes ⟨by decide, by decide⟩ ⟨by decide, by decide⟩ (by decide)
  generalize makeInitialStack _ _ _ _ = made at reads ⊢
  obtain ⟨-, -, pointers, pointers', random, words, -, names, number, -⟩ := reads
  exact ⟨words 0 2 rfl, pointers, pointers', number, names⟩

end Mikos.Process
