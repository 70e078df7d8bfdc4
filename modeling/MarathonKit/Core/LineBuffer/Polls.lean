import MarathonKit.Core.LineBuffer.Store

/-!
The two polls on the chunks that are ready.

`linesReady` loads until a line is complete or nothing is ready, so it is known
from the script alone how many chunks it reads (`chunksNeeded`). `charsReady`
loads at most one chunk, and only into an empty buffer; what it has loaded,
`linesReady` does not have to load again. An empty chunk makes the two differ:
`charsReady` takes it for the whole answer, `linesReady` goes on.
-/

namespace MarathonKit.Core.LineBuffer

open Dialogue Dialogue.Method FileDescriptor

/-- The chunks that are ready, and what is left of them: a poll is positive as
long as there is one. -/
def arriving : (q : Request) → List Bytes → Option (Answer q × List Bytes)
  | .isReadyForReading _, chunks => some (.ok !chunks.isEmpty, chunks)
  | .read _, [] => none
  | .read _, chunk :: rest => some (.ok chunk, rest)
  | .write _ _, chunks => some (.ok (), chunks)
  | .logw _, chunks => some ((), chunks)

/-- How many chunks must be read to have a line, if one can be had at all. -/
def chunksNeeded (held : Bytes) (chunks : List Bytes) : Nat :=
  if newline ∈ held then 0
  else
    match chunks.findIdx? fun chunk => newline ∈ chunk with
    | some i => i + 1
    | none => chunks.length

/-- The chunks that are read. -/
def needed (held : Bytes) (chunks : List Bytes) : Bytes :=
  (chunks.take (chunksNeeded held chunks)).flatten

/-- So many calls of `charsReady`, one after the other. -/
def poll : Nat → Method Unit
  | 0 => pure ()
  | times + 1 => do
      let _ ← charsReady
      poll times

variable {held chunk : Bytes} {chunks rest : List Bytes} {buffer : LineBuffer} {fd : FdPtr}
  {bound : Nat}

@[simp] theorem chunksNeeded_nil : chunksNeeded held [] = 0 := by
  simp [chunksNeeded]

theorem chunksNeeded_of_mem (line : newline ∈ held) : chunksNeeded held chunks = 0 := by
  simp [chunksNeeded, line]

/-- Without a line the next chunk is read, and what is needed then is what is
needed with the chunk in the buffer. -/
theorem chunksNeeded_cons (noLine : newline ∉ held) :
    chunksNeeded held (chunk :: rest) = chunksNeeded (held ++ chunk) rest + 1 := by
  by_cases completes : newline ∈ chunk
  · simp [chunksNeeded, List.findIdx?_cons, noLine, completes]
  · cases found : rest.findIdx? fun chunk => newline ∈ chunk <;>
      simp [chunksNeeded, List.findIdx?_cons, noLine, completes, found]

theorem chunksNeeded_le : chunksNeeded held chunks ≤ chunks.length := by
  induction chunks generalizing held with
  | nil => simp
  | cons chunk rest ih =>
      by_cases line : newline ∈ held
      · simp [chunksNeeded_of_mem line]
      · simpa [chunksNeeded_cons line] using ih

theorem needed_of_mem (line : newline ∈ held) : needed held chunks = [] := by
  simp [needed, chunksNeeded_of_mem line]

theorem needed_cons (noLine : newline ∉ held) :
    needed held (chunk :: rest) = chunk ++ needed (held ++ chunk) rest := by
  simp [needed, chunksNeeded_cons noLine]

/-- What is not read could only be left because a line is there. -/
theorem newline_mem_of_left (left : chunksNeeded held chunks < chunks.length) :
    newline ∈ held ++ needed held chunks := by
  induction chunks generalizing held with
  | nil => simp at left
  | cons chunk rest ih =>
      by_cases line : newline ∈ held
      · simp [line]
      · rw [chunksNeeded_cons line, List.length_cons] at left
        rw [needed_cons line, ← List.append_assoc]
        exact ih (Nat.lt_of_succ_lt_succ left)

/-- Before the last chunk that is read, there was no line. -/
theorem newline_not_mem_before {j : Nat} (before : j < chunksNeeded held chunks) :
    newline ∉ held ++ (chunks.take j).flatten := by
  induction chunks generalizing held j with
  | nil => simp at before
  | cons chunk rest ih =>
      by_cases line : newline ∈ held
      · simp [chunksNeeded_of_mem line] at before
      · cases j with
        | zero => simpa using line
        | succ j =>
            rw [chunksNeeded_cons line] at before
            simpa using ih (Nat.lt_of_succ_lt_succ before)

/-! ### Both polls against the script -/

theorem loadLoop_serve (attached : buffer.mFd = some fd) (inv : buffer.Inv)
    (enough : chunks.length < bound) :
    (whileLoop noLineButReady loadChars bound buffer).serve arriving chunks =
      (.returned (buffer.loaded (needed buffer.mBuffer chunks)) (),
        chunks.drop (chunksNeeded buffer.mBuffer chunks)) := by
  induction bound generalizing buffer chunks with
  | zero => omega
  | succ bound ih =>
      rw [whileLoop_unroll]
      by_cases line : newline ∈ buffer.mBuffer
      · have ready : buffer.mLinesReady ≠ 0 := inv.linesReady_ne_zero.mpr line
        simp [noLineButReady, ready, Call.serve, needed_of_mem line, chunksNeeded_of_mem line]
      have none : buffer.mLinesReady = 0 := inv.linesReady_eq_zero.mpr line
      cases chunks with
      | nil => simp [noLineButReady, none, attached, Call.serve, arriving, needed]
      | cons chunk rest =>
          have inv' : (buffer.loaded chunk).Inv := inv.loaded (by simp [attached]) chunk
          have fewer : rest.length < bound := Nat.lt_of_succ_lt_succ enough
          have further := ih (by simpa using attached) inv' fewer
          simpa [noLineButReady, none, attached, loadChars_some attached, Call.serve, arriving,
            needed_cons line, chunksNeeded_cons line] using further

theorem linesReady_serve (attached : buffer.mFd = some fd) (inv : buffer.Inv)
    (enough : chunks.length < bound) :
    (linesReady bound buffer).serve arriving chunks =
      (.returned (buffer.loaded (needed buffer.mBuffer chunks))
          ((buffer.mBuffer ++ needed buffer.mBuffer chunks).count newline),
        chunks.drop (chunksNeeded buffer.mBuffer chunks)) := by
  have body : linesReady bound buffer =
      (whileLoop noLineButReady loadChars bound buffer).andThen fun s _ =>
        .returned s s.mLinesReady := by
    simp [linesReady, isInitialized, attached]
  rw [body, Call.serve_andThen, loadLoop_serve attached inv enough]
  simp [Call.serve, inv.counted]

/-- A buffer that is not empty is only measured. -/
theorem charsReady_buffered (attached : buffer.mFd = some fd) (buffered : buffer.mBuffer ≠ []) :
    charsReady buffer = .returned buffer buffer.mBuffer.length := by
  simp [charsReady, isInitialized, attached, emptyButReady, buffered]

theorem charsReady_serve_nil (attached : buffer.mFd = some fd) (isEmpty : buffer.mBuffer = []) :
    (charsReady buffer).serve arriving [] = (.returned buffer 0, []) := by
  simp [charsReady, isInitialized, attached, emptyButReady, isEmpty, Call.serve, arriving]

/-- One chunk is loaded, whatever is in it. -/
theorem charsReady_serve_cons (attached : buffer.mFd = some fd) (isEmpty : buffer.mBuffer = []) :
    (charsReady buffer).serve arriving (chunk :: rest) =
      (.returned (buffer.loaded chunk) chunk.length, rest) := by
  simp [charsReady, isInitialized, attached, emptyButReady, isEmpty, loadChars_some attached,
    Call.serve, arriving]

/-- The buffer and the script as `charsReady` leaves them: what has been loaded
is what `linesReady` would have loaded first. -/
structure Ahead (buffer : LineBuffer) (chunks : List Bytes) (s : LineBuffer) (rest : List Bytes) :
    Prop where
  sameFd : s.mFd = buffer.mFd
  inv : s.Inv
  fewer : rest.length ≤ chunks.length
  loads : s.loaded (needed s.mBuffer rest) = buffer.loaded (needed buffer.mBuffer chunks)
  leaves : rest.drop (chunksNeeded s.mBuffer rest) =
    chunks.drop (chunksNeeded buffer.mBuffer chunks)

theorem Ahead.refl (inv : buffer.Inv) : Ahead buffer chunks buffer chunks :=
  ⟨rfl, inv, Nat.le_refl _, rfl, rfl⟩

theorem Ahead.trans {s s' : LineBuffer} {rest' : List Bytes} (first : Ahead buffer chunks s rest)
    (second : Ahead s rest s' rest') : Ahead buffer chunks s' rest' where
  sameFd := second.sameFd.trans first.sameFd
  inv := second.inv
  fewer := Nat.le_trans second.fewer first.fewer
  loads := second.loads.trans first.loads
  leaves := second.leaves.trans first.leaves

theorem charsReady_ahead (attached : buffer.mFd = some fd) (inv : buffer.Inv)
    (chunks : List Bytes) :
    ∃ s rest, (charsReady buffer).serve arriving chunks = (.returned s s.mBuffer.length, rest) ∧
      Ahead buffer chunks s rest := by
  by_cases isEmpty : buffer.mBuffer = []
  · cases chunks with
    | nil =>
        refine ⟨buffer, [], ?_, .refl inv⟩
        simp [charsReady_serve_nil attached isEmpty, isEmpty]
    | cons chunk rest =>
        have noLine : newline ∉ buffer.mBuffer := by simp [isEmpty]
        refine ⟨buffer.loaded chunk, rest, ?_, rfl, inv.loaded (by simp [attached]) chunk, by simp,
          ?_, ?_⟩
        · simp [charsReady_serve_cons attached isEmpty, isEmpty]
        · simp [needed_cons noLine]
        · simp [chunksNeeded_cons noLine]
  · exact ⟨buffer, chunks, by rw [charsReady_buffered attached isEmpty]; rfl, .refl inv⟩

theorem poll_ahead (times : Nat) (attached : buffer.mFd = some fd) (inv : buffer.Inv)
    (chunks : List Bytes) :
    ∃ s rest, (poll times buffer).serve arriving chunks = (.returned s (), rest) ∧
      Ahead buffer chunks s rest := by
  induction times generalizing buffer chunks with
  | zero => exact ⟨buffer, chunks, rfl, .refl inv⟩
  | succ times ih =>
      obtain ⟨s, rest, served, first⟩ := charsReady_ahead attached inv chunks
      obtain ⟨s', rest', served', second⟩ := ih (first.sameFd.trans attached) first.inv rest
      refine ⟨s', rest', ?_, first.trans second⟩
      rw [poll, bind_apply, Call.serve_andThen, served]
      exact served'

/-- `linesReady` on what is ready: it reads up to the first chunk that completes
a line, or all there is; it counts the lines that are then in the buffer; and it
does so also if `charsReady` was called any number of times before. -/
theorem linesReady_exact (reachable : Reachable buffer) (attached : buffer.mFd = some fd)
    (chunks : List Bytes) (times bound : Nat) (enough : chunks.length < bound) :
    (linesReady bound buffer).serve arriving chunks =
      (.returned (buffer.loaded (needed buffer.mBuffer chunks))
          ((buffer.mBuffer ++ needed buffer.mBuffer chunks).count newline),
        chunks.drop (chunksNeeded buffer.mBuffer chunks)) ∧
    chunksNeeded buffer.mBuffer chunks ≤ chunks.length ∧
    (newline ∉ buffer.mBuffer ++ needed buffer.mBuffer chunks →
      newline ∉ buffer.mBuffer ++ chunks.flatten) ∧
    (∀ j < chunksNeeded buffer.mBuffer chunks,
      newline ∉ buffer.mBuffer ++ (chunks.take j).flatten) ∧
    ((poll times >>= fun _ => linesReady bound) buffer).serve arriving chunks =
      (linesReady bound buffer).serve arriving chunks := by
  have inv := reachable.inv
  refine ⟨linesReady_serve attached inv enough, chunksNeeded_le, ?_,
    fun _ => newline_not_mem_before, ?_⟩
  · intro noLine
    have all : chunks.length ≤ chunksNeeded buffer.mBuffer chunks :=
      Nat.le_of_not_lt fun left => noLine (newline_mem_of_left left)
    rwa [needed, List.take_of_length_le all] at noLine
  · obtain ⟨s, rest, served, ahead⟩ := poll_ahead times attached inv chunks
    have sAttached : s.mFd = some fd := ahead.sameFd.trans attached
    have sEnough : rest.length < bound := Nat.lt_of_le_of_lt ahead.fewer enough
    have sameBuffer := congrArg mBuffer ahead.loads
    simp only [loaded_mBuffer] at sameBuffer
    rw [bind_apply, Call.serve_andThen, served, Call.andThen_returned,
      linesReady_serve sAttached ahead.inv sEnough, linesReady_serve attached inv enough,
      ahead.loads, ahead.leaves, sameBuffer]

/-- `"a"`, then nothing, then a line and a half, then more: the last chunk is
left, also after two calls of `charsReady`. -/
theorem linesReady_exact_split :
    (linesReady 5 (ofFd (some 0))).serve arriving [[97], [], [10, 98], [10]] =
      (.returned ⟨some 0, [97, 10, 98], 1⟩ 1, [[10]]) ∧
    ((poll 2 >>= fun _ => linesReady 5) (ofFd (some 0))).serve arriving
        [[97], [], [10, 98], [10]] =
      (.returned ⟨some 0, [97, 10, 98], 1⟩ 1, [[10]]) := by
  obtain ⟨exact, -, -, -, after⟩ :=
    linesReady_exact (reachable_ofFd 0) rfl [[97], [], [10, 98], [10]] 2 5 (by decide)
  rw [after, exact]
  exact ⟨rfl, rfl⟩

/-! ### Do they agree? -/

/-- If `charsReady` answers 0, so does a `linesReady` after it, and then there
was no byte, neither buffered nor ready. -/
def PollsAgree (buffer : LineBuffer) (chunks : List Bytes) : Prop :=
  ∀ s rest, (charsReady buffer).serve arriving chunks = (.returned s 0, rest) →
    (∀ bound, rest.length < bound → ∃ s' rest',
      (linesReady bound s).serve arriving rest = (.returned s' 0, rest')) ∧
    buffer.mBuffer = [] ∧ ∀ chunk ∈ chunks, chunk = []

/-- Without a byte there is no line. -/
theorem linesReady_serve_empty (attached : buffer.mFd = some fd) (inv : buffer.Inv)
    (isEmpty : buffer.mBuffer = []) (allEmpty : ∀ chunk ∈ chunks, chunk = [])
    (enough : chunks.length < bound) :
    ∃ s rest, (linesReady bound buffer).serve arriving chunks = (.returned s 0, rest) := by
  have none : needed buffer.mBuffer chunks = [] :=
    List.flatten_eq_nil_iff.mpr fun chunk mem => allEmpty chunk (List.mem_of_mem_take mem)
  have served := linesReady_serve attached inv enough
  rw [none, isEmpty] at served
  exact ⟨_, _, served⟩

/-- `charsReady` answers 0 if nothing is ready, and if an empty chunk is. -/
theorem charsReady_zero {s : LineBuffer} (attached : buffer.mFd = some fd)
    (served : (charsReady buffer).serve arriving chunks = (.returned s 0, rest)) :
    buffer.mBuffer = [] ∧ s = buffer ∧ (chunks = [] ∧ rest = [] ∨ chunks = [] :: rest) := by
  by_cases isEmpty : buffer.mBuffer = []
  · cases chunks with
    | nil =>
        rw [charsReady_serve_nil attached isEmpty] at served
        simp only [Prod.mk.injEq, Call.returned.injEq] at served
        obtain ⟨⟨rfl, -⟩, rfl⟩ := served
        exact ⟨isEmpty, rfl, .inl ⟨rfl, rfl⟩⟩
    | cons chunk rest' =>
        rw [charsReady_serve_cons attached isEmpty] at served
        simp only [Prod.mk.injEq, Call.returned.injEq, List.length_eq_zero_iff] at served
        obtain ⟨⟨rfl, rfl⟩, rfl⟩ := served
        exact ⟨isEmpty, loaded_nil buffer, .inr rfl⟩
  · rw [charsReady_buffered attached isEmpty] at served
    simp [Call.serve, isEmpty] at served

/-- The polls agree unless an empty chunk is the first into an empty buffer and
a byte comes after it. -/
theorem pollsAgree_iff (reachable : Reachable buffer) (attached : buffer.mFd = some fd)
    (chunks : List Bytes) :
    PollsAgree buffer chunks ↔
      buffer.mBuffer ≠ [] ∨ chunks.head? ≠ some [] ∨ ∀ chunk ∈ chunks, chunk = [] := by
  have inv := reachable.inv
  constructor
  · intro agree
    by_cases isEmpty : buffer.mBuffer = []
    · cases chunks with
      | nil => simp
      | cons chunk rest =>
          by_cases first : chunk = []
          · subst first
            exact .inr (.inr (agree _ _ (charsReady_serve_cons attached isEmpty)).2.2)
          · simp [first]
    · exact .inl isEmpty
  · intro condition s rest served
    obtain ⟨isEmpty, rfl, script⟩ := charsReady_zero attached served
    have allEmpty : ∀ chunk ∈ chunks, chunk = [] := by
      rcases script with ⟨rfl, rfl⟩ | rfl
      · simp
      · rcases condition with buffered | first | allEmpty
        · exact absurd isEmpty buffered
        · exact absurd rfl first
        · exact allEmpty
    refine ⟨fun bound enough => linesReady_serve_empty attached inv isEmpty ?_ enough, isEmpty,
      allEmpty⟩
    rcases script with ⟨-, rfl⟩ | rfl
    · simp
    · exact fun chunk mem => allEmpty chunk (List.mem_cons_of_mem _ mem)

theorem pollsAgree_iff_line :
    PollsAgree (ofFd (some 0)) [[104, 10]] :=
  (pollsAgree_iff (reachable_ofFd 0) rfl [[104, 10]]).mpr (.inr (.inl (by decide)))

/-- An empty datagram and then a line: `charsReady` answers 0 and `linesReady`,
with no new data, answers 1. -/
theorem pollsAgree_fails : Reachable (ofFd (some 0)) ∧
    (charsReady (ofFd (some 0))).serve arriving [[], [104, 10]] =
      (.returned (ofFd (some 0)) 0, [[104, 10]]) ∧
    (linesReady 2 (ofFd (some 0))).serve arriving [[104, 10]] =
      (.returned ⟨some 0, [104, 10], 1⟩ 1, []) ∧
    ¬ PollsAgree (ofFd (some 0)) [[], [104, 10]] := by
  have zero : (charsReady (ofFd (some 0))).serve arriving [[], [104, 10]] =
      (.returned (ofFd (some 0)) 0, [[104, 10]]) := charsReady_serve_cons rfl rfl
  refine ⟨reachable_ofFd 0, zero, linesReady_serve rfl (reachable_ofFd 0).inv (by decide), ?_⟩
  intro agree
  obtain ⟨-, -, allEmpty⟩ := agree _ _ zero
  exact absurd (allEmpty [104, 10] (by simp)) (by decide)

end MarathonKit.Core.LineBuffer
