import MarathonKit.Core.LineBuffer

/-!
What the operations of a `LineBuffer` do, each stated once.

Every operation first loads (it appends what it reads to `mBuffer` and counts
the newlines) and then hands bytes out from the front. `Op.Post` says so for all
four of them and for every point of a call: nothing that was buffered or read is
lost, and `Inv` is kept, whether the call returned, threw, is waiting for the
descriptor or is between two rounds of its loop. The later modules use `call_wp`,
and where they count reads, the equations it is proved by.
-/

namespace MarathonKit.Core

open Dialogue Dialogue.Method FileDescriptor

namespace LineBuffer

/-- The representation invariant: the counter is the number of newlines in the
buffer, and a buffer without a descriptor is empty. -/
structure Inv (buffer : LineBuffer) : Prop where
  counted : buffer.mLinesReady = buffer.mBuffer.count newline
  detached : buffer.mFd = none → buffer.mBuffer = []

theorem Inv.linesReady_detached {buffer : LineBuffer} (inv : buffer.Inv)
    (h : buffer.mFd = none) : buffer.mLinesReady = 0 := by
  simp [inv.counted, inv.detached h]

theorem Inv.linesReady_eq_zero {buffer : LineBuffer} (inv : buffer.Inv) :
    buffer.mLinesReady = 0 ↔ newline ∉ buffer.mBuffer := by
  rw [inv.counted, List.count_eq_zero]

theorem Inv.linesReady_ne_zero {buffer : LineBuffer} (inv : buffer.Inv) :
    buffer.mLinesReady ≠ 0 ↔ newline ∈ buffer.mBuffer := by
  rw [ne_eq, inv.linesReady_eq_zero, Classical.not_not]

/-! ### Loading -/

/-- The buffer after reading `chars`. -/
def loaded (buffer : LineBuffer) (chars : Bytes) : LineBuffer where
  mFd := buffer.mFd
  mBuffer := buffer.mBuffer ++ chars
  mLinesReady := buffer.mLinesReady + chars.count newline

@[simp] theorem loaded_mFd (buffer : LineBuffer) (chars : Bytes) :
    (buffer.loaded chars).mFd = buffer.mFd := rfl

@[simp] theorem loaded_mBuffer (buffer : LineBuffer) (chars : Bytes) :
    (buffer.loaded chars).mBuffer = buffer.mBuffer ++ chars := rfl

@[simp] theorem loaded_mLinesReady (buffer : LineBuffer) (chars : Bytes) :
    (buffer.loaded chars).mLinesReady = buffer.mLinesReady + chars.count newline := rfl

@[simp] theorem loaded_nil (buffer : LineBuffer) : buffer.loaded [] = buffer := by
  simp [loaded]

@[simp] theorem loaded_loaded (buffer : LineBuffer) (chars chars' : Bytes) :
    (buffer.loaded chars).loaded chars' = buffer.loaded (chars ++ chars') := by
  simp [loaded, Nat.add_assoc]

theorem Inv.loaded {buffer : LineBuffer} (inv : buffer.Inv) (h : buffer.mFd ≠ none)
    (chars : Bytes) : (buffer.loaded chars).Inv where
  counted := by simp [inv.counted]
  detached := fun detached => absurd detached h

theorem foldl_pushChar (chars : Bytes) (buffer : LineBuffer) :
    chars.foldl pushChar buffer = buffer.loaded chars := by
  induction chars generalizing buffer with
  | nil => simp
  | cons ch chars ih =>
      rw [List.foldl_cons, ih]
      by_cases isNewline : ch = newline
      · simp [LineBuffer.loaded, pushChar, isNewline, Nat.add_comm, Nat.add_left_comm]
      · simp [LineBuffer.loaded, pushChar, isNewline]

/-- The exception of `loadChars` without a descriptor. -/
def notInitialized : Exn := .runtimeError "Cannot read from an unitialized LineBuffer"

theorem loadChars_none {buffer : LineBuffer} (h : buffer.mFd = none) :
    loadChars buffer = .threw buffer notInitialized := by
  simp [loadChars, h, notInitialized]

theorem loadChars_some {buffer : LineBuffer} {fd : FdPtr} (h : buffer.mFd = some fd) :
    loadChars buffer = .asking buffer (.read fd) fun
      | .ok chars => .returned (buffer.loaded chars) ()
      | .error e => .threw buffer e := by
  simp only [loadChars, bind_apply, this_apply, h, reduceCtorEq, if_false, deref_some, read_apply,
    update_apply, foldl_pushChar, Call.andThen_returned, Call.andThen_asking]
  congr 1
  funext a
  cases a <;> rfl

/-- A point of a call that has loaded and handed nothing out yet. -/
structure Loading {α : Type} (buffer : LineBuffer) (h : List (Event interface))
    (o : Outcome interface Exn Fault α) (s : LineBuffer) : Prop where
  state : s = buffer.loaded (bytesRead h)
  asks : ∀ q, o = .asking q → q.target = buffer.mFd
  safe : ∀ x, o ≠ .faulted x

theorem loadChars_wp {buffer : LineBuffer} {fd : FdPtr} (attached : buffer.mFd = some fd) :
    (loadChars buffer).wp (Loading buffer) := by
  rw [loadChars_some attached]
  refine ⟨⟨by simp, by simp [Request.target, attached], by simp⟩, fun a => ?_⟩
  cases a with
  | ok chars => exact ⟨by simp [bytesRead], by simp, by simp⟩
  | error e => exact ⟨by simp [bytesRead], by simp, by simp⟩

/-- Loading from a loaded buffer is loading from the buffer. -/
theorem Loading.trans {α : Type} {buffer : LineBuffer} {h h' : List (Event interface)}
    {o : Outcome interface Exn Fault α} {s : LineBuffer}
    (rest : Loading (buffer.loaded (bytesRead h)) h' o s) : Loading buffer (h ++ h') o s where
  state := by simp [rest.state]
  asks := rest.asks
  safe := rest.safe

/-- What is asked of a condition: it leaves the buffer alone and reads nothing,
and where it is false, `stop` holds. -/
def Guards (stop : LineBuffer → Prop) (cond : Method Bool) (fd : FdPtr) : Prop :=
  ∀ s, s.mFd = some fd → (cond s).wp fun h o s' =>
    Loading s h o s' ∧ chunksRead h = [] ∧ (o = .returned false → stop s')

variable {stop : LineBuffer → Prop} {cond : Method Bool} {fd : FdPtr} {buffer : LineBuffer}

/-- `if (cond) loadChars()` -/
theorem round_wp (guards : Guards stop cond fd) (attached : buffer.mFd = some fd) :
    (round cond loadChars buffer).wp fun h o s =>
      Loading buffer h o s ∧ (o = .returned false → stop s) := by
  rw [round_apply]
  refine Call.wp_andThen.mpr ((guards buffer attached).mono ?_)
  rintro h o s ⟨loading, nothing, stopped⟩
  obtain rfl : s = buffer := by simpa [bytesRead, nothing] using loading.state
  cases o with
  | returned continues =>
      cases continues with
      | false =>
          exact ⟨⟨by simpa using loading.state, by simp, by simp⟩, by simpa using stopped rfl⟩
      | true =>
          refine Call.wp_andThen.mpr ((loadChars_wp attached).mono ?_)
          intro k o s' loaded
          have all : Loading s (h ++ k) o s' := Loading.trans (loading.state ▸ loaded)
          cases o with
          | returned _ => exact ⟨⟨by simpa using all.state, by simp, by simp⟩, by simp⟩
          | faulted x => exact absurd rfl (all.safe x)
          | asking q => exact ⟨⟨all.state, by simpa using all.asks q rfl, by simp⟩, by simp⟩
          | _ => exact ⟨⟨all.state, by simp, by simp⟩, by simp⟩
  | faulted x => exact absurd rfl (loading.safe x)
  | _ => exact ⟨loading, by simp⟩

/-- `while (cond) loadChars()` -/
theorem loadLoop_wp (guards : Guards stop cond fd) (attached : buffer.mFd = some fd)
    (bound : Nat) :
    (whileLoop cond loadChars bound buffer).wp fun h o s =>
      Loading buffer h o s ∧ (o = .returned () → stop s) := by
  refine wp_whileLoop (fun h s => s = buffer.loaded (bytesRead h)) (by simp)
    (fun h s held => ⟨⟨held, by simp, by simp⟩, by simp⟩) fun h s held => ?_
  have sAttached : s.mFd = some fd := by simp [held, attached]
  apply (round_wp guards sAttached).mono
  rintro k o s' ⟨loading, stopped⟩
  have all : Loading buffer (h ++ k) o s' := Loading.trans (held ▸ loading)
  cases o with
  | returned continues =>
      cases continues with
      | false => exact ⟨⟨all.state, by simp, by simp⟩, fun _ => stopped rfl⟩
      | true => exact all.state
  | faulted x => exact absurd rfl (all.safe x)
  | asking q => exact ⟨⟨all.state, by simpa using all.asks q rfl, by simp⟩, by simp⟩
  | _ => exact ⟨⟨all.state, by simp, by simp⟩, by simp⟩

/-- A condition that polls the descriptor only if `test` holds of the buffer. -/
theorem guards_poll (test : LineBuffer → Prop) [DecidablePred test]
    (cond_apply : ∀ s, s.mFd = some fd → cond s =
      if test s then .asking s (.isReadyForReading fd) fun a => orThrow a s
      else .returned s false) : Guards (fun _ => True) cond fd := by
  intro s attached
  rw [cond_apply s attached]
  split
  · refine ⟨⟨⟨by simp, by simp [Request.target, attached], by simp⟩, by simp, by simp⟩,
      fun a => ?_⟩
    cases a with
    | ok ready => exact ⟨⟨by simp [bytesRead], by simp, by simp⟩, by simp, by simp⟩
    | error e => exact ⟨⟨by simp [bytesRead], by simp, by simp⟩, by simp, by simp⟩
  · exact ⟨⟨by simp, by simp, by simp⟩, by simp, by simp⟩

theorem emptyButReady_guards : Guards (fun _ => True) emptyButReady fd :=
  guards_poll (fun s => s.mBuffer = []) fun s attached => by
    simp [emptyButReady, attached]

theorem noLineButReady_guards : Guards (fun _ => True) noLineButReady fd :=
  guards_poll (fun s => s.mLinesReady = 0) fun s attached => by
    simp [noLineButReady, attached]

theorem noLine_guards : Guards (fun s => s.mLinesReady ≠ 0) noLine fd := by
  intro s attached
  exact ⟨⟨by simp, by simp, by simp⟩, by simp, by simp⟩

/-! ### The four operations -/

inductive Op where
  | charsReady | getChar | linesReady | getLine
deriving DecidableEq, Repr

/-- What an operation returns: a count, a character or a line. -/
inductive Value where
  | count (n : Nat)
  | char (ch : Byte)
  | line (chars : Bytes)
deriving DecidableEq, Repr

/-- An operation by its name; `bound` bounds its loop. -/
def Op.call (bound : Nat) : Op → Method Value
  | .charsReady => .count <$> LineBuffer.charsReady
  | .getChar => .char <$> LineBuffer.getChar
  | .linesReady => .count <$> LineBuffer.linesReady bound
  | .getLine => .line <$> LineBuffer.getLine bound

/-- The bytes a value takes off the front: a line goes with its newline. -/
def Value.consumed : Value → Bytes
  | .count _ => []
  | .char ch => [ch]
  | .line chars => chars ++ [newline]

/-- The bytes a call has taken off the front; none unless it returned. -/
def consumed {I : Interface} : Outcome I Exn Fault Value → Bytes
  | .returned v => v.consumed
  | _ => []

/-- What a returned value says about the buffer it leaves. -/
def Op.Returns (s : LineBuffer) : Op → Value → Prop
  | .charsReady, .count n => n = s.mBuffer.length
  | .linesReady, .count n => n = s.mBuffer.count newline
  | .getChar, .char _ => True
  | .getLine, .line chars => newline ∉ chars
  | _, _ => False

/-- What holds at every point of an operation on `buffer`. -/
structure Op.Post (op : Op) (buffer : LineBuffer) (h : List (Event interface))
    (o : Outcome interface Exn Fault Value) (s : LineBuffer) : Prop where
  sameFd : s.mFd = buffer.mFd
  conserved : consumed o ++ s.mBuffer = buffer.mBuffer ++ bytesRead h
  inv : s.Inv
  asks : ∀ q, o = .asking q → q.target = buffer.mFd
  returns : ∀ v, o = .returned v → op.Returns s v
  /-- the one fault there is: `getChar` with nothing buffered, and nothing read -/
  faults : ∀ x, o = .faulted x → op = .getChar ∧ x = .frontOfEmpty ∧ buffer.mBuffer = [] ∧
    ∃ fd, buffer.mFd = some fd ∧ h = [⟨.read fd, .ok []⟩]

section Post

variable {op : Op} {buffer s : LineBuffer} {h : List (Event interface)}

/-- A point of the loading phase of an operation. -/
theorem Op.Post.of_loading {α : Type} {o : Outcome interface Exn Fault α}
    {o' : Outcome interface Exn Fault Value} (inv : buffer.Inv) (attached : buffer.mFd ≠ none)
    (loading : Loading buffer h o s) (noValue : ∀ v, o' ≠ .returned v)
    (noFault : ∀ x, o' ≠ .faulted x) (asks : ∀ q, o' = .asking q → o = .asking q) :
    op.Post buffer h o' s where
  sameFd := by simp [loading.state]
  conserved := by
    cases o' with
    | returned v => exact absurd rfl (noValue v)
    | _ => simp [loading.state, consumed]
  inv := loading.state ▸ inv.loaded attached _
  asks := fun q hq => loading.asks q (asks q hq)
  returns := fun v hv => absurd hv (noValue v)
  faults := fun x hx => absurd hx (noFault x)

/-- A return: the bytes handed out were the first of those buffered and read. -/
theorem Op.Post.of_returned {v : Value} (attached : buffer.mFd ≠ none)
    (sameFd : s.mFd = buffer.mFd)
    (conserved : v.consumed ++ s.mBuffer = buffer.mBuffer ++ bytesRead h)
    (counted : s.mLinesReady = s.mBuffer.count newline) (returns : op.Returns s v) :
    op.Post buffer h (.returned v) s where
  sameFd := sameFd
  conserved := conserved
  inv := ⟨counted, fun detached => absurd (sameFd ▸ detached) attached⟩
  asks := by simp
  returns := by simpa using returns
  faults := by simp

/-- A phase that only loads, followed by `f`: only what `f` does with the loaded
buffer is left to show. -/
theorem Op.wp_of_loading {α : Type} {c : Call interface Exn Fault LineBuffer α}
    {f : LineBuffer → α → Call interface Exn Fault LineBuffer Value}
    (stop : LineBuffer → Prop) (inv : buffer.Inv) (attached : buffer.mFd ≠ none)
    (loads : c.wp fun h o s => Loading buffer h o s ∧ ∀ a, o = .returned a → stop s)
    (rest : ∀ h a, stop (buffer.loaded (bytesRead h)) →
      (f (buffer.loaded (bytesRead h)) a).wp fun k => op.Post buffer (h ++ k)) :
    (c.andThen f).wp (op.Post buffer) := by
  refine Call.wp_andThen.mpr (loads.mono ?_)
  rintro h o s ⟨loading, stopped⟩
  cases o with
  | returned a =>
      have holds := stopped a rfl
      obtain rfl := loading.state
      exact rest h a holds
  | faulted x => exact absurd rfl (loading.safe x)
  | threw e => exact .of_loading inv attached loading (by simp) (by simp) (by simp)
  | running => exact .of_loading inv attached loading (by simp) (by simp) (by simp)
  | asking q => exact .of_loading inv attached loading (by simp) (by simp) (by simp)

end Post

/-! ### Handing out -/

/-- The buffer with `rest` left in it. -/
def leaving (buffer : LineBuffer) (rest : Bytes) : LineBuffer :=
  ⟨buffer.mFd, rest, rest.count newline⟩

theorem countDown_succ {buffer : LineBuffer} {n : Nat} (h : buffer.mLinesReady = n + 1) :
    countDown buffer = .returned { buffer with mLinesReady := n } () := by
  simp [countDown, h]

theorem takeChar_cons {buffer : LineBuffer} {ch : Byte} {rest : Bytes}
    (counted : buffer.mLinesReady = buffer.mBuffer.count newline)
    (front : buffer.mBuffer = ch :: rest) :
    takeChar buffer = .returned (buffer.leaving rest) ch := by
  by_cases isNewline : ch = newline
  · have positive : buffer.mLinesReady = rest.count newline + 1 := by
      simp [counted, front, isNewline]
    simp [takeChar, popFront, front, isNewline, countDown_succ, positive, leaving]
  · have same : buffer.mLinesReady = rest.count newline := by
      simp [counted, front, isNewline]
    simp [takeChar, popFront, front, isNewline, same, leaving]

theorem takeChar_nil {buffer : LineBuffer} (isEmpty : buffer.mBuffer = []) :
    takeChar buffer = .faulted buffer .frontOfEmpty := by
  simp [takeChar, popFront, isEmpty]

/-- `scan` finds the first newline. -/
theorem scan_eq_some {chars : Bytes} {it : Nat} (found : scan chars = some it) :
    chars = chars.take it ++ newline :: chars.drop (it + 1) ∧ newline ∉ chars.take it := by
  induction chars generalizing it with
  | nil => simp [scan] at found
  | cons ch rest ih =>
      by_cases isNewline : ch = newline
      · obtain rfl : 0 = it := by simpa [scan, isNewline] using found
        simp [isNewline]
      · obtain ⟨n, foundRest, rfl⟩ : ∃ n, scan rest = some n ∧ n + 1 = it := by
          simpa [scan, isNewline] using found
        obtain ⟨split, clean⟩ := ih foundRest
        exact ⟨by simpa using split, by simpa [Ne.symm isNewline] using clean⟩

theorem exists_scan {chars : Bytes} (h : newline ∈ chars) : ∃ it, scan chars = some it := by
  induction chars with
  | nil => simp at h
  | cons ch rest ih =>
      by_cases isNewline : ch = newline
      · exact ⟨0, by simp [scan, isNewline]⟩
      · obtain ⟨n, found⟩ := ih (by simpa [Ne.symm isNewline] using h)
        exact ⟨n + 1, by simp [scan, isNewline, found]⟩

/-- With a line counted, `takeLine` hands out the bytes up to the first
newline. -/
theorem takeLine_spec {buffer : LineBuffer}
    (counted : buffer.mLinesReady = buffer.mBuffer.count newline)
    (ready : buffer.mLinesReady ≠ 0) :
    ∃ line rest, buffer.mBuffer = line ++ newline :: rest ∧ newline ∉ line ∧
      takeLine buffer = .returned (buffer.leaving rest) line := by
  obtain ⟨it, found⟩ : ∃ it, scan buffer.mBuffer = some it :=
    exists_scan (List.count_pos_iff.mp (by omega))
  obtain ⟨split, clean⟩ := scan_eq_some found
  refine ⟨_, _, split, clean, ?_⟩
  have positive : buffer.mLinesReady = (buffer.mBuffer.drop (it + 1)).count newline + 1 := by
    have counts := congrArg (List.count newline) split
    rw [List.count_append, List.count_eq_zero_of_not_mem clean, List.count_cons_self] at counts
    omega
  simp [takeLine, found, countDown, positive, leaving]

section Attached

variable {buffer : LineBuffer} {fd : FdPtr}

/-- `charsReady` is a round of loading, and then the count. -/
theorem charsReady_apply (attached : buffer.mFd = some fd) {bound : Nat} :
    Op.charsReady.call bound buffer = (round emptyButReady loadChars buffer).andThen fun s _ =>
      .returned s (.count s.mBuffer.length) := by
  rw [round_andThen]
  simp only [Op.call, charsReady, isInitialized, attached, map_apply, bind_apply, this_apply,
    Call.andThen_returned, Option.isSome_some, Bool.not_true, Bool.false_eq_true, if_false,
    Call.andThen_assoc]
  congr 1
  funext s continues
  cases continues <;> simp [Call.andThen_assoc]

theorem linesReady_apply (attached : buffer.mFd = some fd) {bound : Nat} :
    Op.linesReady.call bound buffer =
      (whileLoop noLineButReady loadChars bound buffer).andThen fun s _ =>
        .returned s (.count s.mLinesReady) := by
  simp [Op.call, linesReady, isInitialized, attached, Call.andThen_assoc]

theorem getLine_apply {bound : Nat} :
    Op.getLine.call bound buffer = (whileLoop noLine loadChars bound buffer).andThen fun s _ =>
      (takeLine s).andThen fun s line => .returned s (.line line) := by
  simp [Op.call, getLine, Call.andThen_assoc]

theorem charsReady_wp (inv : buffer.Inv) (attached : buffer.mFd = some fd) (bound : Nat) :
    (Op.charsReady.call bound buffer).wp (Op.Post .charsReady buffer) := by
  have initialized : buffer.mFd ≠ none := by simp [attached]
  rw [charsReady_apply attached]
  refine Op.wp_of_loading (fun _ => True) inv initialized
    ((round_wp emptyButReady_guards attached).mono fun h o s post => ⟨post.1, by simp⟩) ?_
  intro h a _
  exact .of_returned initialized rfl (by simp [Value.consumed]) (by simp [inv.counted]) rfl

theorem linesReady_wp (inv : buffer.Inv) (attached : buffer.mFd = some fd) (bound : Nat) :
    (Op.linesReady.call bound buffer).wp (Op.Post .linesReady buffer) := by
  have initialized : buffer.mFd ≠ none := by simp [attached]
  rw [linesReady_apply attached]
  refine Op.wp_of_loading (fun _ => True) inv initialized
    ((loadLoop_wp noLineButReady_guards attached bound).mono fun h o s post =>
      ⟨post.1, by simp⟩) ?_
  intro h a _
  exact .of_returned initialized rfl (by simp [Value.consumed]) (by simp [inv.counted])
    (by simp [Op.Returns, inv.counted])

theorem getLine_wp (inv : buffer.Inv) (attached : buffer.mFd = some fd) (bound : Nat) :
    (Op.getLine.call bound buffer).wp (Op.Post .getLine buffer) := by
  have initialized : buffer.mFd ≠ none := by simp [attached]
  rw [getLine_apply]
  refine Op.wp_of_loading (fun s => s.mLinesReady ≠ 0) inv initialized
    ((loadLoop_wp noLine_guards attached bound).mono fun h o s post =>
      ⟨post.1, fun _ returned => post.2 returned⟩) ?_
  intro h _ ready
  obtain ⟨line, rest, split, clean, taken⟩ :=
    takeLine_spec (inv.loaded initialized _).counted ready
  rw [taken]
  exact .of_returned initialized rfl (by simpa [Value.consumed, leaving] using split.symm) rfl
    clean

/-- `getChar` hands out the first byte there is. -/
theorem getChar_cons {ch : Byte} {rest : Bytes} (inv : buffer.Inv)
    (front : buffer.mBuffer = ch :: rest) {bound : Nat} :
    Op.getChar.call bound buffer = .returned (buffer.leaving rest) (.char ch) := by
  simp [Op.call, getChar, front, takeChar_cons inv.counted front]

/-- With none there it reads once, and goes wrong if the read brings nothing. -/
theorem getChar_nil (inv : buffer.Inv) (attached : buffer.mFd = some fd)
    (isEmpty : buffer.mBuffer = []) {bound : Nat} :
    Op.getChar.call bound buffer = .asking buffer (.read fd) fun
      | .ok [] => .faulted buffer .frontOfEmpty
      | .ok (ch :: rest) => .returned (buffer.leaving rest) (.char ch)
      | .error e => .threw buffer e := by
  simp only [Op.call, map_apply, getChar, bind_apply, this_apply, Call.andThen_returned, isEmpty,
    List.isEmpty_nil, if_true, loadChars_some attached, Call.andThen_asking]
  congr 1
  funext a
  cases a with
  | error e => rfl
  | ok chars =>
      cases chars with
      | nil => simp [takeChar_nil isEmpty]
      | cons ch rest =>
          have counted := (inv.loaded (by simp [attached]) (ch :: rest)).counted
          simp only [Call.andThen_returned,
            takeChar_cons counted (by simp [isEmpty] : _ = ch :: rest)]
          rfl

theorem getChar_wp (inv : buffer.Inv) (attached : buffer.mFd = some fd) (bound : Nat) :
    (Op.getChar.call bound buffer).wp (Op.Post .getChar buffer) := by
  have initialized : buffer.mFd ≠ none := by simp [attached]
  cases front : buffer.mBuffer with
  | cons ch rest =>
      rw [getChar_cons inv front]
      exact .of_returned initialized rfl (by simp [Value.consumed, front, leaving]) rfl trivial
  | nil =>
      rw [getChar_nil inv attached front]
      refine ⟨.of_loading (o := (.asking (.read fd) : Outcome interface Exn Fault Unit)) inv
        initialized ⟨by simp, by simp [Request.target, attached], by simp⟩ (by simp) (by simp)
        (by simp), ?_⟩
      rintro (e | _ | ⟨ch, rest⟩)
      · exact .of_loading (o := (.threw e : Outcome interface Exn Fault Unit)) inv initialized
          ⟨by simp [bytesRead], by simp, by simp⟩ (by simp) (by simp) (by simp)
      · exact ⟨rfl, by simp [consumed, bytesRead], inv, by simp, by simp, by simp [front, attached]⟩
      · exact .of_returned initialized rfl (by simp [Value.consumed, front, leaving, bytesRead])
          rfl trivial

end Attached

section Detached

variable {buffer : LineBuffer}

theorem charsReady_detached (detached : buffer.mFd = none) :
    charsReady buffer = .asking buffer (.logw "charsReady called on unitialized LineBuffer")
      fun _ => .returned buffer 0 := by
  simp [charsReady, isInitialized, detached]

theorem linesReady_detached (detached : buffer.mFd = none) (bound : Nat) :
    linesReady bound buffer = .asking buffer (.logw "linesReady called on unitialized LineBuffer")
      fun _ => .returned buffer 0 := by
  simp [linesReady, isInitialized, detached]

theorem getChar_detached (inv : buffer.Inv) (detached : buffer.mFd = none) :
    getChar buffer = .threw buffer notInitialized := by
  simp [getChar, inv.detached detached, loadChars_none detached]

theorem getLine_detached (inv : buffer.Inv) (detached : buffer.mFd = none) (bound : Nat) :
    getLine (bound + 1) buffer = .threw buffer notInitialized := by
  simp [getLine, whileLoop_unroll, noLine, inv.linesReady_detached detached,
    loadChars_none detached]

/-- A point at which nothing has happened to the buffer. -/
theorem Op.Post.of_untouched {op : Op} {h : List (Event interface)}
    {o : Outcome interface Exn Fault Value} (inv : buffer.Inv) (nothing : bytesRead h = [])
    (keeps : consumed o = []) (asks : ∀ q, o = .asking q → q.target = buffer.mFd)
    (returns : ∀ v, o = .returned v → op.Returns buffer v) (safe : ∀ x, o ≠ .faulted x) :
    op.Post buffer h o buffer where
  sameFd := rfl
  conserved := by simp [keeps, nothing]
  inv := inv
  asks := asks
  returns := returns
  faults := fun x hx => absurd hx (safe x)

theorem call_wp_detached (inv : buffer.Inv) (detached : buffer.mFd = none) (op : Op)
    (bound : Nat) : (op.call bound buffer).wp (op.Post buffer) := by
  have noBytes : buffer.mBuffer = [] := inv.detached detached
  cases op with
  | charsReady =>
      rw [Op.call, map_apply, charsReady_detached detached]
      exact ⟨.of_untouched inv rfl rfl (by simp [Request.target, detached]) (by simp) (by simp),
        fun _ => .of_untouched inv rfl rfl (by simp) (by simp [Op.Returns, noBytes]) (by simp)⟩
  | linesReady =>
      rw [Op.call, map_apply, linesReady_detached detached]
      exact ⟨.of_untouched inv rfl rfl (by simp [Request.target, detached]) (by simp) (by simp),
        fun _ => .of_untouched inv rfl rfl (by simp) (by simp [Op.Returns, noBytes]) (by simp)⟩
  | getChar =>
      rw [Op.call, map_apply, getChar_detached inv detached]
      exact .of_untouched inv rfl rfl (by simp) (by simp) (by simp)
  | getLine =>
      cases bound with
      | zero => exact .of_untouched inv rfl rfl (by simp) (by simp) (by simp)
      | succ bound =>
          rw [Op.call, map_apply, getLine_detached inv detached]
          exact .of_untouched inv rfl rfl (by simp) (by simp) (by simp)

end Detached

/-- What every operation does, at every point of its call. -/
theorem call_wp {buffer : LineBuffer} (inv : buffer.Inv) (op : Op) (bound : Nat) :
    (op.call bound buffer).wp (op.Post buffer) := by
  cases attached : buffer.mFd with
  | none => exact call_wp_detached inv attached op bound
  | some fd =>
      cases op with
      | charsReady => exact charsReady_wp inv attached bound
      | getChar => exact getChar_wp inv attached bound
      | linesReady => exact linesReady_wp inv attached bound
      | getLine => exact getLine_wp inv attached bound

/-- `getChar` on an empty buffer, whose read returns `""`. -/
def Op.ReadsNothing (op : Op) (mBuffer : Bytes) (h : List (Event interface)) : Prop :=
  op = .getChar ∧ mBuffer = [] ∧ [] ∈ chunksRead h

/-- There is nothing to hand out after an empty read. -/
theorem getChar_wp_nothing {buffer : LineBuffer} (inv : buffer.Inv) (isEmpty : buffer.mBuffer = [])
    (bound : Nat) : (Op.getChar.call bound buffer).wp fun h o _ =>
      [] ∈ chunksRead h → o = .faulted .frontOfEmpty := by
  cases attached : buffer.mFd with
  | none =>
      rw [Op.call, map_apply, getChar_detached inv attached]
      simp
  | some fd =>
      rw [getChar_nil inv attached isEmpty]
      refine ⟨by simp, ?_⟩
      rintro (e | _ | ⟨ch, rest⟩) <;> simp

/-- This is how a call goes wrong, and the only way it does. -/
theorem call_faults {buffer : LineBuffer} (inv : buffer.Inv) (op : Op) (bound : Nat) :
    (op.call bound buffer).wp fun h o _ => o.Faulted ↔ op.ReadsNothing buffer.mBuffer h := by
  refine Call.wp_iff_reaches.mpr fun h c reached => ⟨fun faulted => ?_, ?_⟩
  · obtain ⟨x, same⟩ := Outcome.faulted_iff.mp faulted
    obtain ⟨isGetChar, -, isEmpty, fd, -, history⟩ :=
      ((call_wp inv op bound).reaches reached).faults x same
    exact ⟨isGetChar, isEmpty, by simp [history]⟩
  · rintro ⟨rfl, isEmpty, nothing⟩
    exact Outcome.faulted_iff.mpr
      ⟨_, (getChar_wp_nothing inv isEmpty bound).reaches reached nothing⟩

/-! ### Calls as steps -/

/-- One call of an operation, as far as it came: what it asked and was answered,
and where it is. -/
structure Exchange where
  op : Op
  history : List (Event interface)
  outcome : Outcome interface Exn Fault Value

/-- The exchange `x` is one that a call on `buffer` can have, and it leaves
`buffer'`. The call may be over or be anywhere in its middle. -/
def Calls (buffer : LineBuffer) (x : Exchange) (buffer' : LineBuffer) : Prop :=
  ∃ bound c, (x.op.call bound buffer).Reaches x.history c ∧ c.outcome = x.outcome ∧
    c.state = buffer'

theorem Calls.post {buffer buffer' : LineBuffer} {x : Exchange} (inv : buffer.Inv)
    (calls : buffer.Calls x buffer') : x.op.Post buffer x.history x.outcome buffer' := by
  obtain ⟨bound, c, reached, outcome, state⟩ := calls
  rw [← outcome, ← state]
  exact (call_wp inv x.op bound).reaches reached

theorem Calls.faulted_iff {buffer buffer' : LineBuffer} {x : Exchange} (inv : buffer.Inv)
    (calls : buffer.Calls x buffer') :
    x.outcome.Faulted ↔ x.op.ReadsNothing buffer.mBuffer x.history := by
  obtain ⟨bound, c, reached, outcome, -⟩ := calls
  rw [← outcome]
  exact (call_faults inv x.op bound).reaches reached

namespace Exchange

/-- The bytes the call has handed out. -/
def consumed (x : Exchange) : Bytes := LineBuffer.consumed x.outcome

/-- The bytes the call has read. -/
def received (x : Exchange) : Bytes := bytesRead x.history

/-- What an operation may do: return a value of its kind, throw, or be under
way. -/
def Fits (x : Exchange) : Prop :=
  match x.op, x.outcome with
  | .charsReady, .returned v | .linesReady, .returned v => ∃ n, v = .count n
  | .getChar, .returned v => ∃ ch, v = .char ch
  | .getLine, .returned v => ∃ chars, v = .line chars
  | _, .faulted _ => False
  | _, _ => True

theorem Fits.of_returns {x : Exchange} {s : LineBuffer}
    (returns : ∀ v, x.outcome = .returned v → x.op.Returns s v)
    (safe : ∀ f, x.outcome ≠ .faulted f) : x.Fits := by
  obtain ⟨op, history, outcome⟩ := x
  cases outcome with
  | returned v =>
      have holds := returns v rfl
      cases op <;> cases v <;> simp_all [Op.Returns, Fits]
  | faulted f => exact absurd rfl (safe f)
  | _ => cases op <;> trivial

end Exchange

theorem Calls.conserved {buffer buffer' : LineBuffer} {x : Exchange} (inv : buffer.Inv)
    (calls : buffer.Calls x buffer') :
    x.consumed ++ buffer'.mBuffer = buffer.mBuffer ++ x.received :=
  (calls.post inv).conserved

end LineBuffer

end MarathonKit.Core
