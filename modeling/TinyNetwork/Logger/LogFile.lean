import TinyNetwork.Logger.FileUtil

/-!
# `LogFile`

The log goes into a sequence of files.  A new one is opened when the current one is larger than
`rollSize`, and when the day has changed at one of the checks made every `checkEveryN` messages;
but never twice within a second.

A call of `append` is given what the clock shows when it is read, for the first and for the second
time, and the stream that `fopen` returns.

The name of a file is the local time at which it is opened.  Where the local time repeats itself, so
does the name, and `fopen` in the mode "ae" appends to the file that is there: what a file holds is
what all streams of its name were given.

## Main results

* `LogFile.Inv.append` : what one message does to the files.
* `LogFile.exists_run` : with streams that accept everything all calls return.
* `LogFile.rolled_of_block` : the change of the day is noticed.
* `LogFile.Contained.append` : what one message does to the contents of the files.
* `LogFile.rolling` : the rules of rolling, over any sequence of messages.
-/

namespace TinyNetwork

/-- `class LogFile`. -/
structure LogFile (σ : Type) where
  basename : List UInt8
  rollSize : ℤ
  flushInterval : ℤ
  checkEveryN : ℤ
  count : ℤ
  startOfPeriod : ℤ
  lastRoll : ℤ
  lastFlush : ℤ
  file : Option (FileUtil σ)
  /-- The streams that were closed by a roll, in the order in which they were opened. -/
  closed : List (FileUtil σ)
  /-- The clock at the opening of each stream. -/
  opened : List ℤ

variable {σ : Type}

namespace LogFile

def kRollPerSeconds : ℤ := 60 * 60 * 24

/-- The first second of the UTC day. -/
def startOfDay (now : ℤ) : ℤ := now.tdiv kRollPerSeconds * kRollPerSeconds

/-- A call of `append`. -/
structure Call (σ : Type) where
  data : List UInt8
  first : ℤ
  second : ℤ
  fp : σ

variable (strftime : ℤ → List UInt8)

/-- `getLogFileName(basename, &now)`; `strftime` prints the local time. -/
def getLogFileName (basename : List UInt8) (now : ℤ) : List UInt8 :=
  basename ++ strftime now ++ ascii ".log"

def rollFile (log : LogFile σ) (now : ℤ) (fp : σ) : Bool × LogFile σ :=
  let filename := getLogFileName strftime log.basename now
  if log.lastRoll < now then
    (true, { log with
      lastRoll := now
      lastFlush := now
      startOfPeriod := startOfDay now
      file := some (FileUtil.create filename fp)
      closed := log.closed ++ log.file.toList
      opened := log.opened ++ [now] })
  else (false, log)

/-- The constructor. -/
def create (basename : List UInt8) (rollSize flushInterval checkEveryN now : ℤ) (fp : σ) :
    LogFile σ :=
  (rollFile strftime ⟨basename, rollSize, flushInterval, checkEveryN, 0, 0, 0, 0, none, [], []⟩
    now fp).2

variable (io : Stdio σ)

/-- What `appendInLock` does when the file has taken the data. -/
def check (log : LogFile σ) (file : FileUtil σ) (call : Call σ) : LogFile σ :=
  if log.rollSize < file.writtenBytes then (rollFile strftime log call.first call.fp).2
  else
    let log := { log with count := log.count + 1 }
    if log.checkEveryN ≤ log.count then
      let log := { log with count := 0 }
      let now := call.first
      if startOfDay now ≠ log.startOfPeriod then (rollFile strftime log call.second call.fp).2
      else if log.flushInterval < now - log.lastFlush then
        { log with lastFlush := now, file := some (file.flush io) }
      else log
    else log

/-- `append(data, len)`, if the loop of `FileUtil::append` ends within `fuel` passes. -/
def append (fuel : ℕ) (log : LogFile σ) (call : Call σ) : Option (Except Fault (LogFile σ)) :=
  match log.file with
  | none => some (.error .nullPointer)
  | some file => (file.append io fuel call.data).map fun file =>
    .ok (check strftime io { log with file := some file } file call)

/-- A sequence of calls. -/
def run (fuel : ℕ) (log : LogFile σ) : List (Call σ) → Option (Except Fault (LogFile σ))
  | [] => some (.ok log)
  | call :: calls =>
    match append strftime io fuel log call with
    | some (.ok log) => run fuel log calls
    | r => r

/-- The clock does not run backwards. -/
def Clock (now : ℤ) : List (Call σ) → Prop
  | [] => True
  | call :: calls => now ≤ call.first ∧ call.first ≤ call.second ∧ Clock call.second calls

/-- What the clock showed last. -/
def clockAfter (now : ℤ) : List (Call σ) → ℤ
  | [] => now
  | call :: calls => clockAfter call.second calls

/-- All streams, in the order in which they were opened. -/
def streams (log : LogFile σ) : List (FileUtil σ) := log.closed ++ log.file.toList

/-- The names of the files, in the order in which they were first opened. -/
def fileNames (log : LogFile σ) : List (List UInt8) :=
  ((streams log).map FileUtil.fileName).eraseDups

/-- What the file of a name holds: what it `held` before there was a log, and what each stream of
that name was given. -/
def contents (held : List UInt8 → List UInt8) (log : LogFile σ) (filename : List UInt8) :
    List UInt8 :=
  held filename ++
    ((streams log).filter fun file => file.fileName = filename).flatMap FileUtil.accepted

/-- Every message lies whole in one of the texts, and the texts follow each other as the messages
do. -/
def Holds (texts : List (List UInt8)) (messages : List (List UInt8)) : Prop :=
  ∃ groups : List (List (List UInt8)), groups.flatten = messages ∧
    texts = groups.map List.flatten

/-- The clock at which `appendInLock` opens a file, if it does, when `writtenBytes` are in the
current one. -/
def rollsAt (log : LogFile σ) (writtenBytes : ℕ) (call : Call σ) : Option ℤ :=
  if log.rollSize < writtenBytes then
    if log.lastRoll < call.first then some call.first else none
  else if log.checkEveryN ≤ log.count + 1 ∧ startOfDay call.first ≠ log.startOfPeriod ∧
      log.lastRoll < call.second then some call.second
  else none

/-- The clock at which a call of `append` opens a file, if it does. -/
def opensAt (log : LogFile σ) (call : Call σ) : Option ℤ :=
  log.file.bind fun file => rollsAt log (file.writtenBytes + call.data.length) call

/-- There is no file of that name, unless it is the current one. -/
def Fresh (held : List UInt8 → List UInt8) (log : LogFile σ) (filename : List UInt8) : Prop :=
  log.file.map FileUtil.fileName = some filename ∨
    (held filename = [] ∧ filename ∉ fileNames log)

instance (held : List UInt8 → List UInt8) (log : LogFile σ) (filename : List UInt8) :
    Decidable (Fresh held log filename) :=
  inferInstanceAs (Decidable (_ ∨ _ ∧ _))

/-- No call comes back to the name of an earlier file. -/
def FreshNames (held : List UInt8 → List UInt8) (fuel : ℕ) (log : LogFile σ) :
    List (Call σ) → Prop
  | [] => True
  | call :: calls =>
    (∀ t ∈ opensAt log call, Fresh held log (getLogFileName strftime log.basename t)) ∧
      ∀ log', append strftime io fuel log call = some (.ok log') →
        FreshNames held fuel log' calls

/-- The rules of rolling, for a run of `calls` from `log₀` to `log`. -/
structure Rolling (fuel : ℕ) (log₀ log : LogFile σ) (calls : List (Call σ)) : Prop where
  /-- A file is too large only if it was opened in this second. -/
  large : ∀ pre call file, calls = pre ++ [call] → log.file = some file →
    log₀.rollSize < file.writtenBytes → log.opened.getLast? = some call.first
  /-- Of `checkEveryN` messages on a later day one opens a file. -/
  day : ∀ pre block log₁, calls = pre ++ block → block.length = log₀.checkEveryN →
    run strftime io fuel log₀ pre = some (.ok log₁) →
    (∀ call ∈ block, log₁.startOfPeriod < startOfDay call.first) →
    log₁.opened.length < log.opened.length
  /-- Every file is opened in a later second than the one before. -/
  ordered : log.opened.Pairwise (· < ·)
  length : (streams log).length = log.opened.length
  /-- Every message goes whole into one stream. -/
  holds : Holds ((streams log).map FileUtil.accepted) (calls.map Call.data)

/-- What holds of a log that has taken `messages`, when the clock showed `now` last. -/
structure Inv (log : LogFile σ) (now : ℤ) (messages : List (List UInt8)) : Prop where
  file : log.file ≠ none
  count : 0 ≤ log.count ∧ log.count < log.checkEveryN
  lastRoll : 0 < log.lastRoll ∧ log.lastRoll ≤ now
  period : log.startOfPeriod = startOfDay log.lastRoll
  last : log.opened.getLast? = some log.lastRoll
  ordered : log.opened.Pairwise (· < ·)
  length : (streams log).length = log.opened.length
  holds : Holds ((streams log).map FileUtil.accepted) messages

/-- The files hold the `messages`, and the last of them is the current one. -/
structure Contained (held : List UInt8 → List UInt8) (log : LogFile σ)
    (messages : List (List UInt8)) : Prop where
  last : ∃ front file, log.file = some file ∧ fileNames log = front ++ [file.fileName] ∧
    file.fileName ∉ front
  holds : Holds ((fileNames log).map (contents held log)) messages

variable {strftime io}
variable {log₀ log log' : LogFile σ} {file : FileUtil σ} {call : Call σ} {calls : List (Call σ)}
  {fuel fuel' : ℕ} {now t : ℤ} {fp : σ} {messages texts : List (List UInt8)}
  {message text filename : List UInt8} {held : List UInt8 → List UInt8}

/-! ### Days -/

theorem startOfDay_mono {s : ℤ} (h : s ≤ t) : startOfDay s ≤ startOfDay t :=
  Int.mul_le_mul_of_nonneg_right (Int.tdiv_le_tdiv (by decide) h) (by decide)

/-- A later day begins later. -/
theorem lt_of_startOfDay_lt {s : ℤ} (h : startOfDay s < startOfDay t) : s < t := by
  by_contra hle
  exact absurd (startOfDay_mono (Int.not_lt.1 hle)) (Int.not_le.2 h)

/-! ### The texts -/

/-- A message at the end of the last text. -/
theorem Holds.append (h : Holds (texts ++ [text]) messages) :
    Holds (texts ++ [text ++ message]) (messages ++ [message]) := by
  obtain ⟨groups, rfl, hmap⟩ := h
  obtain ⟨front, last, rfl, hfront, hlast⟩ := List.append_eq_map_iff.1 hmap
  obtain ⟨group, rfl, hgroup⟩ := List.map_eq_singleton_iff.1 hlast
  refine ⟨front ++ [group ++ [message]], ?_, ?_⟩
  · simp only [List.flatten_append, List.flatten_cons, List.flatten_nil, List.append_nil,
      List.append_assoc]
  · rw [List.map_append, hfront, List.map_singleton, List.flatten_append, hgroup,
      List.flatten_singleton]

/-- One more text, with nothing in it. -/
theorem Holds.concat_nil (h : Holds texts messages) : Holds (texts ++ [[]]) messages := by
  obtain ⟨groups, hflat, hmap⟩ := h
  refine ⟨groups ++ [[]], ?_, ?_⟩
  · rw [List.flatten_append, hflat]
    exact List.append_nil _
  · rw [hmap, List.map_append]
    rfl

theorem streams_of_some (hfile : log.file = some file) : streams log = log.closed ++ [file] := by
  rw [streams, hfile]
  rfl

theorem length_streams (hfile : log.file = some file) :
    (streams log).length = log.closed.length + 1 := by
  rw [streams_of_some hfile, List.length_append]
  rfl

theorem accepted_streams (hfile : log.file = some file) :
    (streams log).map FileUtil.accepted = log.closed.map FileUtil.accepted ++ [file.accepted] := by
  rw [streams_of_some hfile, List.map_append, List.map_singleton]

/-! ### Opening a file -/

/-- A roll is refused within the second of the last one, and else opens an empty file. -/
theorem rollFile_cases (strftime : ℤ → List UInt8) (log : LogFile σ) (t : ℤ) (fp : σ) :
    (t ≤ log.lastRoll ∧ (rollFile strftime log t fp).2 = log) ∨
      (log.lastRoll < t ∧ (rollFile strftime log t fp).2 =
        { log with
          lastRoll := t
          lastFlush := t
          startOfPeriod := startOfDay t
          file := some (FileUtil.create (getLogFileName strftime log.basename t) fp)
          closed := log.closed ++ log.file.toList
          opened := log.opened ++ [t] }) := by
  unfold rollFile
  split_ifs with hlt
  · exact Or.inr ⟨hlt, rfl⟩
  · exact Or.inl ⟨Int.not_lt.1 hlt, rfl⟩

theorem Inv.later (h : Inv log now messages) (hle : now ≤ t) : Inv log t messages :=
  { h with lastRoll := ⟨h.lastRoll.1, h.lastRoll.2.trans hle⟩ }

theorem Inv.roll (h : Inv log now messages) (hle : now ≤ t) :
    Inv (rollFile strftime log t fp).2 t messages := by
  rcases rollFile_cases strftime log t fp with ⟨-, heq⟩ | ⟨hlt, heq⟩ <;> rw [heq]
  · exact h.later hle
  · refine ⟨Option.some_ne_none _, h.count, ⟨h.lastRoll.1.trans hlt, le_rfl⟩, rfl,
      List.getLast?_concat, ?_, ?_, ?_⟩
    · refine List.pairwise_append.2 ⟨h.ordered, List.pairwise_singleton _ _, ?_⟩
      -- the files before were opened by the last roll at the latest
      intro s hs s' hs'
      rw [List.mem_singleton.1 hs']
      obtain ⟨front, hfront⟩ := List.getLast?_eq_some_iff.1 h.last
      have hordered := h.ordered
      rw [hfront] at hs hordered
      rcases List.mem_append.1 hs with hs | hs
      · have hlast := (List.pairwise_append.1 hordered).2.2 s hs _ List.mem_cons_self
        exact hlast.trans hlt
      · rw [List.mem_singleton.1 hs]
        exact hlt
    · show (streams log ++ [_]).length = _
      rw [List.length_append, List.length_append, h.length]
      rfl
    · show Holds ((streams log ++ [_]).map _) _
      rw [List.map_append]
      exact h.holds.concat_nil

/-! ### One message -/

/-- What a call of `append` does, as far as rolling is concerned. -/
structure Taken (log log' : LogFile σ) (call : Call σ) : Prop where
  rollSize : log'.rollSize = log.rollSize
  checkEveryN : log'.checkEveryN = log.checkEveryN
  /-- A file is too large only if it was opened in this second. -/
  large : ∀ file, log'.file = some file → log.rollSize < file.writtenBytes →
    log'.opened.getLast? = some call.first
  /-- On a later day a file is opened, or the message is counted. -/
  day : log.startOfPeriod < startOfDay call.first → (∃ t, log'.opened = log.opened ++ [t]) ∨
    (log'.count = log.count + 1 ∧ log'.startOfPeriod = log.startOfPeriod)

/-- A roll, whatever the counter is. -/
theorem Taken.roll (count : ℤ) (h : Inv log now messages) (hroll : 0 ≤ log.rollSize)
    (hnow : now ≤ call.first) (hle : call.first ≤ t) (hfile : log.file = some file)
    (hlarge : log.rollSize < file.writtenBytes → t = call.first) :
    Taken log (rollFile strftime { log with count } t fp).2 call := by
  rcases rollFile_cases strftime { log with count } t fp with ⟨hrefused, heq⟩ | ⟨hlt, heq⟩ <;>
    rw [heq]
  · have hrefused' : t ≤ log.lastRoll := hrefused
    refine ⟨rfl, rfl, ?_, fun hday => ?_⟩
    · intro file' hfile' hsize
      obtain rfl := Option.some.inj (hfile.symm.trans hfile')
      -- the last roll was in this second
      have hsame : log.lastRoll = call.first := by
        have ht := hlarge hsize
        have hlast := h.lastRoll.2
        omega
      rw [← hsame]
      exact h.last
    · rw [h.period] at hday
      have hlt := lt_of_startOfDay_lt hday
      exact absurd (hle.trans hrefused') (Int.not_le.2 hlt)
  · refine ⟨rfl, rfl, ?_, fun _ => Or.inl ⟨t, rfl⟩⟩
    intro file' hfile' hsize
    obtain rfl := Option.some.inj hfile'
    exact absurd hsize (Int.not_lt.2 hroll)

/-- No roll, and no file that is too large. -/
theorem Taken.keep {log' : LogFile σ} {file' : FileUtil σ}
    (hrollSize : log'.rollSize = log.rollSize)
    (hcheckEveryN : log'.checkEveryN = log.checkEveryN) (hfile : log'.file = some file')
    (hsmall : ¬ log.rollSize < file'.writtenBytes)
    (hday : log.startOfPeriod < startOfDay call.first →
      log'.count = log.count + 1 ∧ log'.startOfPeriod = log.startOfPeriod) :
    Taken log log' call := by
  refine ⟨hrollSize, hcheckEveryN, ?_, fun hlater => Or.inr (hday hlater)⟩
  intro file'' hfile'' hsize
  obtain rfl := Option.some.inj (hfile.symm.trans hfile'')
  exact absurd hsize hsmall

/-- What is done when the file has taken the message. -/
theorem Inv.check (strftime : ℤ → List UInt8) (io : Stdio σ) (h : Inv log now messages)
    (hroll : 0 ≤ log.rollSize) (hfile : log.file = some file) (hnow : now ≤ call.first)
    (hle : call.first ≤ call.second) :
    Inv (check strftime io log file call) call.second messages ∧
      Taken log (check strftime io log file call) call := by
  have hlater := h.later (hnow.trans hle)
  have hzero : Inv { log with count := 0 } now messages :=
    { h with count := ⟨le_rfl, h.count.1.trans_lt h.count.2⟩ }
  unfold LogFile.check
  split_ifs with hlarge
  · exact ⟨(h.roll hnow).later hle, Taken.roll log.count h hroll hnow le_rfl hfile
      fun _ => rfl⟩
  dsimp only
  split_ifs with hcheck hday hflush
  · exact ⟨hzero.roll (hnow.trans hle), Taken.roll 0 h hroll hnow hle hfile fun hsize =>
      absurd hsize hlarge⟩
  · -- the current day, and time for a flush
    refine ⟨⟨Option.some_ne_none _, hzero.count, hlater.lastRoll, h.period, h.last, h.ordered, ?_,
      ?_⟩, Taken.keep rfl rfl rfl hlarge fun hlt => ?_⟩
    · rw [length_streams rfl, ← h.length, length_streams hfile]
    · have hholds := h.holds
      rw [accepted_streams hfile] at hholds
      rw [accepted_streams rfl]
      exact hholds
    · exact absurd (not_not.1 hday) hlt.ne'
  · refine ⟨hzero.later (hnow.trans hle), Taken.keep rfl rfl hfile hlarge fun hlt => ?_⟩
    exact absurd (not_not.1 hday) hlt.ne'
  · have hcount : 0 ≤ log.count + 1 ∧ log.count + 1 < log.checkEveryN :=
      ⟨by have := h.count.1; omega, Int.not_le.1 hcheck⟩
    exact ⟨{ hlater with count := hcount }, Taken.keep rfl rfl hfile hlarge fun _ => ⟨rfl, rfl⟩⟩

theorem opened_check (strftime : ℤ → List UInt8) (io : Stdio σ) (log : LogFile σ)
    (file : FileUtil σ) (call : Call σ) : (LogFile.check strftime io log file call).opened =
      log.opened ++ (rollsAt log file.writtenBytes call).toList := by
  unfold LogFile.check rollsAt rollFile
  dsimp only
  by_cases hlarge : log.rollSize < file.writtenBytes
  · rw [if_pos hlarge, if_pos hlarge]
    split_ifs
    · rfl
    · exact (List.append_nil _).symm
  rw [if_neg hlarge, if_neg hlarge]
  split_ifs with hcheck hday hlt hrolls hrolls hflush hrolls hrolls hrolls
  · rfl
  · exact absurd ⟨hcheck, hday, hlt⟩ hrolls
  · exact absurd hrolls.2.2 hlt
  · exact (List.append_nil _).symm
  · exact absurd hrolls.2.1 hday
  · exact (List.append_nil _).symm
  · exact absurd hrolls.2.1 hday
  · exact (List.append_nil _).symm
  · exact absurd hrolls.1 hcheck
  · exact (List.append_nil _).symm

/-- A call opens a stream at `opensAt`. -/
theorem opened_append (h : append strftime io fuel log call = some (.ok log')) :
    log'.opened = log.opened ++ (opensAt log call).toList := by
  unfold LogFile.append at h
  cases hfile : log.file with
  | none =>
    rw [hfile] at h
    cases h
  | some file =>
    rw [hfile] at h
    obtain ⟨file', hfile', hok⟩ := Option.map_eq_some_iff.1 h
    obtain rfl := Except.ok.inj hok
    rw [opened_check, opensAt, hfile, Option.bind_some, ← (FileUtil.append_eq_some hfile').2.1]
    rfl

theorem length_opened_append (h : append strftime io fuel log call = some (.ok log')) :
    log.opened.length ≤ log'.opened.length := by
  rw [opened_append h, List.length_append]
  exact Nat.le_add_right _ _

/-- **What one message does to the files.** -/
theorem Inv.append {r : Except Fault (LogFile σ)} (h : Inv log now messages)
    (hroll : 0 ≤ log.rollSize) (hnow : now ≤ call.first) (hle : call.first ≤ call.second)
    (happend : append strftime io fuel log call = some r) :
    ∃ log', r = .ok log' ∧ Inv log' call.second (messages ++ [call.data]) ∧
      Taken log log' call := by
  obtain ⟨file, hfile⟩ := Option.ne_none_iff_exists'.1 h.file
  rw [LogFile.append, hfile] at happend
  obtain ⟨file', hfile', rfl⟩ := Option.map_eq_some_iff.1 happend
  obtain ⟨hacc, -, -⟩ := FileUtil.append_eq_some hfile'
  have hholds : Holds ((streams { log with file := some file' }).map FileUtil.accepted)
      (messages ++ [call.data]) := by
    have hbefore := h.holds
    rw [accepted_streams hfile] at hbefore
    rw [accepted_streams rfl, hacc]
    exact hbefore.append
  have hlen : (streams { log with file := some file' }).length = log.opened.length := by
    rw [length_streams rfl, ← h.length, length_streams hfile]
  have hinv : Inv { log with file := some file' } now (messages ++ [call.data]) :=
    { h with file := Option.some_ne_none _, length := hlen, holds := hholds }
  obtain ⟨hinv', htaken⟩ := Inv.check strftime io hinv hroll rfl hnow hle
  exact ⟨_, rfl, hinv', { htaken with }⟩

/-! ### The contents of the files -/

theorem map_fileName_streams (hfile : log.file = some file) :
    (streams log).map FileUtil.fileName = log.closed.map FileUtil.fileName ++ [file.fileName] := by
  rw [streams_of_some hfile, List.map_append, List.map_singleton]

theorem fileNames_congr {file' : FileUtil σ} (hfile : log.file = some file)
    (hname : file'.fileName = file.fileName) (hclosed : log'.closed = log.closed)
    (hfile' : log'.file = some file') : fileNames log' = fileNames log := by
  rw [fileNames, fileNames, map_fileName_streams hfile, map_fileName_streams hfile', hclosed,
    hname]

theorem contents_of_some (hfile : log.file = some file) : contents held log filename =
    held filename ++
      ((log.closed.filter fun file => file.fileName = filename).flatMap FileUtil.accepted ++
        if file.fileName = filename then file.accepted else []) := by
  rw [contents, streams_of_some hfile, List.filter_append, List.flatMap_append]
  split_ifs with hname <;> simp [hname]

/-- A stream that has just been opened changes no file. -/
theorem contents_create (hstreams : streams log' = streams log ++ [FileUtil.create text fp]) :
    contents held log' filename = contents held log filename := by
  rw [contents, contents, hstreams, List.filter_append, List.flatMap_append]
  have hempty : ([FileUtil.create text fp].filter fun file => file.fileName = filename).flatMap
      FileUtil.accepted = [] := by
    rw [List.flatMap_eq_nil_iff]
    intro file hfile
    rw [List.mem_singleton.1 (List.mem_of_mem_filter hfile)]
    rfl
  rw [hempty, List.append_nil]

/-- The first stream. -/
theorem Contained.init (hclosed : log.closed = []) (hfile : log.file = some file)
    (hheld : held file.fileName = []) (hacc : file.accepted = []) : Contained held log [] := by
  have hnames : fileNames log = [file.fileName] := by
    rw [fileNames, map_fileName_streams hfile, hclosed]
    rfl
  have hcontents : contents held log file.fileName = [] := by
    rw [contents_of_some hfile, hheld, hclosed, if_pos rfl, hacc]
    rfl
  refine ⟨⟨[], file, hfile, hnames, List.not_mem_nil⟩, [[]], rfl, ?_⟩
  rw [hnames, List.map_singleton, hcontents]
  rfl

/-- The current stream is given a message. -/
theorem Contained.put {file' : FileUtil σ} (h : Contained held log messages)
    (hfile : log.file = some file) (hname : file'.fileName = file.fileName)
    (hacc : file'.accepted = file.accepted ++ message) (hclosed : log'.closed = log.closed)
    (hfile' : log'.file = some file') : Contained held log' (messages ++ [message]) := by
  have hnames := fileNames_congr hfile hname hclosed hfile'
  obtain ⟨front, current, hcurrent, hfront, hnotMem⟩ := h.last
  obtain rfl := Option.some.inj (hfile.symm.trans hcurrent)
  refine ⟨⟨front, file', hfile', by rw [hnames, hname, hfront], hname ▸ hnotMem⟩, ?_⟩
  have hothers : front.map (contents held log') = front.map (contents held log) := by
    refine List.map_congr_left fun filename hmem => ?_
    have hne : file.fileName ≠ filename := fun heq => hnotMem (heq ▸ hmem)
    rw [contents_of_some hfile, contents_of_some hfile', hclosed, hname, if_neg hne, if_neg hne]
  have hlast : contents held log' file.fileName =
      contents held log file.fileName ++ message := by
    rw [contents_of_some hfile, contents_of_some hfile', hclosed, if_pos hname, if_pos rfl, hacc]
    simp only [List.append_assoc]
  have hholds := h.holds
  rw [hfront, List.map_append, List.map_singleton] at hholds
  rw [hnames, hfront, List.map_append, List.map_singleton, hothers, hlast]
  exact hholds.append

/-- The counters, and the buffer of the current stream, are no part of the files. -/
theorem Contained.congr {file' : FileUtil σ} (h : Contained held log messages)
    (hfile : log.file = some file) (hname : file'.fileName = file.fileName)
    (hacc : file'.accepted = file.accepted) (hclosed : log'.closed = log.closed)
    (hfile' : log'.file = some file') : Contained held log' messages := by
  have hnames := fileNames_congr hfile hname hclosed hfile'
  have hcontents : contents held log' = contents held log := by
    funext filename
    rw [contents_of_some hfile, contents_of_some hfile', hclosed, hname, hacc]
  obtain ⟨front, current, hcurrent, hfront, hnotMem⟩ := h.last
  obtain rfl := Option.some.inj (hfile.symm.trans hcurrent)
  refine ⟨⟨front, file', hfile', by rw [hnames, hname, hfront], hname ▸ hnotMem⟩, ?_⟩
  rw [hnames, hcontents]
  exact h.holds

theorem fileNames_newStream
    (hstreams : streams log' = streams log ++ [FileUtil.create filename fp]) :
    fileNames log' = fileNames log ++ if filename ∈ fileNames log then [] else [filename] := by
  have hnames : fileNames log' = fileNames log ++
      ([filename].removeAll ((streams log).map FileUtil.fileName)).eraseDups := by
    rw [fileNames, hstreams, List.map_append, List.eraseDups_append]
    rfl
  have hmem : filename ∈ fileNames log ↔ filename ∈ (streams log).map FileUtil.fileName :=
    List.mem_eraseDups
  rw [hnames, List.removeAll, List.filter_singleton]
  by_cases hin : filename ∈ (streams log).map FileUtil.fileName
  · rw [if_pos (hmem.2 hin)]
    simp [hin]
  · rw [if_neg fun h => hin (hmem.1 h)]
    simp [hin, List.eraseDups_cons]

/-- A stream is opened under a fresh name. -/
theorem Contained.newStream (h : Contained held log messages) (hfresh : Fresh held log filename)
    (hstreams : streams log' = streams log ++ [FileUtil.create filename fp])
    (hfile' : log'.file = some (FileUtil.create filename fp)) :
    Contained held log' messages := by
  have hcontents : contents held log' = contents held log :=
    funext fun _ => contents_create hstreams
  have hnames := fileNames_newStream hstreams
  obtain ⟨front, file, hfile, hfront, hnotMem⟩ := h.last
  rcases hfresh with hcurrent | ⟨hheld, hnew⟩
  · -- the name of the current file: that file goes on
    have hname : file.fileName = filename := by
      rw [hfile] at hcurrent
      exact Option.some.inj hcurrent
    have hmem : filename ∈ fileNames log := by
      rw [hfront, hname]
      exact List.mem_concat_self
    rw [if_pos hmem, List.append_nil] at hnames
    refine ⟨⟨front, _, hfile', by rw [hnames, hfront, hname]; rfl, ?_⟩, ?_⟩
    · rw [← hname]
      exact hnotMem
    · rw [hnames, hcontents]
      exact h.holds
  · rw [if_neg hnew] at hnames
    have hnothing : contents held log filename = [] := by
      rw [contents, hheld, List.filter_eq_nil_iff.2, List.flatMap_nil]
      · rfl
      · intro file hfile hname
        exact hnew (List.mem_eraseDups.2 (List.mem_map.2 ⟨file, hfile, of_decide_eq_true hname⟩))
    refine ⟨⟨_, _, hfile', hnames, hnew⟩, ?_⟩
    rw [hnames, hcontents, List.map_append, List.map_singleton, hnothing]
    exact h.holds.concat_nil

/-- A roll, if it is to a fresh name. -/
theorem Contained.roll (h : Contained held log messages) (count : ℤ)
    (hfresh : log.lastRoll < t → Fresh held log (getLogFileName strftime log.basename t)) :
    Contained held (rollFile strftime { log with count } t fp).2 messages := by
  rcases rollFile_cases strftime { log with count } t fp with ⟨-, heq⟩ | ⟨hlt, heq⟩ <;>
    rw [heq]
  · obtain ⟨-, file, hfile, -⟩ := h.last
    exact h.congr hfile rfl rfl rfl hfile
  · exact h.newStream (hfresh hlt) rfl rfl

/-- What is done when the file has taken the message. -/
theorem Contained.check (io : Stdio σ) (h : Contained held log messages)
    (hfile : log.file = some file)
    (hfresh : ∀ t ∈ rollsAt log file.writtenBytes call,
      Fresh held log (getLogFileName strftime log.basename t)) :
    Contained held (check strftime io log file call) messages := by
  unfold LogFile.check
  split_ifs with hlarge
  · refine h.roll log.count fun hlt => hfresh _ ?_
    rw [rollsAt, if_pos hlarge, if_pos hlt]
    rfl
  dsimp only
  split_ifs with hcheck hday hflush
  · refine h.roll 0 fun hlt => hfresh _ ?_
    rw [rollsAt, if_neg hlarge, if_pos ⟨hcheck, hday, hlt⟩]
    rfl
  · refine h.congr hfile ?_ ?_ ?_ (show _ = some (file.flush io) from rfl) <;> rfl
  · exact h.congr hfile rfl rfl rfl hfile
  · exact h.congr hfile rfl rfl rfl hfile

/-- **What one message does to the contents of the files.** -/
theorem Contained.append (h : Contained held log messages)
    (hfresh : ∀ t ∈ opensAt log call, Fresh held log (getLogFileName strftime log.basename t))
    (happend : append strftime io fuel log call = some (.ok log')) :
    Contained held log' (messages ++ [call.data]) := by
  obtain ⟨-, file, hfile, -⟩ := h.last
  rw [LogFile.append, hfile] at happend
  obtain ⟨file', hfile', hok⟩ := Option.map_eq_some_iff.1 happend
  obtain rfl := Except.ok.inj hok
  obtain ⟨hacc, hbytes, -⟩ := FileUtil.append_eq_some hfile'
  have hname := FileUtil.fileName_append hfile'
  have hput : Contained held { log with file := some file' } (messages ++ [call.data]) :=
    h.put hfile hname hacc rfl rfl
  refine hput.check io rfl fun t ht => ?_
  have hopens : t ∈ opensAt log call := by
    rw [opensAt, hfile, Option.bind_some, ← hbytes]
    exact ht
  rcases hfresh t hopens with hcurrent | ⟨hheld, hnew⟩
  · rw [hfile] at hcurrent
    exact Or.inl ((congrArg some hname).trans hcurrent)
  · refine Or.inr ⟨hheld, ?_⟩
    have hnames : fileNames { log with file := some file' } = fileNames log :=
      fileNames_congr hfile hname rfl rfl
    rw [hnames]
    exact hnew

/-! ### Sequences of messages -/

theorem clock_append {pre block : List (Call σ)} :
    Clock now (pre ++ block) ↔ Clock now pre ∧ Clock (clockAfter now pre) block := by
  induction pre generalizing now with
  | nil => exact (true_and _).symm ▸ Iff.rfl
  | cons call pre ih =>
    simp only [List.cons_append, Clock, clockAfter, ih]
    tauto

theorem run_cons {r : LogFile σ} : run strftime io fuel log (call :: calls) = some (.ok r) ↔
    ∃ log', append strftime io fuel log call = some (.ok log') ∧
      run strftime io fuel log' calls = some (.ok r) := by
  rw [run]
  cases happend : append strftime io fuel log call with
  | none => simp
  | some result =>
    cases result with
    | error fault => simp
    | ok log' => simp

theorem run_append {pre block : List (Call σ)} {r : LogFile σ} :
    run strftime io fuel log (pre ++ block) = some (.ok r) ↔
      ∃ log', run strftime io fuel log pre = some (.ok log') ∧
        run strftime io fuel log' block = some (.ok r) := by
  induction pre generalizing log with
  | nil => simp [run]
  | cons call pre ih =>
    simp only [List.cons_append, run_cons, ih]
    constructor
    · rintro ⟨log₁, happend, log₂, hpre, hblock⟩
      exact ⟨log₂, ⟨log₁, happend, hpre⟩, hblock⟩
    · rintro ⟨log₂, ⟨log₁, happend, hpre⟩, hblock⟩
      exact ⟨log₁, happend, log₂, hpre, hblock⟩

/-- What any sequence of messages does to the files. -/
theorem Inv.run (h : Inv log now messages) (hroll : 0 ≤ log.rollSize) (hclock : Clock now calls)
    (hrun : run strftime io fuel log calls = some (.ok log')) :
    Inv log' (clockAfter now calls) (messages ++ calls.map Call.data) ∧
      log'.rollSize = log.rollSize ∧ log'.checkEveryN = log.checkEveryN ∧
      log.opened.length ≤ log'.opened.length := by
  induction calls generalizing log now messages with
  | nil =>
    obtain rfl : log = log' := Except.ok.inj (Option.some.inj hrun)
    exact ⟨by rw [List.map_nil, List.append_nil]; exact h, rfl, rfl, le_rfl⟩
  | cons call calls ih =>
    obtain ⟨hnow, hle, hclock⟩ := hclock
    obtain ⟨log₁, happend, hrun⟩ := run_cons.1 hrun
    obtain ⟨_, hok, hinv, htaken⟩ := h.append hroll hnow hle happend
    obtain rfl := Except.ok.inj hok
    obtain ⟨hinv', hrollSize, hcheckEveryN, hopened⟩ :=
      ih hinv (hroll.trans_eq htaken.rollSize.symm) hclock hrun
    refine ⟨?_, hrollSize.trans htaken.rollSize, hcheckEveryN.trans htaken.checkEveryN, ?_⟩
    · rw [List.append_assoc] at hinv'
      exact hinv'
    · exact (length_opened_append happend).trans hopened

/-- What any sequence of messages does to the contents of the files. -/
theorem Contained.run (h : Contained held log messages)
    (hfresh : FreshNames strftime io held fuel log calls)
    (hrun : run strftime io fuel log calls = some (.ok log')) :
    Contained held log' (messages ++ calls.map Call.data) := by
  induction calls generalizing log messages with
  | nil =>
    obtain rfl : log = log' := Except.ok.inj (Option.some.inj hrun)
    rw [List.map_nil, List.append_nil]
    exact h
  | cons call calls ih =>
    obtain ⟨log₁, happend, hrun⟩ := run_cons.1 hrun
    have hrest := ih (h.append hfresh.1 happend) (hfresh.2 log₁ happend) hrun
    rw [List.append_assoc] at hrest
    exact hrest

/-- On a later day, as long as no file is opened, every message is counted. -/
theorem counted_of_block (h : Inv log now messages) (hroll : 0 ≤ log.rollSize)
    (hclock : Clock now calls) (hrun : run strftime io fuel log calls = some (.ok log'))
    (hday : ∀ call ∈ calls, log.startOfPeriod < startOfDay call.first) :
    log.opened.length < log'.opened.length ∨ log'.count = log.count + calls.length := by
  induction calls generalizing log now messages with
  | nil =>
    obtain rfl : log = log' := Except.ok.inj (Option.some.inj hrun)
    exact Or.inr (Int.add_zero _).symm
  | cons call calls ih =>
    obtain ⟨hnow, hle, hclock⟩ := hclock
    obtain ⟨log₁, happend, hrun⟩ := run_cons.1 hrun
    obtain ⟨_, hok, hinv, htaken⟩ := h.append hroll hnow hle happend
    obtain rfl := Except.ok.inj hok
    have hroll₁ : 0 ≤ log₁.rollSize := hroll.trans_eq htaken.rollSize.symm
    have hmono := (hinv.run hroll₁ hclock hrun).2.2.2
    rcases htaken.day (hday call List.mem_cons_self) with ⟨t, hmore⟩ | ⟨hcount, hperiod⟩
    · left
      rw [hmore, List.length_append, List.length_singleton] at hmono
      omega
    · have hopened := length_opened_append happend
      rcases ih hinv hroll₁ hclock hrun fun c hc => by
          rw [hperiod]
          exact hday c (List.mem_cons_of_mem _ hc) with hmore | hcounted
      · exact Or.inl (hopened.trans_lt hmore)
      · right
        rw [hcounted, hcount, List.length_cons]
        omega

/-- **The change of the day is noticed.** -/
theorem rolled_of_block (h : Inv log now messages) (hroll : 0 ≤ log.rollSize)
    (hclock : Clock now calls) (hrun : run strftime io fuel log calls = some (.ok log'))
    (hlen : calls.length = log.checkEveryN)
    (hday : ∀ call ∈ calls, log.startOfPeriod < startOfDay call.first) :
    log.opened.length < log'.opened.length := by
  rcases counted_of_block h hroll hclock hrun hday with hmore | hcount
  · exact hmore
  · obtain ⟨hinv', -, hcheckEveryN, -⟩ := h.run hroll hclock hrun
    have hlow := h.count.1
    have hhigh := hinv'.count.2
    omega

/-! ### Streams that accept everything -/

theorem append_mono {r : Except Fault (LogFile σ)}
    (h : append strftime io fuel log call = some r) (hle : fuel ≤ fuel') :
    append strftime io fuel' log call = some r := by
  unfold LogFile.append at h ⊢
  cases hfile : log.file with
  | none =>
    rw [hfile] at h
    exact h
  | some file =>
    rw [hfile] at h
    obtain ⟨file', happend, rfl⟩ := Option.map_eq_some_iff.1 h
    exact congrArg (Option.map _) (FileUtil.append_mono happend hle)

theorem run_mono (h : run strftime io fuel log calls = some (.ok log')) (hle : fuel ≤ fuel') :
    run strftime io fuel' log calls = some (.ok log') := by
  induction calls generalizing log with
  | nil => exact h
  | cons call calls ih =>
    obtain ⟨log₁, happend, hrun⟩ := run_cons.1 h
    exact run_cons.2 ⟨log₁, append_mono happend hle, ih hrun⟩

theorem append_unique {n : ℕ} {log₁ log₂ : LogFile σ}
    (h₁ : append strftime io fuel log call = some (.ok log₁))
    (h₂ : append strftime io n log call = some (.ok log₂)) : log₁ = log₂ := by
  have h₁' := append_mono h₁ (le_max_left fuel n)
  have h₂' := append_mono h₂ (le_max_right fuel n)
  exact Except.ok.inj (Option.some.inj (h₁'.symm.trans h₂'))

/-- All calls return. -/
theorem exists_run (strftime : ℤ → List UInt8) (hio : ∀ fp data, ¬ io.Stuck fp data)
    (h : Inv log now messages) (hroll : 0 ≤ log.rollSize) (hclock : Clock now calls) :
    ∃ fuel log', run strftime io fuel log calls = some (.ok log') := by
  induction calls generalizing log now messages with
  | nil => exact ⟨0, log, rfl⟩
  | cons call calls ih =>
    obtain ⟨hnow, hle, hclock⟩ := hclock
    obtain ⟨file, hfile⟩ := Option.ne_none_iff_exists'.1 h.file
    obtain ⟨fuel₁, file', hfile'⟩ := FileUtil.exists_append (hio file.fp call.data)
    have happend : append strftime io fuel₁ log call =
        some (.ok (check strftime io { log with file := some file' } file' call)) := by
      rw [LogFile.append, hfile]
      exact congrArg (Option.map _) hfile'
    obtain ⟨log₁, hok, hinv, htaken⟩ := h.append hroll hnow hle happend
    obtain ⟨fuel₂, log', hrun⟩ := ih hinv (hroll.trans_eq htaken.rollSize.symm) hclock
    rw [hok] at happend
    exact ⟨max fuel₁ fuel₂, log', run_cons.2 ⟨log₁, append_mono happend (le_max_left _ _),
      run_mono hrun (le_max_right _ _)⟩⟩

/-! ### The rules of rolling -/

theorem create_eq (strftime : ℤ → List UInt8) (basename : List UInt8)
    (rollSize flushInterval checkEveryN : ℤ) (hnow : 0 < now) (fp : σ) :
    create strftime basename rollSize flushInterval checkEveryN now fp =
      ⟨basename, rollSize, flushInterval, checkEveryN, 0, startOfDay now, now, now,
        some (FileUtil.create (getLogFileName strftime basename now) fp), [], [now]⟩ := by
  rw [LogFile.create, rollFile, if_pos (by exact hnow)]
  rfl

/-- The constructor opens the first file. -/
theorem Inv.create (strftime : ℤ → List UInt8) (basename : List UInt8)
    {rollSize flushInterval checkEveryN : ℤ} (hcheck : 1 ≤ checkEveryN) (hnow : 0 < now) (fp : σ) :
    Inv (create strftime basename rollSize flushInterval checkEveryN now fp) now [] := by
  rw [create_eq _ _ _ _ _ hnow]
  exact ⟨Option.some_ne_none _, ⟨le_rfl, hcheck⟩, ⟨hnow, le_rfl⟩, rfl, rfl,
    List.pairwise_singleton _ _, rfl, [[]], rfl, rfl⟩

theorem Contained.create (strftime : ℤ → List UInt8) (basename : List UInt8)
    {rollSize flushInterval checkEveryN : ℤ} (hnow : 0 < now) (fp : σ)
    (hheld : held (getLogFileName strftime basename now) = []) :
    Contained held (create strftime basename rollSize flushInterval checkEveryN now fp) [] := by
  rw [create_eq _ _ _ _ _ hnow]
  exact Contained.init rfl rfl hheld rfl

/-- **The rules of rolling**, over any sequence of messages.  The files hold the messages, in the
order in which they were opened, if no roll comes back to the name of an earlier file. -/
theorem rolling (strftime : ℤ → List UInt8) (hio : ∀ fp data, ¬ io.Stuck fp data)
    (basename : List UInt8) {rollSize checkEveryN : ℤ} (flushInterval : ℤ)
    (hroll : 0 ≤ rollSize) (hcheck : 1 ≤ checkEveryN) (hnow : 0 < now) (fp : σ)
    (hclock : Clock now calls) (held : List UInt8 → List UInt8) :
    ∃ fuel log, run strftime io fuel
        (create strftime basename rollSize flushInterval checkEveryN now fp) calls =
          some (.ok log) ∧
      Rolling strftime io fuel
        (create strftime basename rollSize flushInterval checkEveryN now fp) log calls ∧
      (held (getLogFileName strftime basename now) = [] →
        FreshNames strftime io held fuel
          (create strftime basename rollSize flushInterval checkEveryN now fp) calls →
        Holds ((fileNames log).map (contents held log)) (calls.map Call.data)) := by
  have hinv : Inv (create strftime basename rollSize flushInterval checkEveryN now fp) now [] :=
    Inv.create strftime basename hcheck hnow fp
  have hsize : (create strftime basename rollSize flushInterval checkEveryN now fp).rollSize =
      rollSize := by
    rw [create_eq _ _ _ _ _ hnow]
  have hcontained (hheld : held (getLogFileName strftime basename now) = []) :
      Contained held (create strftime basename rollSize flushInterval checkEveryN now fp) [] :=
    Contained.create strftime basename hnow fp hheld
  set log₀ := create strftime basename rollSize flushInterval checkEveryN now fp
  have hroll₀ : 0 ≤ log₀.rollSize := hroll.trans_eq hsize.symm
  obtain ⟨fuel, log, hrun⟩ := exists_run strftime hio hinv hroll₀ hclock
  obtain ⟨hend, -⟩ := hinv.run hroll₀ hclock hrun
  refine ⟨fuel, log, hrun, ⟨?_, ?_, hend.ordered, hend.length, hend.holds⟩,
    fun hheld hfresh => ((hcontained hheld).run hfresh hrun).holds⟩
  · intro pre call file hcalls hfile hlarge
    subst hcalls
    obtain ⟨hpre, hnow', hle, -⟩ := clock_append.1 hclock
    obtain ⟨log₁, hrun₁, hlast⟩ := run_append.1 hrun
    obtain ⟨hinv₁, hsize₁, -⟩ := hinv.run hroll₀ hpre hrun₁
    obtain ⟨log₂, happend, hnil⟩ := run_cons.1 hlast
    obtain rfl : log₂ = log := Except.ok.inj (Option.some.inj hnil)
    obtain ⟨_, hok, -, htaken⟩ :=
      hinv₁.append (hroll₀.trans_eq hsize₁.symm) hnow' hle happend
    obtain rfl := Except.ok.inj hok
    exact htaken.large file hfile (hsize₁ ▸ hlarge)
  · intro pre block log₁ hcalls hlen hrun₁ hday
    subst hcalls
    obtain ⟨hpre, hblock⟩ := clock_append.1 hclock
    obtain ⟨log₁', hrun₁', hrun₂⟩ := run_append.1 hrun
    obtain rfl : log₁' = log₁ := Except.ok.inj (Option.some.inj (hrun₁'.symm.trans hrun₁))
    obtain ⟨hinv₁, hsize₁, hcheck₁, -⟩ := hinv.run hroll₀ hpre hrun₁
    exact rolled_of_block hinv₁ (hroll₀.trans_eq hsize₁.symm) hblock hrun₂
      (hlen.trans hcheck₁.symm) hday

/-- A stream that takes whatever it is given. -/
def disk : Stdio Unit := ⟨fun _ data => (data.length, ()), fun _ => 0, id, fun _ _ => le_rfl⟩

theorem disk_not_stuck (fp : Unit) (data : List UInt8) : ¬ disk.Stuck fp data :=
  Stdio.not_stuck (k := 1) List.drop_length

/-- The time in the names of the files around the first midnight. -/
def midnight (now : ℤ) : List UInt8 :=
  ascii (if now = 86399 then ".19700101-235959" else ".19700102-000000")

/-- A roll that is refused in the last second of the first day, and one in the second after, to a
name of its own. -/
theorem rolling_midnight : ∃ fuel log, run midnight disk fuel
      (create midnight (ascii "tiny") 0 3 2 86399 ()) [⟨[120], 86399, 86399, ()⟩,
        ⟨[121, 122], 86400, 86400, ()⟩, ⟨[123], 86400, 86401, ()⟩] = some (.ok log) ∧
    Rolling midnight disk fuel (create midnight (ascii "tiny") 0 3 2 86399 ()) log
      [⟨[120], 86399, 86399, ()⟩, ⟨[121, 122], 86400, 86400, ()⟩, ⟨[123], 86400, 86401, ()⟩] ∧
    Holds ((fileNames log).map (contents (fun _ => []) log)) [[120], [121, 122], [123]] := by
  obtain ⟨fuel, log, hrun, hrolling, hholds⟩ :=
    rolling midnight disk_not_stuck (ascii "tiny") 3 (by decide : (0 : ℤ) ≤ 0)
      (by decide : (1 : ℤ) ≤ 2) (by decide : (0 : ℤ) < 86399) ()
      (by simp [Clock] : Clock 86399 [(⟨[120], 86399, 86399, ()⟩ : Call Unit),
        ⟨[121, 122], 86400, 86400, ()⟩, ⟨[123], 86400, 86401, ()⟩]) fun _ => []
  refine ⟨fuel, log, hrun, hrolling, hholds rfl ⟨?_, fun log₁ happend₁ => ?_⟩⟩
  · decide
  obtain rfl := append_unique (n := 2) happend₁ rfl
  refine ⟨?_, fun log₂ happend₂ => ?_⟩
  · decide
  obtain rfl := append_unique (n := 2) happend₂ rfl
  exact ⟨by decide, fun _ _ => trivial⟩

/-- The local time in the names of the files on a night on which the clock is set back from three
to two. -/
def berlin (now : ℤ) : List UInt8 :=
  ascii (if now = 1698539401 then ".20231029-023001" else ".20231029-023000")

/-- An hour after the first roll the name of the first file comes back: that file holds the first
and the third message. -/
theorem not_holds_berlin : ∃ log, run berlin disk 2
      (create berlin (ascii "tiny") 0 3 2 1698539400 ()) [⟨[120], 1698539401, 1698539401, ()⟩,
        ⟨[121], 1698543000, 1698543000, ()⟩, ⟨[122], 1698543000, 1698543000, ()⟩] =
          some (.ok log) ∧
    Clock 1698539400 [(⟨[120], 1698539401, 1698539401, ()⟩ : Call Unit),
      ⟨[121], 1698543000, 1698543000, ()⟩, ⟨[122], 1698543000, 1698543000, ()⟩] ∧
    (fileNames log).map (contents (fun _ => []) log) = [[120, 122], [121]] ∧
    ¬ Holds ((fileNames log).map (contents (fun _ => []) log)) [[120], [121], [122]] := by
  refine ⟨_, rfl, by simp [Clock], by decide, ?_⟩
  rintro ⟨groups, hflat, htexts⟩
  have hbytes : groups.flatten.flatten = [120, 122, 121] := by
    rw [List.flatten_flatten, ← htexts]
    decide
  rw [hflat] at hbytes
  exact absurd hbytes (by decide)

end LogFile

end TinyNetwork
