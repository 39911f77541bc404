import TinyNetwork.Logger.LogStream

/-!
# `Logger`

A log statement makes a `Logger`, whose constructor streams the time and the level, streams its
operands, and hands the buffer to `g_output` in the destructor, which streams the place of the
statement before.

`localtime` and `strerror_r` are parameters.  `stream_()` zeroes the stream, as `LogStream` has no
constructor of its own, and with it the array of its buffer.

## Main results

* `LogStatement.finished_eq` : what the stream of a statement has accepted in the end.
* `LogStatement.record_ne` : no record is what the stream accepted; each begins with it and has the
  length of the array.
-/

namespace TinyNetwork

/-- The fields of `struct tm` that are logged. -/
structure Tm where
  tm_year : ℤ
  tm_mon : ℤ
  tm_mday : ℤ
  tm_hour : ℤ
  tm_min : ℤ
  tm_sec : ℤ

/-- What the logger takes from the C library. -/
structure Libc where
  localtime : ℤ → Tm
  strerror_r : ℤ → List UInt8

/-- `%4d` and its like. -/
def padded (width : ℕ) (v : ℤ) : List UInt8 :=
  List.replicate (width - (integerText v).length) 32 ++ integerText v

/-- `%02d` and its like: the zeros stand behind the sign. -/
def zeroPadded (width : ℕ) (v : ℤ) : List UInt8 :=
  (if v < 0 then ascii "-" else []) ++ List.replicate (width - (integerText v).length) 48 ++
    decimal v.natAbs

namespace Logger

/-- `enum LogLevel`. -/
inductive LogLevel where
  | trace
  | debug
  | info
  | warn
  | error
  | fatal
  | levelCount
  deriving DecidableEq

namespace LogLevel

def toNat : LogLevel → ℕ
  | trace => 0
  | debug => 1
  | info => 2
  | warn => 3
  | error => 4
  | fatal => 5
  | levelCount => 6

/-- `getLevelName[level]`. -/
def getLevelName : LogLevel → Except Fault (List UInt8)
  | trace => .ok (ascii "TRACE ")
  | debug => .ok (ascii "DEBUG ")
  | info => .ok (ascii "INFO  ")
  | warn => .ok (ascii "WARN  ")
  | error => .ok (ascii "ERROR ")
  | fatal => .ok (ascii "FATAL ")
  | levelCount => .error .outOfRange

end LogLevel

def kMicroSecondsPerSecond : ℤ := 1000 * 1000

/-- `SourceFile(filename)`: what follows the last slash. -/
def sourceFile (filename : List UInt8) : List UInt8 :=
  (filename.reverse.takeWhile (· ≠ 47)).reverse

/-- `class Logger::Impl`. -/
structure Impl where
  stream : LogStream
  level : LogLevel
  line : Integer
  basename : List UInt8

/-- `t_time` after the seconds `time` were printed to it. -/
def printSeconds (time : Tm) : List UInt8 :=
  snprintf 64 (padded 4 (time.tm_year + 1900) ++ ascii "/" ++ zeroPadded 2 (time.tm_mon + 1) ++
    ascii "/" ++ zeroPadded 2 time.tm_mday ++ ascii " " ++ zeroPadded 2 time.tm_hour ++
    ascii ":" ++ zeroPadded 2 time.tm_min ++ ascii ":" ++ zeroPadded 2 time.tm_sec)

/-- `buf` after the microseconds were printed to it. -/
def printMicroseconds (microseconds : ℤ) : List UInt8 :=
  snprintf 32 (zeroPadded 6 microseconds ++ ascii " ")

variable (libc : Libc)

/-- `formatTime()`, when `Timestamp::now()` is `now` microseconds. -/
def formatTime (now : ℤ) (stream : LogStream) : Except Fault LogStream := do
  let seconds := now.tdiv kMicroSecondsPerSecond
  let microseconds := now.tmod kMicroSecondsPerSecond
  let stream ← stream.insert (.generalTemplate ((printSeconds (libc.localtime seconds)).take 17))
  stream.insert (.generalTemplate ((printMicroseconds microseconds).take 7))

/-- `Impl(level, savedErrno, file, line)`. -/
def Impl.create (now : ℤ) (stream : LogStream) (level : LogLevel) (savedErrno : Integer)
    (file : List UInt8) (line : Integer) : Except Fault Impl := do
  let stream ← formatTime libc now stream
  let stream ← stream.insert (.generalTemplate (← level.getLevelName))
  let stream ← if savedErrno.1 ≠ 0 then
      stream.insertAll [.cstr (libc.strerror_r savedErrno), .cstr (ascii " (errno="),
        .integer savedErrno, .cstr (ascii ") ")]
    else pure stream
  return ⟨stream, level, line, sourceFile file⟩

/-- `finish()`. -/
def Impl.finish (impl : Impl) : Except Fault LogStream :=
  impl.stream.insertAll [.cstr (ascii " - "), .generalTemplate impl.basename, .char 58,
    .integer impl.line, .char 10]

/-- The bytes that the destructor passes to `g_output`. -/
def output (stream : LogStream) : List UInt8 := stream.data.take stream.length

end Logger

/-- What the array of a `FixedBuffer<kSmallBuffer>` can hold. -/
abbrev Storage := {storage : List UInt8 // storage.length = kSmallBuffer}

/-- Which macro a log statement uses. -/
inductive LogKind where
  | logDebug
  | logInfo
  | logWarn
  | logError
  | logFatal
  deriving DecidableEq

/-- A log statement: `LOG_INFO << operands`, with `__FILE__`, `__func__` and `__LINE__`. -/
structure LogStatement where
  kind : LogKind
  file : List UInt8
  func : List UInt8
  line : Integer
  operands : List Operand

namespace LogStatement

open Logger

/-- Does the statement make a `Logger`? -/
def Enabled (logLevel : LogLevel) (statement : LogStatement) : Prop :=
  match statement.kind with
  | .logDebug => logLevel.toNat ≤ LogLevel.debug.toNat
  | .logInfo => logLevel.toNat ≤ LogLevel.info.toNat
  | _ => True

instance (logLevel : LogLevel) (statement : LogStatement) :
    Decidable (statement.Enabled logLevel) :=
  match h : statement.kind with
  | .logDebug => decidable_of_iff (logLevel.toNat ≤ LogLevel.debug.toNat) (by rw [Enabled, h])
  | .logInfo => decidable_of_iff (logLevel.toNat ≤ LogLevel.info.toNat) (by rw [Enabled, h])
  | .logWarn => decidable_of_iff True (by rw [Enabled, h])
  | .logError => decidable_of_iff True (by rw [Enabled, h])
  | .logFatal => decidable_of_iff True (by rw [Enabled, h])

/-- No saved `errno`: what every constructor of `Logger` passes on. -/
def noErrno : Integer := ⟨0, by decide⟩

variable (libc : Libc) (now : ℤ) (stream : LogStream) (statement : LogStatement)

/-- The `Logger` that the statement makes. -/
def logger : Except Fault Impl :=
  match statement.kind with
  | .logDebug => do
    let impl ← Impl.create libc now stream .debug noErrno statement.file statement.line
    let stream ← impl.stream.insertAll [.cstr statement.func, .char 32]
    return { impl with stream }
  | .logInfo => Impl.create libc now stream .info noErrno statement.file statement.line
  | .logWarn => Impl.create libc now stream .warn noErrno statement.file statement.line
  | .logError => Impl.create libc now stream .error noErrno statement.file statement.line
  | .logFatal => Impl.create libc now stream .fatal noErrno statement.file statement.line

/-- The stream when the destructor has called `finish()`. -/
def finished : Except Fault LogStream := do
  let impl ← statement.logger libc now stream
  let stream ← impl.stream.insertAll statement.operands
  Impl.finish { impl with stream }

/-- What the statement passes to `g_output`, if it is enabled. -/
def record (logLevel : LogLevel) : Except Fault (Option (List UInt8)) :=
  if statement.Enabled logLevel then do
    let stream ← statement.finished libc now .zeroed
    return some (output stream)
  else return none

/-! ### The pieces of a record -/

/-- The pieces that the constructor streams, for a level with this name. -/
def headPieces (name : List UInt8) : List Operand :=
  [.generalTemplate ((printSeconds (libc.localtime (now.tdiv kMicroSecondsPerSecond))).take 17),
    .generalTemplate ((printMicroseconds (now.tmod kMicroSecondsPerSecond)).take 7),
    .generalTemplate name]

/-- The pieces of the kind of statement: time, level and, where it is logged, the function. -/
def kindPieces : List Operand :=
  match statement.kind with
  | .logDebug => headPieces libc now (ascii "DEBUG ") ++ [.cstr statement.func, .char 32]
  | .logInfo => headPieces libc now (ascii "INFO  ")
  | .logWarn => headPieces libc now (ascii "WARN  ")
  | .logError => headPieces libc now (ascii "ERROR ")
  | .logFatal => headPieces libc now (ascii "FATAL ")

/-- The pieces of the destructor: the place of the statement. -/
def trailer : List Operand :=
  [.cstr (ascii " - "), .generalTemplate (sourceFile statement.file), .char 58,
    .integer statement.line, .char 10]

/-- All pieces of a record, in order. -/
def pieces : List Operand :=
  statement.kindPieces libc now ++ statement.operands ++ statement.trailer

/-- The text that the stream of the statement accepts. -/
def acceptedText : List UInt8 :=
  streamed (Operand.accepted kSmallBuffer (statement.pieces libc now))

variable {libc now stream statement}

theorem create_eq {level : LogLevel} {name file : List UInt8} {line : Integer}
    (h : level.getLevelName = .ok name) :
    Impl.create libc now stream level noErrno file line = do
      let stream ← stream.insertAll (headPieces libc now name)
      return ⟨stream, level, line, sourceFile file⟩ := by
  have hzero : ¬ noErrno.1 ≠ 0 := by simp [noErrno]
  unfold Impl.create
  simp only [h, hzero, if_false, formatTime, headPieces, LogStream.insertAll, List.foldlM_cons,
    List.foldlM_nil, bind_assoc, pure_bind, bind_pure]
  rfl

/-- The `Logger` of a statement holds the pieces of its kind and the place of the statement. -/
theorem logger_eq (libc : Libc) (now : ℤ) (stream : LogStream) (statement : LogStatement) :
    ∃ level, statement.logger libc now stream = do
    let stream ← stream.insertAll (statement.kindPieces libc now)
    return ⟨stream, level, statement.line, sourceFile statement.file⟩ := by
  unfold logger kindPieces
  cases statement.kind with
  | logDebug =>
    refine ⟨.debug, ?_⟩
    simp only [create_eq (show LogLevel.debug.getLevelName = .ok _ from rfl),
      LogStream.insertAll_append, bind_assoc, pure_bind]
  | logInfo => exact ⟨.info, create_eq rfl⟩
  | logWarn => exact ⟨.warn, create_eq rfl⟩
  | logError => exact ⟨.error, create_eq rfl⟩
  | logFatal => exact ⟨.fatal, create_eq rfl⟩

/-- The statement streams its pieces one after the other. -/
theorem finished_eq_insertAll :
    statement.finished libc now stream = stream.insertAll (statement.pieces libc now) := by
  obtain ⟨level, hlogger⟩ := logger_eq libc now stream statement
  rw [finished, hlogger, pieces, LogStream.insertAll_append, LogStream.insertAll_append]
  simp only [bind_assoc, pure_bind]
  rfl

/-- **What the stream of a statement has accepted in the end.**  The last byte of the array is
never written. -/
theorem finished_eq (libc : Libc) (now : ℤ) (statement : LogStatement) :
    ∃ stream, statement.finished libc now .zeroed = .ok stream ∧
      stream.accepted = statement.acceptedText libc now ∧ stream.cur < kSmallBuffer ∧
      stream.data[kSmallBuffer - 1]? = some 0 := by
  have hcur : LogStream.zeroed.cur < kSmallBuffer := by
    show 0 < kSmallBuffer
    decide
  have hlast : LogStream.zeroed.data[kSmallBuffer - 1]? = some 0 := by
    rw [LogStream.zeroed, FixedBuffer.create, List.getElem?_replicate, if_pos (by decide)]
  obtain ⟨stream, hstream, hext⟩ :=
    LogStream.insertAll_eq (statement.pieces libc now) LogStream.zeroed
  exact ⟨stream, finished_eq_insertAll.trans hstream, hext.accepted, hext.cur_lt hcur,
    (hext.last hcur).trans hlast⟩

/-- An enabled statement passes its whole array to `g_output`. -/
theorem record_eq (libc : Libc) (now : ℤ) {logLevel : LogLevel} {statement : LogStatement}
    (h : statement.Enabled logLevel) :
    ∃ stream : LogStream, statement.record libc now logLevel = .ok (some stream.data) ∧
      stream.accepted = statement.acceptedText libc now ∧ stream.cur < kSmallBuffer ∧
      stream.data[kSmallBuffer - 1]? = some 0 := by
  obtain ⟨stream, hstream, haccepted⟩ := finished_eq libc now statement
  refine ⟨stream, ?_, haccepted⟩
  rw [record, if_pos h, hstream]
  show Except.ok (some (output stream)) = _
  rw [output, FixedBuffer.take_length]

/-- **No record is what the stream accepted.**  Every record begins with the accepted text, but it
has the length of the array, which is more, and it ends with a zero byte. -/
theorem record_ne (libc : Libc) (now : ℤ) {logLevel : LogLevel} {statement : LogStatement}
    (h : statement.Enabled logLevel) :
    ∃ record, statement.record libc now logLevel = .ok (some record) ∧
      statement.acceptedText libc now <+: record ∧ record ≠ statement.acceptedText libc now ∧
      record.length = kSmallBuffer ∧ record[kSmallBuffer - 1]? = some 0 := by
  obtain ⟨stream, hrecord, hacc, hcur, hlast⟩ := record_eq libc now h
  refine ⟨stream.data, hrecord, ?_, ?_, stream.length_data, hlast⟩
  · rw [← hacc]
    exact List.take_prefix _ _
  · intro hdata
    have hlength := congrArg List.length (hdata.trans hacc.symm)
    rw [stream.length_data, stream.length_accepted] at hlength
    omega

/-- `LOG_INFO << "hi"` in line 7 of `a.cc`. -/
def logHi : LogStatement := ⟨.logInfo, ascii "a.cc", ascii "main", ⟨7, by decide⟩,
  [.cstr (some (ascii "hi"))]⟩

/-- A clock at the epoch. -/
def epoch : Libc := ⟨fun _ => ⟨70, 0, 1, 0, 0, 0⟩, fun _ => ascii "Success"⟩

/-- An array full of one byte. -/
def filled (byte : UInt8) : Storage := ⟨List.replicate kSmallBuffer byte, List.length_replicate⟩

theorem record_ne_logHi : logHi.Enabled .info ∧
    ∃ record, logHi.record epoch 0 .info = .ok (some record) ∧
      logHi.acceptedText epoch 0 <+: record ∧ record ≠ logHi.acceptedText epoch 0 ∧
      record.length = kSmallBuffer ∧ record[kSmallBuffer - 1]? = some 0 :=
  ⟨by decide, record_ne epoch 0 (by decide)⟩

/-- The 42 bytes of the statement are output together with 3958 bytes behind them. -/
theorem record_logHi : logHi.acceptedText epoch 0 =
      ascii "1970/01/01 00:00:000000 INFO  hi - a.cc:7" ++ [10] ∧
    ∃ record, logHi.record epoch 0 .info = .ok (some record) ∧
      record ≠ logHi.acceptedText epoch 0 ∧ record.length = 4000 := by
  have hlength : (logHi.acceptedText epoch 0).length = 42 := by decide +kernel
  obtain ⟨stream, hrecord, -⟩ := record_eq epoch 0 (show logHi.Enabled .info by decide)
  refine ⟨by decide +kernel, stream.data, hrecord, fun hsame => ?_, stream.length_data⟩
  rw [← hsame, stream.length_data] at hlength
  exact absurd hlength (by decide)

end LogStatement

end TinyNetwork
