import WynthApi.Lib.GoText
import WynthApi.Lib.Run

/-!
# Reading an upstream stream (relay/helper/stream_scanner.go, relay/common/stream_status.go)

`StreamScannerHandler` runs four goroutines.  The scanner puts the payloads of the lines into a channel; the data
handler takes them out and calls back; the pinger writes to the client; the main goroutine waits for the end of the
stream, the idle timer or the client's leaving, and then for the others.  What ends the stream is recorded once.

A step is one operation of one goroutine on what they share; a goroutine on its way out is the list of operations that
it has left.  A step that cannot be taken changes nothing.  Reads may fail and timers may fire at any time, and the
callback may do anything that its `StreamResult` allows.
-/

namespace WynthApi.Stream

/-! ### The status -/

inductive StreamEndReason where
  | done
  | timeout
  | clientGone
  | scannerErr
  | handlerStop
  | eof
  | panic
  | pingFail
  deriving DecidableEq

inductive EndError where
  | none
  | contextEnded
  | other
  deriving DecidableEq

/-- `EndReason` and `EndError` are set once; of the soft errors their number counts. -/
structure StreamStatus where
  ended : Option (StreamEndReason × EndError) := none
  errorCount : Nat := 0
  deriving DecidableEq

variable (s : StreamStatus)

def StreamStatus.setEndReason (reason : StreamEndReason) (err : EndError) : StreamStatus :=
  match s.ended with
  | none => { s with ended := some (reason, err) }
  | some _ => s

def StreamStatus.recordError : StreamStatus := { s with errorCount := s.errorCount + 1 }

inductive StreamTerminationKind where
  | normal
  | abnormal
  | cancelled
  deriving DecidableEq

def StreamStatus.termination : StreamTerminationKind :=
  match s.ended with
  | some (.clientGone, _) => .cancelled
  | some (.handlerStop, .contextEnded) => .cancelled
  | some (.done, _) => if s.errorCount = 0 then .normal else .abnormal
  | some (.eof, _) => if s.errorCount = 0 then .normal else .abnormal
  | _ => .abnormal

/-! ### Lines -/

inductive Line where
  | skip
  | terminator
  | payload (data : String)
  deriving DecidableEq

/-- What the scanner makes of a line.  Of a line that begins with `[DONE]` itself it cuts off five bytes too. -/
def classify (line : String) : Line :=
  if line.utf8ByteSize < 6 then .skip
  else if ¬ GoText.startsWith line "data:" ∧ ¬ GoText.startsWith line "[DONE]" then .skip
  else
    let data := GoText.trimSpace (GoText.sliceFrom line 5)
    if data = "" then .skip
    else if GoText.startsWith data "[DONE]" then .terminator
    else .payload data

def payloads : List String → List String
  | [] => []
  | line :: lines =>
    match classify line with
    | .skip => payloads lines
    | .terminator => []
    | .payload data => data :: payloads lines

/-! ### Goroutines -/

inductive Failure where
  | timeout
  | clientGone
  | scannerErr
  | panic
  | pingFail
  deriving DecidableEq

def Failure.reason : Failure → StreamEndReason
  | .timeout => .timeout
  | .clientGone => .clientGone
  | .scannerErr => .scannerErr
  | .panic => .panic
  | .pingFail => .pingFail

def Failure.err : Failure → EndError
  | .timeout => .none
  | .clientGone => .contextEnded
  | _ => .other

/-- An operation of a goroutine on its way out.  `abort` is `storeAborted` and then `stop`. -/
inductive Op where
  | report (f : Failure)
  | storeAborted
  | stop
  | unlock
  | cancel
  deriving DecidableEq

/-- How the scanner's reading ended: `scanner.Err()`. -/
inductive ScanEnd where
  | eof
  | failed
  deriving DecidableEq

inductive Ending where
  | done
  | eof
  deriving DecidableEq

def Ending.reason : Ending → StreamEndReason
  | .done => .done
  | .eof => .eof

inductive Scanner where
  | reading
  | scanned (line : String)
  | sending (data : String)
  | checkClient (e : ScanEnd)
  | checkCtx (e : ScanEnd)
  | checkErr (e : ScanEnd)
  | finishing (e : Ending)
  /-- The operations before the data channel is closed, and those after it. -/
  | closing (ops after : List Op)
  | leaving (ops : List Op)
  deriving DecidableEq

inductive Handler where
  | receiving
  | checking (data : String)
  | locking (data : String)
  | locked (data : String)
  | calling (stopped : Bool)
  | leaving (ops : List Op)
  deriving DecidableEq

inductive Pinger where
  | waiting
  | locking
  | pinging
  | leaving (ops : List Op)
  deriving DecidableEq

inductive Main where
  | selecting
  | leaving (ops : List Op)
  | returned (kind : StreamTerminationKind)
  deriving DecidableEq

/-- The state.  The last three fields are a record of what happened: the payloads put into the channel, the payloads
passed to the callback, and whether the callback asked to stop. -/
structure State where
  lines : List String
  clientGone : Bool := false
  aborted : Bool := false
  stopped : Bool := false
  cancelled : Bool := false
  status : StreamStatus := {}
  locked : Bool := false
  chan : List String := []
  chanClosed : Bool := false
  scanner : Scanner := .reading
  handler : Handler := .receiving
  pinger : Pinger
  main : Main := .selecting
  sent : List String := []
  passed : List String := []
  askedToStop : Bool := false
  deriving DecidableEq

def initial (lines : List String) (pingEnabled : Bool) : State :=
  { lines, pinger := if pingEnabled then .waiting else .leaving [] }

inductive Read where
  | line
  | eof
  | failed
  | panics
  deriving DecidableEq

inductive Call where
  | error
  | stop (err : EndError)
  | done
  | returns
  | panics
  deriving DecidableEq

inductive PingResult where
  | ok
  | failed
  | panics
  deriving DecidableEq

inductive Act where
  | clientLeaves
  | read (r : Read)
  | scanner
  /-- The scanner's send gives way to a stop. -/
  | quit
  | handler
  | call (c : Call)
  | tick
  | pinger
  | ping (r : PingResult)
  /-- The pinger's select takes one of its ways out. -/
  | pingerQuits
  | timer
  | sawStop
  | sawClient
  | main
  deriving DecidableEq

variable (s : State)

def exec : Op → State
  | .report f => { s with status := s.status.setEndReason f.reason f.err }
  | .storeAborted => { s with aborted := true }
  | .stop => { s with stopped := true }
  | .unlock => { s with locked := false }
  | .cancel => { s with cancelled := true }

/-! ### The scanner -/

def Scanner.exit : Scanner := .closing [] [.stop, .stop]

def dataChanSize : Nat := 10

def readStep : Read → State
  | .line =>
    match s.lines with
    | [] => s
    | line :: lines => { s with lines, scanner := .scanned line }
  | .eof => if s.lines = [] then { s with scanner := .checkClient .eof } else s
  | .failed => { s with scanner := .checkClient .failed }
  | .panics => { s with scanner := .closing [] [.report .panic, .storeAborted, .stop, .stop] }

def scannedStep (line : String) : State :=
  if s.stopped ∨ s.cancelled then { s with scanner := .exit }
  else
    match classify line with
    | .skip => { s with scanner := .reading }
    | .terminator => { s with scanner := .finishing .done }
    | .payload data => { s with scanner := .sending data }

def sendStep (data : String) : State :=
  if s.chan.length < dataChanSize then
    { s with chan := s.chan ++ [data], sent := s.sent ++ [data], scanner := .reading }
  else s

def checkErrStep : ScanEnd → State
  | .eof => { s with scanner := .finishing .eof }
  | .failed => { s with scanner := .closing [.report .scannerErr, .storeAborted, .stop] [.stop, .stop] }

def scannerStep : State :=
  match s.scanner with
  | .reading => s
  | .scanned line => scannedStep s line
  | .sending data => sendStep s data
  | .checkClient e =>
    if s.clientGone then { s with scanner := .closing [.report .clientGone] [.stop, .stop] }
    else { s with scanner := .checkCtx e }
  | .checkCtx e => if s.cancelled then { s with scanner := .exit } else { s with scanner := .checkErr e }
  | .checkErr e => checkErrStep s e
  | .finishing e => { s with status := s.status.setEndReason e.reason .none, scanner := .exit }
  | .closing (op :: ops) after => { exec s op with scanner := .closing ops after }
  | .closing [] after => { s with chanClosed := true, scanner := .leaving after }
  | .leaving (op :: ops) => { exec s op with scanner := .leaving ops }
  | .leaving [] => s

/-! ### The data handler -/

def receiveStep : State :=
  match s.chan with
  | data :: chan => { s with chan, handler := .checking data }
  | [] => if s.chanClosed then { s with handler := .leaving [.stop, .stop] } else s

def handlerStep : State :=
  match s.handler with
  | .receiving => receiveStep s
  | .checking data =>
    if s.aborted ∨ s.clientGone then { s with handler := .leaving [.stop, .stop] }
    else { s with handler := .locking data }
  | .locking data => if s.locked then s else { s with locked := true, handler := .locked data }
  | .locked data =>
    if s.aborted ∨ s.clientGone then { s with handler := .leaving [.unlock, .stop, .stop] }
    else { s with passed := s.passed ++ [data], handler := .calling false }
  | .calling _ => s
  | .leaving (op :: ops) => { exec s op with handler := .leaving ops }
  | .leaving [] => s

def callStep (stopped : Bool) : Call → State
  | .error => { s with status := s.status.recordError }
  | .stop err =>
    { s with
      status := (if err = .none then s.status else s.status.recordError).setEndReason .handlerStop err
      handler := .calling true, askedToStop := true }
  | .done =>
    { s with status := s.status.setEndReason .done .none, handler := .calling true, askedToStop := true }
  | .returns => { s with locked := false, handler := if stopped then .leaving [.stop, .stop] else .receiving }
  | .panics => { s with handler := .leaving [.unlock, .report .panic, .storeAborted, .stop, .stop] }

/-! ### The pinger and the main goroutine -/

def pingerStep : State :=
  match s.pinger with
  | .locking => if s.locked then s else { s with locked := true, pinger := .pinging }
  | .leaving (op :: ops) => { exec s op with pinger := .leaving ops }
  | _ => s

def pingStep : PingResult → State
  | .ok => { s with locked := false, pinger := .waiting }
  | .failed => { s with pinger := .leaving [.unlock, .report .pingFail, .storeAborted, .stop] }
  | .panics => { s with pinger := .leaving [.report .panic, .storeAborted, .stop, .unlock] }

def cleanup : List Op := [.cancel, .stop]

def mainStep : State :=
  match s.main with
  | .leaving (op :: ops) => { exec s op with main := .leaving ops }
  | .leaving [] =>
    if s.scanner = .leaving [] ∧ s.handler = .leaving [] ∧ s.pinger = .leaving [] then
      { s with main := .returned s.status.termination }
    else s
  | _ => s

def step : Act → State
  | .clientLeaves => { s with clientGone := true }
  | .read r => if s.scanner = .reading then readStep s r else s
  | .scanner => scannerStep s
  | .quit =>
    match s.scanner with
    | .sending _ => if s.stopped ∨ s.cancelled then { s with scanner := .exit } else s
    | _ => s
  | .handler => handlerStep s
  | .call c =>
    match s.handler with
    | .calling stopped => callStep s stopped c
    | _ => s
  | .tick => if s.pinger = .waiting then { s with pinger := .locking } else s
  | .pinger => pingerStep s
  | .ping r => if s.pinger = .pinging then pingStep s r else s
  | .pingerQuits => if s.pinger = .waiting then { s with pinger := .leaving [] } else s
  | .timer =>
    if s.main = .selecting then { s with main := .leaving (.storeAborted :: .stop :: .report .timeout :: cleanup) }
    else s
  | .sawStop => if s.main = .selecting ∧ s.stopped then { s with main := .leaving cleanup } else s
  | .sawClient =>
    if s.main = .selecting ∧ s.clientGone then
      { s with main := .leaving (.storeAborted :: .stop :: .report .clientGone :: cleanup) }
    else s
  | .main => mainStep s

end WynthApi.Stream
