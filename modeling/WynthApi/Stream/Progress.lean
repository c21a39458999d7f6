import WynthApi.Stream.NormalEnd

/-!
# The writers' lock, and the way out

The callback and the pinger write to the client under one lock, which its holder gives back on the way out.  Some
goroutine can always go on towards its end, also while the client stays.
-/

namespace WynthApi.Stream

open StepSys List

@[grind] def unlocks : List Op → ℕ
  | [] => 0
  | op :: ops => (if op = .unlock then 1 else 0) + unlocks ops

/-- The steps to a goroutine's end, and the unlocks among them. -/
@[grind] def Handler.rank : Handler → ℕ × ℕ
  | .receiving => (8, 0)
  | .checking _ => (7, 0)
  | .locking _ => (6, 0)
  | .locked _ => (5, 1)
  | .calling stopped => (if stopped then 3 else 4, 1)
  | .leaving ops => (ops.length, unlocks ops)

@[grind] def Pinger.rank : Pinger → ℕ × ℕ
  | .waiting => (1, 0)
  | .locking => (6, 0)
  | .pinging => (5, 1)
  | .leaving ops => (ops.length, unlocks ops)

@[grind] def Scanner.rank : Scanner → ℕ × ℕ
  | .scanned _ => (12, 0)
  | .sending _ => (11, 0)
  | .reading => (10, 0)
  | .checkClient _ => (9, 0)
  | .checkCtx _ => (8, 0)
  | .checkErr _ => (7, 0)
  | .finishing _ => (6, 0)
  | .closing ops after => (ops.length + after.length + 1, unlocks ops + unlocks after)
  | .leaving ops => (ops.length, unlocks ops)

@[grind] def Main.rank : Main → ℕ × ℕ
  | .selecting => (7, 0)
  | .leaving ops => (ops.length + 1, unlocks ops)
  | .returned _ => (0, 0)

@[grind] def rank (s : State) : ℕ :=
  s.main.rank.1 + s.scanner.rank.1 + s.handler.rank.1 + s.pinger.rank.1

@[grind] structure Inv (s : State) : Prop where
  locked : s.main.rank.2 + s.scanner.rank.2 + s.handler.rank.2 + s.pinger.rank.2 = if s.locked then 1 else 0
  closed : ∀ ops, s.scanner = .leaving ops → s.chanClosed = true
  cancelled : ∀ ops, s.main = .leaving ops → .cancel ∈ ops ∨ s.cancelled = true

variable {s : State}

theorem exec_frame (s : State) (op : Op) : (exec s op).handler = s.handler ∧ (exec s op).pinger = s.pinger ∧
    (exec s op).scanner = s.scanner ∧ (exec s op).main = s.main ∧ (exec s op).chanClosed = s.chanClosed ∧
    (exec s op).clientGone = s.clientGone ∧ (exec s op).locked = (s.locked && op ≠ .unlock) ∧
    (exec s op).cancelled = (s.cancelled || op = .cancel) := by
  cases op <;> simp [exec]

theorem inv_step (s : State) (a : Act) (h : Inv s) : Inv (step s a) := by
  have hexec := exec_frame s
  have hpanic : unlocks [.report .panic, .storeAborted, .stop, .stop] = 0 := rfl
  cases a with
  | read r => cases r <;> grind [step, readStep]
  | call c => cases c <;> grind [step, callStep]
  | ping r => cases r <;> grind [step, pingStep]
  | scanner => grind [step, scannerStep, scannedStep, sendStep, checkErrStep, Scanner.exit, cases ScanEnd]
  | handler => grind [step, handlerStep, receiveStep]
  | pinger => grind [step, pingerStep]
  | main => grind [step, mainStep]
  | _ => grind [step, cleanup, Scanner.exit]

theorem inv_run (lines : List String) (pingEnabled : Bool) (acts : List Act) :
    Inv (run step (initial lines pingEnabled) acts) :=
  run_inv (fun s a h _ => inv_step s a h) ⟨by cases pingEnabled <;> rfl, nofun, nofun⟩
    (along_of_forall (fun (_ : Act) _ => trivial) _)

/-- **One writer**: the callback and the ping are never at work together, and the lock is free after the return. -/
theorem writers_exclude (lines : List String) (pingEnabled : Bool) (acts : List Act) :
    let s := run step (initial lines pingEnabled) acts
    (∀ stopped, s.handler = .calling stopped → s.pinger ≠ .pinging) ∧
      ∀ kind, s.main = .returned kind → s.locked = false := by
  have hlocked := (inv_run lines pingEnabled acts).locked
  refine ⟨by grind, fun kind hret => ?_⟩
  have hover := over_run hret
  grind [hover.handler, hover.pinger, hover.scanner]

/-- The idle timer, a failing read and a callback that is done are ways out that need no client to leave. -/
theorem can_move (h : Inv s) (hret : ∀ kind, s.main ≠ .returned kind) :
    ∃ a, a ≠ .clientLeaves ∧ rank (step s a) < rank s := by
  by_contra! hstuck
  have hexec := exec_frame s
  have hmain : s.main = .leaving [] := by
    rcases hm : s.main with _ | (_ | ⟨op, ops⟩) | kind <;>
      grind [step, mainStep, cleanup, hstuck .timer, hstuck .main]
  have hcancelled : s.cancelled = true := by simpa using h.cancelled [] hmain
  have hscan : s.scanner = .leaving [] := by
    cases hs : s.scanner <;>
      grind [step, readStep, scannerStep, scannedStep, checkErrStep, Scanner.exit, cases ScanEnd, cases List,
        hstuck (.read .failed), hstuck .quit, hstuck .scanner]
  have hclosed := h.closed [] hscan
  have hping : s.pinger = .leaving [] ∨ s.pinger = .locking ∧ s.locked = true := by
    rcases hp : s.pinger with _ | _ | _ | (_ | ⟨op, ops⟩) <;>
      grind [step, pingStep, pingerStep, hstuck .pingerQuits, hstuck (.ping .failed), hstuck .pinger]
  have hhand : s.handler = .leaving [] ∨ (∃ data, s.handler = .locking data) ∧ s.locked = true := by
    rcases hh : s.handler with _ | _ | _ | _ | stopped | (_ | ⟨op, ops⟩) <;>
      grind [step, callStep, handlerStep, receiveStep, hstuck (.call .done), hstuck (.call .returns), hstuck .handler]
  -- so nobody holds the lock, and the main goroutine waits for nobody
  grind [step, mainStep, h.locked, hstuck .main]

/-- **No deadlock**: whatever has happened, some way to go on ends with the function's return, while the client
stays. -/
theorem stream_can_return (lines : List String) (pingEnabled : Bool) (acts : List Act) :
    ∃ more kind, .clientLeaves ∉ more ∧
      (run step (initial lines pingEnabled) (acts ++ more)).main = .returned kind := by
  obtain ⟨more, hstay, kind, hret⟩ := exists_run (G := fun s => ∃ kind, s.main = .returned kind) rank
    (fun s h hret => (can_move h (not_exists.mp hret)).imp fun a ha => ⟨ha.1, inv_step s a h, ha.2⟩)
    (inv_run lines pingEnabled acts)
  exact ⟨more, kind, fun hmem => hstay _ hmem rfl, by rwa [run_append]⟩

end WynthApi.Stream
