import WynthApi.Stream.Scanner

/-!
# Payloads go through in order, and what a normal end means

While both goroutines are in their loops, the payloads put into the channel and those ahead of the scanner are those
of the stream, and those passed on, in the data handler's hands and in the channel are those put into it.

The reason of the end is the first one reported, and the scanner reports `done` or `eof` when all payloads are in the
channel.  A client that leaves, a failed ping, the idle timer and a panic of the callback make the data handler drop
what is still there, and report too late.  `Clean` excludes this.
-/

namespace WynthApi.Stream

open List

def Scanner.ahead (lines : List String) : Scanner → Option (List String)
  | .reading => some (payloads lines)
  | .scanned line => some (payloads (line :: lines))
  | .sending data => some (data :: payloads lines)
  | .checkClient .eof => some []
  | .checkCtx .eof => some []
  | .checkErr .eof => some []
  | .finishing _ => some []
  | _ => none

def Handler.hand : Handler → Option (List String)
  | .receiving => some []
  | .checking data => some [data]
  | .locking data => some [data]
  | .locked data => some [data]
  | .calling _ => some []
  | .leaving _ => none

def Scanner.left : Scanner → Bool
  | .leaving _ => true
  | _ => false

def Handler.panicked : Handler → Bool
  | .leaving ops => .report .panic ∈ ops
  | _ => false

def disturbed (s : State) : Bool := s.aborted || s.clientGone || s.handler.panicked

def StreamStatus.normalEnd (s : StreamStatus) : Bool :=
  match s.ended with
  | some (.done, _) | some (.eof, _) => true
  | _ => false

/-- Of the step `a`: it disturbs the stream only before its normal end or when all payloads are passed, and ends it
normally only while it is not disturbed, if not at the wish of the callback. -/
def Clean (total : List String) (s : State) (a : Act) : Prop :=
  (disturbed s = false → disturbed (step s a) = true → s.status.normalEnd = true → s.passed = total) ∧
  (s.status.normalEnd = false → (step s a).status.normalEnd = true →
    disturbed s = false ∨ (step s a).askedToStop = true)
  deriving Decidable

/-- **Invariant**; `C` says that the steps so far were clean. -/
structure Flow (C : Prop) (total : List String) (s : State) : Prop where
  scanning : ∀ l, s.scanner.ahead s.lines = some l → s.sent ++ l = total
  sent : s.sent <+: total
  handling : ∀ l, s.handler.hand = some l → s.passed ++ l ++ s.chan = s.sent
  passed : s.passed <+: s.sent
  closed : s.chanClosed = true → s.scanner.left = true
  asking : s.handler = .calling true → s.askedToStop = true
  left : s.handler.hand = none → s.askedToStop = true ∨ disturbed s = true ∨ s.status.ended ≠ none ∨
    (s.chanClosed = true ∧ s.passed = s.sent)
  normal : C → s.status.normalEnd = true → s.askedToStop = false →
    s.sent = total ∧ (s.passed = total ∨ (s.handler.hand ≠ none ∧ disturbed s = false))

variable {C : Prop} {total : List String} {s s' : State}

theorem flow_initial (lines : List String) (pingEnabled : Bool) :
    Flow C (payloads lines) (initial lines pingEnabled) where
  scanning := by
    rintro l hl
    exact (Option.some.inj hl).symm
  sent := nil_prefix
  handling := by
    rintro l hl
    exact (Option.some.inj hl).symm ▸ rfl
  passed := nil_prefix
  closed := nofun
  asking := nofun
  left := nofun
  normal := nofun

/-! ### The other goroutines -/

/-- What the pinger, the main goroutine and the client may do: they leave the scanner, the data handler and the
payloads alone, and report failures only. -/
structure Aside (s s' : State) : Prop where
  lines : s'.lines = s.lines
  chan : s'.chan = s.chan
  chanClosed : s'.chanClosed = s.chanClosed
  scanner : s'.scanner = s.scanner
  handler : s'.handler = s.handler
  sent : s'.sent = s.sent
  passed : s'.passed = s.passed
  askedToStop : s'.askedToStop = s.askedToStop
  aborted : s.aborted = true → s'.aborted = true
  clientGone : s.clientGone = true → s'.clientGone = true
  ended : s'.status.ended = s.status.ended ∨
    (s.status.ended = none ∧ ∃ f : Failure, s'.status.ended = some (f.reason, f.err))

theorem Aside.refl (s : State) : Aside s s := ⟨rfl, rfl, rfl, rfl, rfl, rfl, rfl, rfl, id, id, .inl rfl⟩

theorem StreamStatus.setEndReason_ended (s : StreamStatus) (reason : StreamEndReason) (err : EndError) :
    (s.setEndReason reason err).ended = s.ended ∨
      (s.ended = none ∧ (s.setEndReason reason err).ended = some (reason, err)) := by
  rw [setEndReason]
  split
  · next hnone => exact .inr ⟨hnone, rfl⟩
  · exact .inl rfl

theorem StreamStatus.setEndReason_ne_none (s : StreamStatus) (reason : StreamEndReason) (err : EndError) :
    (s.setEndReason reason err).ended ≠ none := by
  rw [setEndReason]
  split
  · nofun
  · next hsome =>
    rw [hsome]
    nofun

theorem aside_exec (s : State) (op : Op) : Aside s (exec s op) := by
  cases op with
  | report f =>
    refine ⟨rfl, rfl, rfl, rfl, rfl, rfl, rfl, rfl, id, id, ?_⟩
    rcases s.status.setEndReason_ended f.reason f.err with hsame | ⟨hnone, hset⟩
    · exact .inl hsame
    · exact .inr ⟨hnone, f, hset⟩
  | storeAborted => exact ⟨rfl, rfl, rfl, rfl, rfl, rfl, rfl, rfl, fun _ => rfl, id, .inl rfl⟩
  | stop | unlock | cancel => exact ⟨rfl, rfl, rfl, rfl, rfl, rfl, rfl, rfl, id, id, .inl rfl⟩

theorem Aside.move (h : Aside s s') (p : Pinger) (m : Main) (l : Bool) :
    Aside s { s' with pinger := p, main := m, locked := l } :=
  ⟨h.lines, h.chan, h.chanClosed, h.scanner, h.handler, h.sent, h.passed, h.askedToStop, h.aborted, h.clientGone,
    h.ended⟩

def Act.aside : Act → Bool
  | .read _ | .scanner | .quit | .handler | .call _ => false
  | _ => true

theorem aside_pinger (s : State) : Aside s (pingerStep s) := by
  rw [pingerStep]
  split
  · split_ifs
    · exact .refl s
    · exact (Aside.refl s).move _ _ _
  · next op ops _ => exact (aside_exec s op).move _ _ _
  · exact .refl s

theorem aside_main (s : State) : Aside s (mainStep s) := by
  rw [mainStep]
  split
  · next op ops _ => exact (aside_exec s op).move _ _ _
  · split_ifs
    · exact (Aside.refl s).move _ _ _
    · exact .refl s
  · exact .refl s

variable {a : Act}

theorem aside_step (ha : a.aside = true) : Aside s (step s a) := by
  cases a with
  | clientLeaves => exact ⟨rfl, rfl, rfl, rfl, rfl, rfl, rfl, rfl, id, fun _ => rfl, .inl rfl⟩
  | pinger => exact aside_pinger s
  | main => exact aside_main s
  | ping r =>
    rw [step]
    split_ifs
    · cases r <;> exact (Aside.refl s).move _ _ _
    · exact .refl s
  | tick | pingerQuits | timer | sawStop | sawClient =>
    rw [step]
    split_ifs
    · exact (Aside.refl s).move _ _ _
    · exact .refl s
  | read | scanner | quit | handler | call => exact absurd ha nofun

variable {status : StreamStatus}

theorem Failure.not_normalEnd (f : Failure) (h : status.ended = some (f.reason, f.err)) : status.normalEnd = false := by
  rw [StreamStatus.normalEnd, h]
  cases f <;> rfl

theorem Aside.normalEnd (ha : Aside s s') (h : s'.status.normalEnd = true) : s.status.normalEnd = true := by
  rcases ha.ended with hsame | ⟨-, f, hset⟩
  · rw [StreamStatus.normalEnd, hsame] at h
    exact h
  · rw [f.not_normalEnd hset] at h
    cases h

theorem Aside.still_ended (ha : Aside s s') (h : s.status.ended ≠ none) : s'.status.ended ≠ none := by
  rcases ha.ended with hsame | ⟨hnone, -⟩
  · rw [hsame]
    exact h
  · exact absurd hnone h

theorem Aside.disturbed (ha : Aside s s') (h : disturbed s = true) : disturbed s' = true := by
  simp only [Stream.disturbed, Bool.or_eq_true] at h ⊢
  rcases h with (habort | hgone) | hpanic
  · exact .inl (.inl (ha.aborted habort))
  · exact .inl (.inr (ha.clientGone hgone))
  · rw [ha.handler]
    exact .inr hpanic

section

variable (h : Flow C total s)

include h

theorem Flow.aside (ha : Aside s s')
    (hc : C → disturbed s = false → disturbed s' = true → s.status.normalEnd = true → s.passed = total) :
    Flow C total s' := by
  refine ⟨?_, ?_, ?_, ?_, ?_, ?_, ?_, fun hC hnormal => ?_⟩
  · rw [ha.lines, ha.scanner, ha.sent]
    exact h.scanning
  · rw [ha.sent]
    exact h.sent
  · rw [ha.handler, ha.passed, ha.chan, ha.sent]
    exact h.handling
  · rw [ha.passed, ha.sent]
    exact h.passed
  · rw [ha.chanClosed, ha.scanner]
    exact h.closed
  · rw [ha.handler, ha.askedToStop]
    exact h.asking
  · rw [ha.handler, ha.askedToStop, ha.passed, ha.sent, ha.chanClosed]
    intro hhand
    rcases h.left hhand with hasked | hdist | hended | hdrained
    · exact .inl hasked
    · exact .inr (.inl (ha.disturbed hdist))
    · exact .inr (.inr (.inl (ha.still_ended hended)))
    · exact .inr (.inr (.inr hdrained))
  · have hbefore := ha.normalEnd hnormal
    rw [ha.askedToStop, ha.sent, ha.passed, ha.handler]
    intro hasked
    obtain ⟨hsent, hall | ⟨hlive, hcalm⟩⟩ := h.normal hC hbefore hasked
    · exact ⟨hsent, .inl hall⟩
    · refine ⟨hsent, ?_⟩
      by_cases hdist : Stream.disturbed s' = true
      · exact .inl (hc hC hcalm hdist hbefore)
      · exact .inr ⟨hlive, Bool.eq_false_iff.mpr hdist⟩

/-! ### The scanner -/

theorem Flow.open (hscan : s.scanner.left = false) : s.chanClosed = false := by
  by_contra hclosed
  rw [h.closed (Bool.not_eq_false _ ▸ hclosed)] at hscan
  cases hscan

theorem Flow.scanner (hscan : s.scanner.left = false) {lines : List String} {p : Scanner}
    (hahead : ∀ l, p.ahead lines = some l → s.sent ++ l = total) : Flow C total { s with lines, scanner := p } :=
  ⟨hahead, h.sent, h.handling, h.passed, fun hc => absurd ((h.open hscan).symm.trans hc) nofun, h.asking, h.left,
    h.normal⟩

theorem flow_read (hscan : s.scanner = .reading) (r : Read) : Flow C total (readStep s r) := by
  have hleft : s.scanner.left = false := by rw [hscan]; rfl
  have hahead : s.sent ++ payloads s.lines = total := h.scanning _ (by rw [hscan]; rfl)
  cases r with
  | line =>
    rw [readStep]
    split
    · exact h
    · next line lines heq =>
      refine h.scanner hleft fun l hl => ?_
      obtain rfl := Option.some.inj hl
      rw [← heq]
      exact hahead
  | eof =>
    rw [readStep]
    split_ifs with hend
    · refine h.scanner hleft fun l hl => ?_
      obtain rfl := Option.some.inj hl
      rw [hend] at hahead
      exact hahead
    · exact h
  | failed | panics => exact h.scanner hleft nofun

theorem flow_scanned {line : String} (hscan : s.scanner = .scanned line) : Flow C total (scannedStep s line) := by
  have hleft : s.scanner.left = false := by rw [hscan]; rfl
  have hahead : s.sent ++ payloads (line :: s.lines) = total := h.scanning _ (by rw [hscan]; rfl)
  rw [payloads] at hahead
  rw [scannedStep]
  split_ifs
  · exact h.scanner hleft nofun
  · split <;> rename_i hline <;> rw [hline] at hahead <;> refine h.scanner hleft fun l hl => ?_
    all_goals obtain rfl := Option.some.inj hl
    all_goals exact hahead

theorem flow_send {data : String} (hscan : s.scanner = .sending data) : Flow C total (sendStep s data) := by
  have hopen : s.chanClosed = false := h.open (by rw [hscan]; rfl)
  have hahead : s.sent ++ data :: payloads s.lines = total := h.scanning _ (by rw [hscan]; rfl)
  rw [sendStep]
  split_ifs
  · have hahead' : s.sent ++ [data] ++ payloads s.lines = total := by
      rw [append_assoc]
      exact hahead
    refine ⟨fun l hl => ?_, ⟨_, hahead'⟩, fun l hl => ?_, h.passed.trans (prefix_append _ _),
      fun hc => absurd (hopen.symm.trans hc) nofun, h.asking, fun hhand => ?_, fun hC hnormal hasked => ?_⟩
    · obtain rfl := Option.some.inj hl
      exact hahead'
    · show s.passed ++ l ++ (s.chan ++ [data]) = s.sent ++ [data]
      rw [← append_assoc, h.handling l hl]
    · rcases h.left hhand with hasked | hdist | hended | ⟨hclosed, -⟩
      · exact .inl hasked
      · exact .inr (.inl hdist)
      · exact .inr (.inr (.inl hended))
      · exact absurd (hopen.symm.trans hclosed) nofun
    · rw [← (h.normal hC hnormal hasked).1] at hahead
      exact absurd (append_right_eq_self.mp hahead) nofun
  · exact h

theorem flow_finish {e : Ending} (hscan : s.scanner = .finishing e) (hc : C → Clean total s .scanner) :
    Flow C total { s with status := s.status.setEndReason e.reason .none, scanner := .exit } := by
  have hopen : s.chanClosed = false := h.open (by rw [hscan]; rfl)
  have hall : s.sent ++ [] = total := h.scanning _ (by rw [hscan]; rfl)
  rw [append_nil] at hall
  have hrun : step s .scanner = { s with status := s.status.setEndReason e.reason .none, scanner := .exit } := by
    rw [step, scannerStep, hscan]
  refine ⟨nofun, h.sent, h.handling, h.passed, fun hc => absurd (hopen.symm.trans hc) nofun, h.asking,
    fun _ => .inr (.inr (.inl (s.status.setEndReason_ne_none _ _))), fun hC hnormal hasked => ?_⟩
  rcases s.status.setEndReason_ended e.reason .none with hsame | ⟨hnone, -⟩
  · refine h.normal hC ?_ hasked
    rw [StreamStatus.normalEnd, hsame] at hnormal
    exact hnormal
  · have hcalm : disturbed s = false := by
      rcases (hc hC).2 (by rw [StreamStatus.normalEnd, hnone]) (by rw [hrun]; exact hnormal) with hcalm | hasked'
      · exact hcalm
      · rw [hrun] at hasked'
        exact absurd (hasked.symm.trans hasked') nofun
    refine ⟨hall, .inr ⟨fun hhand => ?_, hcalm⟩⟩
    rcases h.left hhand with hasked' | hdist | hended | ⟨hclosed, -⟩
    · exact absurd (hasked.symm.trans hasked') nofun
    · exact absurd (hcalm.symm.trans hdist) nofun
    · exact hended hnone
    · exact absurd (hopen.symm.trans hclosed) nofun

variable {op : Op}

theorem Flow.scannerExec (hc : C → Clean total s .scanner) {p : Scanner}
    (hrun : scannerStep s = { exec s op with scanner := p }) (hp : ∀ lines, p.ahead lines = none)
    (hleft : s.scanner.left = true → p.left = true) : Flow C total (scannerStep s) := by
  have ha := aside_exec s op
  have hexec := h.aside ha fun hC => by
    have hcalm := (hc hC).1
    rwa [step, hrun] at hcalm
  rw [hrun]
  refine ⟨fun l hl => absurd ((hp _).symm.trans hl) nofun, hexec.sent, hexec.handling, hexec.passed,
    fun hclosed => hleft ?_, hexec.asking, hexec.left, hexec.normal⟩
  rw [← ha.scanner]
  exact hexec.closed hclosed

theorem flow_scanner (hc : C → Clean total s .scanner) : Flow C total (scannerStep s) := by
  have hrun : scannerStep s = scannerStep s := rfl
  conv_rhs at hrun => rw [scannerStep]
  split at hrun <;> rename_i hscan
  · rwa [hrun]
  · rw [hrun]
    exact flow_scanned h hscan
  · rw [hrun]
    exact flow_send h hscan
  iterate 2
    next e =>
    have hleft : s.scanner.left = false := by rw [hscan]; rfl
    rw [hrun]
    split_ifs
    · exact h.scanner hleft nofun
    · refine h.scanner hleft fun l hl => h.scanning l ?_
      rw [hscan]
      cases e <;> exact hl
  · next e =>
    have hleft : s.scanner.left = false := by rw [hscan]; rfl
    rw [hrun]
    cases e with
    | eof => exact h.scanner hleft fun l hl => h.scanning l (by rw [hscan]; exact hl)
    | failed => exact h.scanner hleft nofun
  · rw [hrun]
    exact flow_finish h hscan hc
  · exact h.scannerExec hc hrun (fun _ => rfl) (by rw [hscan]; nofun)
  · rw [hrun]
    exact ⟨nofun, h.sent, h.handling, h.passed, fun _ => rfl, h.asking,
      fun hhand => (h.left hhand).imp_right (.imp_right (.imp_right fun hall => ⟨rfl, hall.2⟩)), h.normal⟩
  · exact h.scannerExec hc hrun (fun _ => rfl) (fun _ => rfl)
  · rwa [hrun]

/-! ### The data handler -/

end

variable {p : Handler}

theorem Handler.calm (h : p.hand ≠ none) : p.panicked = false := by
  cases p with
  | leaving ops => exact absurd rfl h
  | _ => rfl

section

variable (h : Flow C total s)

include h

variable {locked : Bool}

theorem Flow.loop {passed chan : List String}
    (hhand : s.handler.hand ≠ none) (hp : p.hand ≠ none) (hcalling : p ≠ .calling true)
    (hflow : ∀ l, p.hand = some l → passed ++ l ++ chan = s.sent) (hpassed : passed <+: s.sent)
    (hall : s.passed = s.sent → passed = s.sent) : Flow C total { s with handler := p, passed, chan, locked } := by
  refine ⟨h.scanning, h.sent, hflow, hpassed, h.closed, fun hcall => absurd hcall hcalling,
    fun hnone => absurd hnone hp, fun hC hnormal hasked => ?_⟩
  obtain ⟨hsent, hdone | ⟨-, hcalm⟩⟩ := h.normal hC hnormal hasked
  · exact ⟨hsent, .inl ((hall (hdone.trans hsent.symm)).trans hsent)⟩
  · refine ⟨hsent, .inr ⟨hp, ?_⟩⟩
    rw [disturbed, Handler.calm hhand] at hcalm
    rw [disturbed, Handler.calm hp]
    exact hcalm

variable {ops : List Op}

theorem Flow.leave (hleft : s.askedToStop = true ∨ disturbed { s with handler := .leaving ops, locked } = true ∨
      (s.chanClosed = true ∧ s.passed = s.sent))
    (hall : C → s.status.normalEnd = true → s.askedToStop = false → s.passed = total) :
    Flow C total { s with handler := .leaving ops, locked } := by
  refine ⟨h.scanning, h.sent, nofun, h.passed, h.closed, nofun, fun _ => ?_, fun hC hnormal hasked => ?_⟩
  · exact hleft.imp_right (.imp_right .inr)
  · exact ⟨(h.normal hC hnormal hasked).1, .inl (hall hC hnormal hasked)⟩

theorem Flow.drop (hdist : s.aborted = true ∨ s.clientGone = true) :
    Flow C total { s with handler := .leaving ops } := by
  have hor : (s.aborted || s.clientGone) = true := Bool.or_eq_true_iff.mpr hdist
  refine h.leave (.inr (.inl ?_)) fun hC hnormal hasked => ?_
  · rw [disturbed, hor, Bool.true_or]
  · obtain ⟨-, hall | ⟨-, hcalm⟩⟩ := h.normal hC hnormal hasked
    · exact hall
    · rw [disturbed, hor] at hcalm
      cases hcalm

theorem flow_receive (hrecv : s.handler = .receiving) : Flow C total (receiveStep s) := by
  have hsent : s.passed ++ [] ++ s.chan = s.sent := h.handling [] (by rw [hrecv]; rfl)
  rw [append_nil] at hsent
  rw [receiveStep]
  split
  · next data chan heq =>
    refine h.loop (by rw [hrecv]; nofun) nofun nofun (fun l hl => ?_) h.passed id
    obtain rfl := Option.some.inj hl
    rw [append_assoc, ← hsent, heq]
    rfl
  · next hempty =>
    have hall : s.passed = s.sent := by rwa [hempty, append_nil] at hsent
    split_ifs with hclosed
    · exact h.leave (.inr (.inr ⟨hclosed, hall⟩)) fun hC hnormal hasked => hall.trans (h.normal hC hnormal hasked).1
    · exact h

theorem flow_leaving (hhand : s.handler = .leaving (op :: ops)) :
    Flow C total { exec s op with handler := .leaving ops } := by
  have ha := aside_exec s op
  -- the data handler has left its loop: of a normal end there is nothing more to say
  have hexec : Flow False total (exec s op) :=
    Flow.aside ⟨h.scanning, h.sent, h.handling, h.passed, h.closed, h.asking, h.left, False.elim⟩ ha False.elim
  refine ⟨hexec.scanning, hexec.sent, nofun, hexec.passed, hexec.closed, nofun, fun _ => ?_,
    fun hC hnormal hasked => ?_⟩
  · rcases h.left (by rw [hhand]; rfl) with hasked | hdist | hended | ⟨hclosed, hall⟩
    · exact .inl (ha.askedToStop.trans hasked)
    · rw [disturbed, hhand] at hdist
      simp only [disturbed, Handler.panicked, Bool.or_eq_true, decide_eq_true_eq, mem_cons] at hdist ⊢
      rcases hdist with (habort | hgone) | rfl | hpanic
      · exact .inr (.inl (.inl (.inl (ha.aborted habort))))
      · exact .inr (.inl (.inl (.inr (ha.clientGone hgone))))
      · exact .inr (.inr (.inl (s.status.setEndReason_ne_none _ _)))
      · exact .inr (.inl (.inr hpanic))
    · exact .inr (.inr (.inl (ha.still_ended hended)))
    · exact .inr (.inr (.inr ⟨ha.chanClosed.trans hclosed, ha.passed.trans (hall.trans ha.sent.symm)⟩))
  · obtain ⟨hsent, hall | ⟨hlive, -⟩⟩ := h.normal hC (ha.normalEnd hnormal) (ha.askedToStop.symm.trans hasked)
    · exact ⟨ha.sent.trans hsent, .inl (ha.passed.trans hall)⟩
    · exact absurd (by rw [hhand]; rfl) hlive

theorem flow_handler : Flow C total (handlerStep s) := by
  rw [handlerStep]
  split
  · next hrecv => exact flow_receive h hrecv
  · next data hhand =>
    split_ifs with hdist
    · exact h.drop hdist
    · refine h.loop (by rw [hhand]; nofun) nofun nofun (fun l hl => h.handling l ?_) h.passed id
      rw [hhand]
      exact hl
  · next data hhand =>
    split_ifs
    · exact h
    · refine h.loop (by rw [hhand]; nofun) nofun nofun (fun l hl => h.handling l ?_) h.passed id
      rw [hhand]
      exact hl
  · next data hhand =>
    have hsent : s.passed ++ [data] ++ s.chan = s.sent := h.handling _ (by rw [hhand]; rfl)
    split_ifs with hdist
    · exact h.drop hdist
    · refine h.loop (by rw [hhand]; nofun) nofun nofun (fun l hl => ?_) ⟨s.chan, hsent⟩ fun hall => ?_
      · obtain rfl := Option.some.inj hl
        rw [append_nil]
        exact hsent
      · -- the payload in hand was put into the channel and not passed
        rw [← hall, append_assoc] at hsent
        exact absurd (append_right_eq_self.mp hsent) nofun
  · exact h
  · next op ops hhand => exact flow_leaving h hhand
  · exact h

variable {stopped : Bool}

theorem Flow.ask (hcall : s.handler = .calling stopped) :
    Flow C total { s with status, handler := .calling true, askedToStop := true } :=
  ⟨h.scanning, h.sent, fun l hl => h.handling l (by rw [hcall]; exact hl), h.passed, h.closed, fun _ => rfl, nofun,
    nofun⟩

theorem flow_call (hcall : s.handler = .calling stopped) (c : Call)
    (hc : C → Clean total s (.call c)) : Flow C total (callStep s stopped c) := by
  have hrun : step s (.call c) = callStep s stopped c := by rw [step, hcall]
  cases c with
  | error => exact ⟨h.scanning, h.sent, h.handling, h.passed, h.closed, h.asking, h.left, h.normal⟩
  | stop err => exact h.ask hcall
  | done => exact h.ask hcall
  | returns =>
    cases stopped with
    | true =>
      have hasked := h.asking hcall
      exact h.leave (.inl hasked) fun _ _ hnot => absurd (hasked.symm.trans hnot) nofun
    | false =>
      refine h.loop (by rw [hcall]; nofun) nofun nofun (fun l hl => h.handling l ?_) h.passed id
      rw [hcall]
      exact hl
  | panics =>
    have hdist : disturbed (callStep s stopped .panics) = true := by
      rw [disturbed, Bool.or_eq_true]
      exact .inr rfl
    refine h.leave (.inr (.inl hdist)) fun hC hnormal hasked => ?_
    obtain ⟨-, hall | ⟨-, hcalm⟩⟩ := h.normal hC hnormal hasked
    · exact hall
    · exact (hc hC).1 hcalm (hrun ▸ hdist) hnormal

/-! ### Every step -/

theorem flow_step (hc : C → Clean total s a) : Flow C total (step s a) := by
  by_cases ha : a.aside = true
  · exact h.aside (aside_step ha) fun hC => (hc hC).1
  · cases a with
    | read r =>
      rw [step]
      split_ifs with hscan
      · exact flow_read h hscan r
      · exact h
    | scanner => exact flow_scanner h hc
    | quit =>
      rw [step]
      split
      · next data hscan =>
        have hleft : s.scanner.left = false := by rw [hscan]; rfl
        split_ifs
        · exact h.scanner hleft nofun
        · exact h
      · exact h
    | handler => exact flow_handler h
    | call c =>
      cases hhand : s.handler with
      | calling stopped =>
        have hflow := flow_call h hhand c hc
        rwa [step, hhand]
      | _ => rwa [step, hhand]
    | _ => exact absurd rfl ha

end

end WynthApi.Stream
