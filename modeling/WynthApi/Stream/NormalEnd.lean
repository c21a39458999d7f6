import WynthApi.Stream.Delivery
import WynthApi.Stream.Lines

/-!
# A stream that is reported as normal

When the function has returned nothing runs any more (`Over`), so the payloads passed by then are all that will be;
with the flow of the payloads this says what a normal end is worth.  The payloads are those that the lines hold
(`decoded`), unless a `[DONE]` without the data prefix comes first (`NoneBare`).
-/

namespace WynthApi.Stream

open StepSys List

variable {s : State}

/-- The function has returned `kind`: nothing runs any more. -/
structure Over (kind : StreamTerminationKind) (s : State) : Prop where
  main : s.main = .returned kind
  scanner : s.scanner = .leaving []
  handler : s.handler = .leaving []
  pinger : s.pinger = .leaving []
  kind : s.status.termination = kind

variable {kind : StreamTerminationKind}

theorem step_over (h : Over kind s) (a : Act) : step s a = s ∨ step s a = { s with clientGone := true } := by
  cases a with
  | clientLeaves => exact .inr rfl
  | _ =>
    left
    simp [step, scannerStep, handlerStep, pingerStep, mainStep, h.main, h.scanner, h.handler, h.pinger]

theorem over_step (h : Over kind s) (a : Act) : Over kind (step s a) ∧ (step s a).passed = s.passed := by
  rcases step_over h a with heq | heq <;> rw [heq]
  · exact ⟨h, rfl⟩
  · exact ⟨⟨h.main, h.scanner, h.handler, h.pinger, h.kind⟩, rfl⟩

theorem main_step {a : Act} (ha : a ≠ .main) : (step s a).main = s.main ∨ ∃ ops, (step s a).main = .leaving ops := by
  have hexec : ∀ op, (exec s op).main = s.main := fun op => by cases op <;> rfl
  cases a with
  | read r => cases r <;> grind [step, readStep]
  | scanner => grind [step, scannerStep, scannedStep, sendStep, checkErrStep, cases ScanEnd]
  | call c => cases c <;> grind [step, callStep]
  | ping r => cases r <;> grind [step, pingStep]
  | _ => grind [step, handlerStep, receiveStep, pingerStep]

theorem over_of_returned (h : ∀ kind, s.main = .returned kind → Over kind s) (a : Act)
    (kind : StreamTerminationKind) (hret : (step s a).main = .returned kind) : Over kind (step s a) := by
  by_cases hbefore : ∃ k, s.main = .returned k
  · obtain ⟨k, hk⟩ := hbefore
    have hover := (over_step (h k hk) a).1
    rw [hover.main] at hret
    cases hret
    exact hover
  by_cases ha : a = .main
  · subst ha
    cases hmain : s.main with
    | selecting => simp [step, mainStep, hmain] at hret
    | returned k => exact absurd ⟨k, hmain⟩ hbefore
    | leaving ops =>
      cases ops with
      | cons op ops => simp [step, mainStep, hmain] at hret
      | nil =>
        simp only [step, mainStep, hmain] at hret ⊢
        split_ifs at hret ⊢ with hdone
        · cases hret
          exact ⟨rfl, hdone.1, hdone.2.1, hdone.2.2, rfl⟩
        · rw [hmain] at hret
          cases hret
  · rcases main_step ha with hsame | ⟨ops, hleaving⟩
    · exact absurd ⟨kind, hsame.symm.trans hret⟩ hbefore
    · cases hleaving.symm.trans hret

theorem normalEnd_of_termination {status : StreamStatus} (h : status.termination = .normal) :
    status.normalEnd = true := by
  rw [StreamStatus.termination] at h
  rw [StreamStatus.normalEnd]
  split at h <;> simp_all

variable {lines : List String} {pingEnabled : Bool} {acts : List Act}

theorem over_run (hret : (run step (initial lines pingEnabled) acts).main = .returned kind) :
    Over kind (run step (initial lines pingEnabled) acts) :=
  run_inv (I := fun s => ∀ kind, s.main = .returned kind → Over kind s) (fun _ a h _ => over_of_returned h a)
    (fun _ hret => by cases hret) (along_of_forall (fun (_ : Act) _ => trivial) _) kind hret

theorem passed_of_normalEnd (hclean : Along step (Clean (payloads lines)) (initial lines pingEnabled) acts)
    (hret : (run step (initial lines pingEnabled) acts).main = .returned kind)
    (hend : (run step (initial lines pingEnabled) acts).status.normalEnd = true)
    (hasked : (run step (initial lines pingEnabled) acts).askedToStop = false) :
    (run step (initial lines pingEnabled) acts).passed = payloads lines := by
  have hended := run_inv (I := Flow True (payloads lines)) (fun _ _ h hc => flow_step h fun _ => hc)
    (flow_initial lines pingEnabled) hclean
  obtain ⟨-, hall | ⟨hlive, -⟩⟩ := hended.normal trivial hend hasked
  · exact hall
  · exact absurd (by rw [(over_run hret).handler]; rfl) hlive

/-- **A stream that ends normally** was passed to the callback as a whole, in every run whose steps are `Clean`; in
every run at all the payloads are passed in order, and none after the return. -/
theorem stream_end_sound (lines : List String) (pingEnabled : Bool) (acts : List Act) :
    (NoneBare lines → (run step (initial lines pingEnabled) acts).passed <+: decoded lines) ∧
    (∀ kind more, (run step (initial lines pingEnabled) acts).main = .returned kind →
      (run step (initial lines pingEnabled) (acts ++ more)).passed =
        (run step (initial lines pingEnabled) acts).passed) ∧
    (NoneBare lines → Along step (Clean (decoded lines)) (initial lines pingEnabled) acts →
      (run step (initial lines pingEnabled) acts).main = .returned .normal →
      (run step (initial lines pingEnabled) acts).askedToStop = false →
      (run step (initial lines pingEnabled) acts).passed = decoded lines) := by
  have hflow : Flow False (payloads lines) (run step (initial lines pingEnabled) acts) :=
    run_inv (I := Flow False (payloads lines)) (fun _ _ h _ => flow_step h False.elim)
      (flow_initial lines pingEnabled) (along_of_forall (fun (_ : Act) _ => trivial) _)
  rw [← payloads_eq_decoded_iff]
  refine ⟨fun heq => heq ▸ hflow.passed.trans hflow.sent, fun kind more hret => ?_, fun heq hclean hret hasked => ?_⟩
  · rw [run_append]
    have hstays : Over kind (run step _ more) ∧ (run step _ more).passed = _ :=
      run_inv (I := fun s => Over kind s ∧ s.passed = (run step (initial lines pingEnabled) acts).passed)
        (fun _ a h _ => ⟨(over_step h.1 a).1, (over_step h.1 a).2.trans h.2⟩) ⟨over_run hret, rfl⟩
        (along_of_forall (fun (_ : Act) _ => trivial) _)
    exact hstays.2
  · rw [← heq] at hclean ⊢
    exact passed_of_normalEnd hclean hret (normalEnd_of_termination (over_run hret).kind) hasked

/-- The goroutines take turns until a payload and the terminator after it are handled. -/
def inTurn : List Act :=
  [.read .line, .scanner, .scanner, .read .line, .scanner, .scanner] ++ replicate 4 .handler ++
    .call .returns :: replicate 3 .scanner ++ replicate 3 .handler ++ .sawStop :: replicate 3 .main

theorem stream_end_sound_one :
    (run step (initial ["data: a", "data: [DONE]"] false) inTurn).passed = decoded ["data: a", "data: [DONE]"] :=
  (stream_end_sound _ _ _).2.2 (by decide) (by decide +kernel) (by decide +kernel) (by decide +kernel)

/-- A stream of the one line `[DONE]`, read to its end. -/
def bareEnd : State :=
  run step (initial ["[DONE]"] false)
    ([.read .line, .scanner, .scanner, .read .eof] ++ replicate 4 .scanner ++ replicate 4 .handler ++
      .call .returns :: replicate 3 .scanner ++ replicate 3 .handler ++ .sawStop :: replicate 3 .main)

/-- The scanner has put the one payload into the channel and reported the end; then the client leaves, and the data
handler drops it.  And the bracket of a terminator that stands alone is passed, though the line holds no payload. -/
theorem normal_end_drops_payload :
    let s := run step (initial ["data: a", "data: [DONE]"] false)
      ([.read .line, .scanner, .scanner, .read .line, .scanner, .scanner, .clientLeaves, .handler, .handler] ++
        replicate 3 .scanner ++ replicate 2 .handler ++ .sawStop :: replicate 3 .main)
    (s.main = .returned .normal ∧ s.askedToStop = false ∧ s.passed = [] ∧
      decoded ["data: a", "data: [DONE]"] = ["a"]) ∧ ¬ bareEnd.passed <+: decoded ["[DONE]"] := by
  decide +kernel

/-- **Lines are decoded exactly** in a stream read to its end just if no line before the first terminator with the data
prefix begins with `[DONE]` itself. -/
theorem lines_decoded (hclean : Along step (Clean (payloads lines)) (initial lines pingEnabled) acts)
    (hret : (run step (initial lines pingEnabled) acts).main = .returned kind)
    (hend : (run step (initial lines pingEnabled) acts).status.normalEnd = true)
    (hasked : (run step (initial lines pingEnabled) acts).askedToStop = false) :
    (run step (initial lines pingEnabled) acts).passed = decoded lines ↔ NoneBare lines := by
  rw [passed_of_normalEnd hclean hret hend hasked, payloads_eq_decoded_iff]

theorem lines_decoded_one :
    (run step (initial ["data: a", "data: [DONE]"] false) inTurn).passed = decoded ["data: a", "data: [DONE]"] ↔
      NoneBare ["data: a", "data: [DONE]"] :=
  @lines_decoded .normal _ _ _ (by decide +kernel) (by decide +kernel) (by decide +kernel) (by decide +kernel)

/-- The callback gets the bracket of a terminator that stands alone. -/
theorem bare_terminator_passed : bareEnd.main = .returned .normal ∧ bareEnd.askedToStop = false ∧
    bareEnd.passed = ["]"] ∧ decoded ["[DONE]"] = [] := by
  decide +kernel

end WynthApi.Stream
