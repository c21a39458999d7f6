import WynthApi.Polling.System

/-!
# Terminal states and who may bill

Video pollers and sweepers that each work once from their own read bill at most once between them, and the one who
bills is the one whose guarded update made the row terminal (`listed_twice_bills_twice` is a copy worked on twice). 
A terminal status stays, as long as nobody works from a
copy that is itself terminal and no bulk update hits a finished row.
-/

namespace WynthApi.Polling

open Store StepSys

/-! ### One biller -/

/-- The handlers in question: video pollers and sweepers, each working once from its own read. -/
def OwnRead (s : Sys) : Action → Prop
  | .read _ role _ => role ≠ .user
  | .work h (.video _ _) _ => s.handlerAll h fun hd => hd.phase == .ready
  | .work h (.sweep _ _) _ => s.handlerAll h fun hd => hd.phase == .ready
  | .work _ (.suno _) _ => False
  | .work _ (.realtime _) _ => False
  | .bulkFail _ _ => False
  | .money _ _ _ _ => True
  | .write _ _ => True
  | .finish _ => True
  | .others _ => True

instance (s : Sys) : (a : Action) → Decidable (OwnRead s a)
  | .read _ role _ => inferInstanceAs (Decidable (role ≠ .user))
  | .work _ (.video _ _) _ | .work _ (.sweep _ _) _ => inferInstanceAs (Decidable (s.handlerAll _ _))
  | .work _ (.suno _) _ | .work _ (.realtime _) _ | .bulkFail _ _ => isFalse id
  | .money _ _ _ _ | .write _ _ | .finish _ | .others _ => isTrue trivial

/-- Nobody has billed before the row is terminal, and then at most the mover has. -/
structure OneBiller (s : Sys) : Prop where
  ready : ∀ h hd, s.handlers h = some hd → hd.phase = .ready → ¬ hd.copy.status.IsTerminal
  tally : (¬ s.row.status.IsTerminal ∧ s.invoked = [] ∧ s.movers = []) ∨
    (s.row.status.IsTerminal ∧ (s.invoked = [] ∨ ∃ h, s.invoked = [h] ∧ s.movers = [h]))

theorem readable_unfinished {row : Task} {cutoff : Int} {role : Role}
    (h : Readable row cutoff role) (hrole : role ≠ .user) : row.Unfinished := by
  cases role with
  | poller => exact h
  | sweeper => exact h.1
  | user => exact absurd rfl hrole

variable {env : Env} {s : Sys} {h : ℕ} {hd : Handler} {w : Work} {fault : Fault}

/-- The work step: a ready handler's copy is not terminal, so what it bills is what it moved. -/
theorem oneBiller_apply
    {o : Outcome} (hinv : OneBiller s) (hh : s.handlers h = some hd) (hready : hd.phase = .ready)
    (hw : w.Bills) (ho : work env s.row hd fault w = some o) : OneBiller (s.apply h hd o) := by
  have hcopy := hinv.ready h hd hh hready
  have hg := work_guarded ho
  have hx := work_exclusive hcopy hw ho
  refine ⟨fun k hd' hk hp => ?_, ?_⟩
  · rcases Cas.lookup_update hk with ⟨-, hv⟩ | ⟨-, hk⟩
    · obtain rfl := Option.some.inj hv
      cases hb : o.bill <;> simp [hb, phaseOf] at hp
    · exact hinv.ready k hd' hk hp
  cases hwon : o.won with
  | false =>
    have hbill := hx.lost hwon
    have hrow := hg.lost hwon
    simpa [Sys.apply, hwon, hbill, hrow] using hinv.tally
  | true =>
    obtain ⟨hst, hrow⟩ := hg.won hwon
    have hlive : ¬ s.row.status.IsTerminal := hst ▸ hcopy
    obtain ⟨-, hinv₀, hmov₀⟩ | ⟨hterm, -⟩ := hinv.tally
    swap
    · exact absurd hterm hlive
    by_cases hdone : o.copy.status.IsTerminal
    · refine .inr ⟨by simpa [Sys.apply, hrow] using hdone, ?_⟩
      cases hb : o.bill with
      | none => exact .inl (by simp [Sys.apply, hb, hinv₀])
      | some b =>
        refine .inr ⟨h, by simp [Sys.apply, hb, hinv₀], ?_⟩
        simp [Sys.apply, hwon, hlive, hrow, hdone, hmov₀]
    · have hbill : o.bill = none := by
        cases hb : o.bill with
        | none => rfl
        | some b =>
          cases b with
          | refund => exact absurd (.inl (hx.refund hb)) hdone
          | settle info => exact absurd (.inr (hx.settle info hb)) hdone
      exact .inl ⟨by simpa [Sys.apply, hrow] using hdone, by simp [Sys.apply, hbill, hinv₀],
        by simp [Sys.apply, hrow, hdone, hmov₀]⟩

theorem OneBiller.setHandler {v : Option Handler} (hinv : OneBiller s)
    (hv : ∀ hd, v = some hd → hd.phase = .ready → ¬ hd.copy.status.IsTerminal) : OneBiller (s.setHandler h v) := by
  refine ⟨fun k hd hk hp => ?_, hinv.tally⟩
  rcases Cas.lookup_update hk with ⟨-, hv'⟩ | ⟨-, hk⟩
  · exact hv hd hv' hp
  · exact hinv.ready k hd hk hp

variable {s' : Sys} {a : Action}

theorem oneBiller_stepped (hinv : OneBiller s) (hown : OwnRead s a) (h : Stepped env s a s') : OneBiller s' := by
  cases h with
  | idle => exact hinv
  | read hfree hread =>
    refine hinv.setHandler fun hd hv _ => ?_
    obtain rfl := Option.some.inj hv
    exact (readable_unfinished hread hown).2
  | work hh ho =>
    rename_i h hd w fault o
    cases w with
    | video answer now =>
      have hw : (Work.video answer now).Bills := trivial
      exact oneBiller_apply hinv hh (beq_iff_eq.mp (hown.of_eq hh)) hw ho
    | sweep now reason =>
      have hw : (Work.sweep now reason).Bills := trivial
      exact oneBiller_apply hinv hh (beq_iff_eq.mp (hown.of_eq hh)) hw ho
    | suno | realtime => exact absurd hown id
  | bulk hh hb => exact absurd hown id
  | refused | unwritten =>
    refine hinv.setHandler fun hd hv hp => ?_
    obtain rfl := Option.some.inj hv
    cases hp
  | paid | written =>
    refine OneBiller.setHandler ⟨hinv.ready, hinv.tally⟩ fun hd hv hp => ?_
    obtain rfl := Option.some.inj hv
    cases hp
  | finish hh hp => exact hinv.setHandler fun hd hv => by cases hv
  | others db => exact ⟨hinv.ready, hinv.tally⟩

/-- **Exclusive billing**: in every interleaving of video pollers and sweepers, the billing functions
are called at most once, and only by the handler whose guarded update made the row terminal. -/
theorem billed_by_mover {env : Env} {row : Task} {db : DB} {as : List Action}
    (hown : Along (step env) OwnRead (Sys.start row db) as) :
    let s := run (step env) (Sys.start row db) as
    s.invoked.length ≤ 1 ∧ ∀ h ∈ s.invoked, s.movers = [h] := by
  intro s
  have hstart : OneBiller (Sys.start row db) := by
    refine ⟨fun h hd hh => by simp [Sys.start] at hh, ?_⟩
    by_cases ht : row.status.IsTerminal
    · exact .inr ⟨ht, .inl rfl⟩
    · exact .inl ⟨ht, rfl, rfl⟩
  have hinv : OneBiller s :=
    run_inv (fun t a hi ha => oneBiller_stepped hi ha (stepped env t a)) hstart hown
  obtain ⟨-, hi, -⟩ | ⟨-, hi | ⟨h, hi, hm⟩⟩ := hinv.tally
  · simp [hi]
  · simp [hi]
  · rw [hi, hm]
    refine ⟨le_rfl, fun k hk => ?_⟩
    rw [List.mem_singleton.mp hk]

/-- Two pollers with opposite answers and a sweeper: the first poller refunds, the others lose. -/
theorem billed_by_mover_contended :
    let s := run (step exampleEnv) (Sys.start exampleTask exampleDB)
      [.read 0 .poller 0, .read 1 .poller 0, .read 2 .sweeper 1790000000,
        .work 0 (.video (reports "FAILURE") 5) none, .work 1 (.video (reports "SUCCESS") 6) none,
        .work 2 (.sweep 7 "timeout") none, .money 0 0 none ⟨false, none⟩, .write 0 none]
    s.invoked = [0] ∧ s.invoked.length ≤ 1 ∧ ∀ h ∈ s.invoked, s.movers = [h] :=
  ⟨by decide, billed_by_mover (by decide)⟩

/-- A pass that lists an upstream id twice works twice on one copy, and the second time it bills without a guard. -/
theorem listed_twice_bills_twice :
    (run (step exampleEnv) (Sys.start exampleTask exampleDB)
      [.read 0 .poller 0, .work 0 (.video (reports "SUCCESS") 5) none, .money 0 0 none ⟨false, none⟩,
        .work 0 (.video (reports "SUCCESS") 6) none]).invoked = [0, 0] := by
  decide

/-! ### Terminal states are absorbing -/

/-- The acting handler's copy is not terminal, and no bulk update hits a row that is `SUCCESS`. -/
def FromLive (s : Sys) : Action → Prop
  | .work h _ _ => s.handlerAll h fun hd => !decide hd.copy.status.IsTerminal
  | .bulkFail _ _ => s.row.status ≠ .success
  | _ => True

theorem FromLive.copy
    (hlive : FromLive s (.work h w fault)) (hh : s.handlers h = some hd) : ¬ hd.copy.status.IsTerminal := by
  have hall : s.handlerAll h fun hd => !decide hd.copy.status.IsTerminal := hlive
  simpa using hall.of_eq hh

theorem stepped_status (hterm : s.row.status.IsTerminal)
    (hlive : FromLive s a) (h : Stepped env s a s') : s'.row.status = s.row.status := by
  cases h with
  | idle | read | refused | paid | written | unwritten | finish | others => rfl
  | work hh ho =>
    rename_i h hd w fault o
    have hg := work_guarded ho
    change o.row.status = s.row.status
    cases hwon : o.won with
    | false => rw [hg.lost hwon]
    | true => exact absurd ((hg.won hwon).1 ▸ hterm) (hlive.copy hh)
  | bulk hh hb =>
    rcases hterm with hf | hs
    · exact hf.symm
    · exact absurd hs hlive

/-- **Absorbing**: from a terminal row, every run whose steps act on live copies keeps the status. -/
theorem terminal_absorbing {env : Env} {s : Sys} {as : List Action}
    (hterm : s.row.status.IsTerminal) (hlive : Along (step env) FromLive s as) :
    (run (step env) s as).row.status = s.row.status := by
  refine run_inv (I := fun t => t.row.status = s.row.status) (fun t a ht ha => ?_) rfl hlive
  have hterm' : t.row.status.IsTerminal := ht ▸ hterm
  exact (stepped_status hterm' ha (stepped env t a)).trans ht

instance (s : Sys) : (a : Action) → Decidable (FromLive s a)
  | .work _ _ _ => inferInstanceAs (Decidable (s.handlerAll _ _))
  | .bulkFail _ _ => inferInstanceAs (Decidable (s.row.status ≠ .success))
  | .read _ _ _ | .money _ _ _ _ | .write _ _ | .finish _ | .others _ => isTrue trivial

def exampleFailed : Sys :=
  run (step exampleEnv) (Sys.start exampleTask exampleDB)
    [.read 0 .poller 0, .read 1 .poller 0, .work 0 (.video (reports "FAILURE") 5) none]

/-- The other poller reports success too late, and the refund goes on. -/
theorem terminal_absorbing_late_success : exampleFailed.row.status = .failure ∧
      (run (step exampleEnv) exampleFailed [.work 1 (.video (reports "SUCCESS") 6) none,
        .money 0 0 none ⟨false, none⟩, .write 0 none, .finish 0, .read 0 .user 0]).row.status =
          exampleFailed.row.status :=
  ⟨by decide, terminal_absorbing (by decide) (by decide)⟩

def exampleSucceeded : Sys :=
  run (step exampleEnv) (Sys.start exampleTask exampleDB)
    [.read 0 .poller 0, .read 1 .poller 0, .work 0 (.video (reports "SUCCESS") 5) none,
      .read 2 .user 0]

/-- The user's fetch writes the upstream's later answer over `SUCCESS`, and so does the bulk update of
a poller that does not find the channel. -/
theorem success_overwritten : exampleSucceeded.row.status = .success ∧ (step exampleEnv exampleSucceeded
        (.work 2 (.realtime (some ⟨"FAILURE", "expired", "", "", 0⟩)) none)).row.status = .failure ∧
      (step exampleEnv exampleSucceeded
        (.bulkFail 1 (some "Failed to get channel info, channel ID: 3"))).row.status = .failure := by
  decide

end WynthApi.Polling
