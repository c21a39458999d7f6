import Mathlib.Tactic.SplitIfs

/-!
# Statements on tables, and transactions

`Tx σ ε α` is a sequence of statements on the tables `σ`: it ends with a result or with the error of the
statement that failed, and with the tables as its statements left them.  An error does not take back what was
written before it; `transaction` does.
-/

def Tx (σ ε α : Type) : Type := σ → Except ε α × σ

namespace Tx

variable {σ ε α β : Type}

instance : Monad (Tx σ ε) where
  pure a := fun s => (.ok a, s)
  bind x f := fun s =>
    match x s with
    | (.ok a, s') => f a s'
    | (.error e, s') => (.error e, s')

def run (x : Tx σ ε α) (s : σ) : Except ε α × σ := x s

def fail (e : ε) : Tx σ ε α := fun s => (.error e, s)

def read (f : σ → α) : Tx σ ε α := fun s => (.ok (f s), s)

/-- A statement that writes, or fails with `fault` and writes nothing. -/
def write (fault : Option ε) (f : σ → σ) : Tx σ ε Unit := fun s =>
  match fault with
  | some e => (.error e, s)
  | none => (.ok (), f s)

def ofExcept (r : Except ε α) : Tx σ ε α := fun s => (r, s)

/-- Run the statements and commit them; an error of theirs or of the commit takes them back. -/
def transaction (commit : Option ε) (x : Tx σ ε α) : Tx σ ε α := fun s =>
  match x s with
  | (.error e, _) => (.error e, s)
  | (.ok a, s') =>
    match commit with
    | some e => (.error e, s)
    | none => (.ok a, s')

def withError (e : ε) (x : Tx σ ε α) : Tx σ ε α := fun s =>
  match x s with
  | (.ok a, s') => (.ok a, s')
  | (.error _, s') => (.error e, s')

def mapError {ε' : Type} (f : ε → ε') (x : Tx σ ε α) : Tx σ ε' α := fun s =>
  match x s with
  | (.ok a, s') => (.ok a, s')
  | (.error e, s') => (.error (f e), s')

variable {s s' : σ} {e : ε} {a : α} {b : β} {x : Tx σ ε α} {f : α → Tx σ ε β}

@[simp] theorem run_pure (a : α) (s : σ) : (pure a : Tx σ ε α).run s = (.ok a, s) := rfl

@[simp] theorem run_fail (e : ε) (s : σ) : (fail e : Tx σ ε α).run s = (.error e, s) := rfl

@[simp] theorem run_read (f : σ → α) (s : σ) : (read f : Tx σ ε α).run s = (.ok (f s), s) := rfl

@[simp] theorem run_ofExcept (r : Except ε α) (s : σ) : (ofExcept r : Tx σ ε α).run s = (r, s) := rfl

theorem bind_eq_ok : (x >>= f).run s = (.ok b, s') ↔ ∃ a s₁, x.run s = (.ok a, s₁) ∧ (f a).run s₁ = (.ok b, s') := by
  show (match x s with
    | (.ok a, s') => f a s'
    | (.error e, s') => (.error e, s')) = (.ok b, s') ↔ ∃ a s₁, x s = (.ok a, s₁) ∧ f a s₁ = (.ok b, s')
  rcases x s with ⟨_ | a, s₁⟩
  · simp
  · constructor
    · exact fun h => ⟨a, s₁, rfl, h⟩
    · rintro ⟨a', s₂, h, hf⟩
      obtain ⟨ha, rfl⟩ := Prod.mk.inj h
      rw [Except.ok.inj ha]
      exact hf

@[simp] theorem withError_snd (e : ε) (x : Tx σ ε α) (s : σ) : ((x.withError e).run s).2 = (x.run s).2 := by
  show (match x s with
    | (.ok a, s') => (.ok a, s')
    | (.error _, s') => (.error e, s') : Except ε α × σ).2 = (x s).2
  rcases x s with ⟨_ | a, s₁⟩ <;> rfl

theorem run_transaction (commit : Option ε) (x : Tx σ ε α) (s : σ) : (transaction commit x).run s =
      match x.run s with
      | (.error e, _) => (.error e, s)
      | (.ok a, s') =>
        match commit with
        | some e => (.error e, s)
        | none => (.ok a, s') := rfl

theorem run_bind (s₁ : σ) (h : x.run s = (.ok a, s₁)) : (x >>= f).run s = (f a).run s₁ := by
  show (match x s with
    | (.ok a, s') => f a s'
    | (.error e, s') => (.error e, s')) = f a s₁
  rw [show x s = (.ok a, s₁) from h]

theorem bind_read (g : σ → α) (s : σ) : ((read g : Tx σ ε α) >>= f).run s = (f (g s)).run s := rfl

variable {g : σ → σ}

theorem write_eq_ok {fault : Option ε} {u : Unit} : (write fault g).run s = (.ok u, s') ↔ fault = none ∧ s' = g s := by
  cases fault with
  | some e => simp [run, write]
  | none => simp [run, write, eq_comm]

theorem ofExcept_eq_ok {r : Except ε α} : (ofExcept r : Tx σ ε α).run s = (.ok a, s') ↔ r = .ok a ∧ s' = s := by
  simp [eq_comm]

theorem mapError_eq_ok {ε' : Type} {g : ε → ε'} : (mapError g x).run s = (.ok a, s') ↔ x.run s = (.ok a, s') := by
  show (match x s with
    | (.ok a, s') => (.ok a, s')
    | (.error e, s') => (.error (g e), s') : Except ε' α × σ) = (.ok a, s') ↔ x s = (.ok a, s')
  rcases x s with ⟨_ | a₁, s₁⟩ <;> simp

theorem mapError_eq_error {ε' : Type} {g : ε → ε'} {e' : ε'} :
    (mapError g x).run s = (.error e', s') ↔ ∃ e, g e = e' ∧ x.run s = (.error e, s') := by
  show (match x s with
    | (.ok a, s') => (.ok a, s')
    | (.error e, s') => (.error (g e), s') : Except ε' α × σ) = (.error e', s') ↔
      ∃ e, g e = e' ∧ x s = (.error e, s')
  rcases x s with ⟨e₁ | a₁, s₁⟩
  · constructor
    · intro h
      obtain ⟨he, hs⟩ := Prod.mk.inj h
      exact ⟨e₁, Except.error.inj he, by rw [hs]⟩
    · rintro ⟨e, rfl, h⟩
      obtain ⟨he, rfl⟩ := Prod.mk.inj h
      rw [Except.error.inj he]
  · simp

variable {commit : Option ε}

theorem transaction_eq_ok : (transaction commit x).run s = (.ok a, s') ↔ commit = none ∧ x.run s = (.ok a, s') := by
  rw [run_transaction]
  rcases x.run s with ⟨_ | a₁, s₁⟩
  · simp
  · cases commit with
    | some | none => simp

/-- **Roll-back**: a transaction that failed changed nothing. -/
theorem transaction_error (h : (transaction commit x).run s = (.error e, s')) : s' = s := by
  rw [run_transaction] at h
  generalize x.run s = r at h
  rcases r with ⟨_ | a₁, s₁⟩
  · exact (Prod.mk.inj h).2.symm
  · cases commit with
    | some e' => exact (Prod.mk.inj h).2.symm
    | none => simp at h

/-! ### What a sequence does to the tables -/

def Moves (R : σ → σ → Prop) (x : Tx σ ε α) : Prop := ∀ ⦃s a s'⦄, x.run s = (.ok a, s') → R s s'

section Moves

variable {R : σ → σ → Prop}

theorem moves_fail (e : ε) : Moves R (fail e : Tx σ ε α) := by
  intro s a s' h
  simp at h

theorem moves_pure (hrefl : ∀ s, R s s) (a : α) : Moves R (pure a : Tx σ ε α) := by
  intro s a' s' h
  rw [← (Prod.mk.inj h).2]
  exact hrefl s

theorem moves_write (hg : ∀ s, R s (g s)) (fault : Option ε) : Moves R (write fault g) := by
  intro s a s' h
  rw [(write_eq_ok.mp h).2]
  exact hg s

theorem moves_bind (htrans : ∀ ⦃s₁ s₂ s₃⦄, R s₁ s₂ → R s₂ s₃ → R s₁ s₃) (hx : Moves R x)
    (hf : ∀ a, Moves R (f a)) : Moves R (x >>= f) := by
  intro s b s' h
  obtain ⟨a, s₁, hfirst, hrest⟩ := bind_eq_ok.mp h
  exact htrans (hx hfirst) (hf a hrest)

theorem moves_bind_read {g : σ → α} (hf : ∀ a, Moves R (f a)) : Moves R (read g >>= f) := by
  intro s b s' h
  exact hf (g s) h

theorem moves_mapError {ε' : Type} {g : ε → ε'} (hx : Moves R x) : Moves R (mapError g x) :=
  fun _ _ _ h => hx (mapError_eq_ok.mp h)

end Moves

/-! ### Failures that leave nothing -/

def Atomic (x : Tx σ ε α) : Prop := ∀ ⦃s e s'⦄, x.run s = (.error e, s') → s' = s

theorem Atomic.error (hx : Atomic x) (h : ∀ a s', x.run s ≠ (.ok a, s')) : ∃ e, x.run s = (.error e, s) := by
  rcases hrun : x.run s with ⟨e | a, s'⟩
  · exact ⟨e, by rw [hx hrun]⟩
  · exact absurd hrun (h a s')

theorem atomic_fail (e : ε) : Atomic (fail e : Tx σ ε α) := by
  intro s e' s' h
  exact (Prod.mk.inj h).2.symm

theorem atomic_write (fault : Option ε) (g : σ → σ) : Atomic (write fault g) := by
  intro s e s' h
  cases fault with
  | some e' => exact (Prod.mk.inj h).2.symm
  | none => simp [run, write] at h

theorem atomic_bind_read {g : σ → α} (hf : ∀ a, Atomic (f a)) : Atomic (read g >>= f) := by
  intro s e s' h
  exact hf (g s) h

theorem atomic_transaction (commit : Option ε) (x : Tx σ ε α) : Atomic (transaction commit x) :=
  fun _ _ _ h => transaction_error h

theorem atomic_mapError {ε' : Type} {g : ε → ε'} (hx : Atomic x) : Atomic (mapError g x) := by
  intro s e' s' h
  obtain ⟨e, -, hrun⟩ := mapError_eq_error.mp h
  exact hx hrun

theorem atomic_bind_pure (hx : Atomic x) (g : α → β) : Atomic (x >>= fun a => pure (g a)) := by
  intro s e s' h
  have hrun : (match x s with
    | (.ok a, s') => (.ok (g a), s')
    | (.error e, s') => (.error e, s') : Except ε β × σ) = (.error e, s') := h
  generalize hr : x s = r at hrun
  rcases r with ⟨e₁ | a, s₁⟩
  · obtain ⟨-, rfl⟩ := Prod.mk.inj hrun
    exact hx hr
  · cases (Prod.mk.inj hrun).1

end Tx
