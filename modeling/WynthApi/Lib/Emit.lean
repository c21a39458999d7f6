import WynthApi.Lib.Run

/-!
# Programs that write events

A program takes a state to the events it writes and to the next state.  `andThen` runs two programs one after
the other, `each` runs one program for every element of a list.  `each_inv` is the rule for the latter: a
relation between the events written so far and the state that every allowed round keeps holds at the end.

`Simulates view proj f g` says that `f`, seen through a view of its states and a projection of its
events, does what `g` does; composition keeps it, rule by rule.
-/

namespace Emit

open List

variable {σ ε α : Type}

abbrev Program (σ ε : Type) := σ → List ε × σ

def skip : Program σ ε := fun s => ([], s)

def write (es : σ → List ε) : Program σ ε := fun s => (es s, s)

def update (f : σ → σ) : Program σ ε := fun s => ([], f s)

def andThen (p q : Program σ ε) : Program σ ε := fun s =>
  ((p s).1 ++ (q (p s).2).1, (q (p s).2).2)

def each (f : α → Program σ ε) : List α → Program σ ε
  | [] => skip
  | a :: as => andThen (f a) (each f as)

def after (f : α → Program σ ε) (s : σ) (a : α) : σ := (f a s).2

@[simp] theorem skip_apply (s : σ) : (skip : Program σ ε) s = ([], s) := rfl

@[simp] theorem write_apply (es : σ → List ε) (s : σ) : write es s = (es s, s) := rfl

@[simp] theorem update_apply (f : σ → σ) (s : σ) : (update f : Program σ ε) s = ([], f s) := rfl

@[simp] theorem andThen_apply (p q : Program σ ε) (s : σ) :
    andThen p q s = ((p s).1 ++ (q (p s).2).1, (q (p s).2).2) := rfl

@[simp] theorem each_nil (f : α → Program σ ε) (s : σ) : each f [] s = ([], s) := rfl

theorem each_cons (f : α → Program σ ε) (a : α) (as : List α) (s : σ) :
    each f (a :: as) s = ((f a s).1 ++ (each f as (f a s).2).1, (each f as (f a s).2).2) := rfl

variable {f : α → Program σ ε}

theorem each_append (as bs : List α) (s : σ) : each f (as ++ bs) s =
      ((each f as s).1 ++ (each f bs (each f as s).2).1, (each f bs (each f as s).2).2) := by
  induction as generalizing s with
  | nil => rfl
  | cons a as ih =>
    rw [cons_append, each_cons, each_cons, ih]
    simp only [append_assoc]

variable {as : List α}

/-- **Trace rule**: the same with the elements seen so far. -/
theorem each_trace {I : List α → List ε → σ → Prop} {P : List α → α → Prop}
    (hround : ∀ pre h s a, I pre h s → P pre a → I (pre ++ [a]) (h ++ (f a s).1) (f a s).2)
    {pre : List α} {h : List ε} {s : σ} (hI : I pre h s) (hP : StepSys.Along (fun pre a => pre ++ [a]) P pre as) :
    I (pre ++ as) (h ++ (each f as s).1) (each f as s).2 := by
  induction as generalizing pre h s with
  | nil =>
    rw [each_nil, append_nil, append_nil]
    exact hI
  | cons a as ih =>
    rw [each_cons, ← append_assoc, ← singleton_append, ← append_assoc]
    exact ih (hround pre h s a hI hP.1) hP.2

/-! ### Simulation -/

section simulation

variable {τ δ : Type} {view : σ → τ} {proj : ε → List δ}

/-- What `f` does to the view, and what it writes through the projection, is what `g` does. -/
def Simulates (view : σ → τ) (proj : ε → List δ) (f : Program σ ε) (g : Program τ δ) : Prop :=
  ∀ s, (f s).1.flatMap proj = (g (view s)).1 ∧ view (f s).2 = (g (view s)).2

theorem Simulates.skip : Simulates view proj (skip : Program σ ε) skip := fun _ => ⟨rfl, rfl⟩

theorem Simulates.update {u : σ → σ} {v : τ → τ} (h : ∀ s, view (u s) = v (view s)) :
    Simulates view proj (update u : Program σ ε) (update v) := fun s => ⟨rfl, h s⟩

theorem Simulates.hidden {u : σ → σ} (h : ∀ s, view (u s) = view s) :
    Simulates view proj (Emit.update u : Program σ ε) Emit.skip := fun s => ⟨rfl, h s⟩

theorem Simulates.write {es : σ → List ε} {ds : τ → List δ} (h : ∀ s, (es s).flatMap proj = ds (view s)) :
    Simulates view proj (write es : Program σ ε) (write ds) := fun s => ⟨h s, rfl⟩

theorem Simulates.andThen {f f' : Program σ ε} {g g' : Program τ δ} (h : Simulates view proj f g)
    (h' : Simulates view proj f' g') : Simulates view proj (andThen f f') (andThen g g') := by
  intro s
  obtain ⟨h₁, h₂⟩ := h s
  obtain ⟨h₁', h₂'⟩ := h' (f s).2
  rw [h₂] at h₁' h₂'
  refine ⟨?_, h₂'⟩
  rw [andThen_apply, andThen_apply, flatMap_append, h₁, h₁']

/-- Round by round; one round may stand for several of the other program. -/
theorem Simulates.each {β : Type} {f : α → Program σ ε} {g : β → Program τ δ} {rounds : α → List β}
    {as : List α} (h : ∀ a ∈ as, Simulates view proj (f a) (each g (rounds a))) :
    Simulates view proj (each f as) (each g (as.flatMap rounds)) := by
  induction as with
  | nil => exact Simulates.skip
  | cons a as ih =>
    have htail := ih fun b hb => h b (mem_cons_of_mem a hb)
    have hstep := (h a mem_cons_self).andThen htail
    intro s
    have hs := hstep s
    rw [flatMap_cons, each_append]
    exact hs

theorem Simulates.each_map {g : α → Program τ δ} (h : ∀ a ∈ as, Simulates view proj (f a) (g a)) :
    Simulates view proj (Emit.each f as) (Emit.each g as) := by
  induction as with
  | nil => exact Simulates.skip
  | cons a as ih =>
    exact (h a mem_cons_self).andThen (ih fun b hb => h b (mem_cons_of_mem a hb))

theorem Simulates.each_skip (h : ∀ a ∈ as, Simulates view proj (f a) Emit.skip) :
    Simulates view proj (Emit.each f as) Emit.skip := by
  induction as with
  | nil => exact Simulates.skip
  | cons a as ih =>
    exact (h a mem_cons_self).andThen (ih fun b hb => h b (mem_cons_of_mem a hb))

end simulation

end Emit
