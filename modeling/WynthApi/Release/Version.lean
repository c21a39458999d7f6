import Mathlib.Data.Char
import Mathlib.Data.List.Lex
import Mathlib.Data.Nat.Digits.Defs
import Mathlib.Data.Prod.Lex
import Mathlib.Data.Sum.Order
import WynthApi.Lib.GoText

/-!
# The order of release tags (.github/releasequeue/reconcile_latest.py)

The latest release is the one with the greatest key.  Keys are Python tuples, and comparing a number with a text
raises an error; the items of a pre-release are tagged so that none meets the other.
-/

namespace WynthApi.Release

open List

section Tuples

variable {α β γ δ : Type} [DecidableEq α]

def scalarLt [LinearOrder γ] (a b : γ) : Except String Bool := .ok (a < b)

variable [LinearOrder γ] [LinearOrder δ]

/-- On the values with `S`, a comparison raises nothing and is that of the values of `f`. -/
structure Orders (lt : β → β → Except String Bool) (f : β → γ) (S : β → Prop) : Prop where
  lt_eq : ∀ x y, S x → S y → lt x y = .ok (decide (f x < f y))
  inj : ∀ x y, S x → S y → f x = f y → x = y

variable {lt : α → α → Except String Bool} {f : α → γ} {S : α → Prop}

end Tuples

/-! ### Keys -/

inductive Value where
  | int (n : ℕ)
  | str (s : List Char)
  deriving DecidableEq

def Value.lt : Value → Value → Except String Bool
  | .int m, .int n => scalarLt m n
  | .str s, .str t => scalarLt s t
  | _, _ => .error "TypeError"

abbrev Key := ℕ × ℕ × ℕ × Bool × List (ℕ × Value)

set_option synthInstance.maxSize 1024 in
instance : DecidableEq Key := inferInstance

def int (digits : List Char) : ℕ := (GoText.digitsValue digits).getD 0

abbrev Precedence := ℕ ×ₗ ℕ ×ₗ ℕ ×ₗ Bool ×ₗ List (ℕ ⊕ₗ List Char)

def Value.rank : Value → ℕ ⊕ₗ List Char
  | .int n => toLex (.inl n)
  | .str s => toLex (.inr s)

def rank (k : Key) : Precedence :=
  toLex (k.1, toLex (k.2.1, toLex (k.2.2.1, toLex (k.2.2.2.1, k.2.2.2.2.map fun x => x.2.rank))))

/-- The tag of an item says which kind its value is of. -/
def Tagged : ℕ × Value → Prop
  | (tag, .int _) => tag = 0
  | (tag, .str _) => tag = 1

def Proper (k : Key) : Prop := True ∧ True ∧ True ∧ True ∧ ∀ x ∈ k.2.2.2.2, Tagged x

end WynthApi.Release
