import Mathlib.Algebra.Ring.Int.Defs
import Mathlib.Data.List.DropRight
import Mathlib.Data.List.Infix

/-!
# The parts of Go's `strings` package used here

Integers are unbounded here: where `atoi` is used, a value beyond the machine range is cut off later.
`isSpace` is `unicode.IsSpace`: the white space of Latin-1 and the code points of category Z.
-/

namespace GoText

open List String

def isSpace (c : Char) : Bool :=
  c.toNat ∈ [9, 10, 11, 12, 13, 32, 0x85, 0xa0, 0x1680, 0x2028, 0x2029, 0x202f, 0x205f, 0x3000] ||
    (0x2000 ≤ c.toNat && c.toNat ≤ 0x200a)

variable (s : String)

def trimSpace : String :=
  String.ofList ((s.toList.dropWhile isSpace).reverse.dropWhile isSpace).reverse

/-- The text between the outermost characters that are no space has no space at its ends. -/
theorem trimSpace_trimSpace : trimSpace (trimSpace s) = trimSpace s := by
  have hcore : ∀ l : List Char, (l.dropWhile isSpace).rdropWhile isSpace =
      (((l.dropWhile isSpace).rdropWhile isSpace).dropWhile isSpace).rdropWhile isSpace := by
    intro l
    have hhead : ((l.dropWhile isSpace).rdropWhile isSpace).dropWhile isSpace =
        (l.dropWhile isSpace).rdropWhile isSpace := by
      rw [dropWhile_eq_self_iff]
      intro hl
      have hpre := rdropWhile_prefix isSpace (l.dropWhile isSpace)
      have hl' : 0 < (l.dropWhile isSpace).length := lt_of_lt_of_le hl hpre.length_le
      have hself : (l.dropWhile isSpace).dropWhile isSpace = l.dropWhile isSpace :=
        dropWhile_idempotent isSpace l
      rw [hpre.getElem hl]
      exact (dropWhile_eq_self_iff.mp hself) hl'
    rw [hhead, rdropWhile_idempotent]
  unfold trimSpace
  simp only [toList_ofList]
  exact congrArg ofList (hcore s.toList).symm

def isBlank : Bool := s.toList.all isSpace

def contains (s sub : String) : Bool := s.toList.tails.any fun t => sub.toList.isPrefixOf t

def startsWith (s start : String) : Bool := start.toList.isPrefixOf s.toList

def endsWith (s stop : String) : Bool := stop.toList.isSuffixOf s.toList

/-- `s[n:]`, with the offset counted in characters. -/
def sliceFrom (n : ℕ) : String := String.ofList (s.toList.drop n)

@[simp] theorem sliceFrom_append (a b : String) : sliceFrom (a ++ b) a.length = b := by
  simp [sliceFrom, ← length_toList]

def digitsValue (digits : List Char) : Option Nat :=
  if digits.isEmpty || digits.any (fun c => !c.isDigit) then none
  else some (digits.foldl (fun n c => 10 * n + (c.toNat - '0'.toNat)) 0)

/-- `strconv.Atoi` with the error dropped: `0` for a text that is not a number. -/
def atoi : Int :=
  match s.toList with
  | '-' :: digits => ((digitsValue digits).map fun n => -(n : Int)).getD 0
  | '+' :: digits => ((digitsValue digits).map fun n => (n : Int)).getD 0
  | digits => ((digitsValue digits).map fun n => (n : Int)).getD 0

def parseInt64 : Option Int :=
  (match s.toList with
  | '-' :: digits => (digitsValue digits).map fun n => -(n : Int)
  | '+' :: digits => (digitsValue digits).map fun n => (n : Int)
  | digits => (digitsValue digits).map fun n => (n : Int)).filter fun n => -2 ^ 63 ≤ n ∧ n < 2 ^ 63

/-! ### Bytes in hexadecimal -/

def hexDigitValue (c : Char) : Option Nat :=
  if '0' ≤ c ∧ c ≤ '9' then some (c.toNat - '0'.toNat)
  else if 'a' ≤ c ∧ c ≤ 'f' then some (c.toNat - 'a'.toNat + 10)
  else if 'A' ≤ c ∧ c ≤ 'F' then some (c.toNat - 'A'.toNat + 10)
  else none

def hexDecode : List Char → Option (List UInt8)
  | [] => some []
  | [_] => none
  | high :: low :: rest => do
    let h ← hexDigitValue high
    let l ← hexDigitValue low
    let bytes ← hexDecode rest
    pure (UInt8.ofNat (16 * h + l) :: bytes)

/-- `hex.DecodeString`, which takes digits of both cases. -/
def hexDecodeString : Option (List UInt8) := hexDecode s.toList

/-- `hex.EncodeToString`, in lower case. -/
def hexEncodeToString (bytes : List UInt8) : String :=
  String.ofList (bytes.flatMap fun b => [Nat.digitChar (b.toNat / 16), Nat.digitChar (b.toNat % 16)])

def itoa : Int → String
  | .ofNat n => String.ofList (Nat.toDigits 10 n)
  | .negSucc n => String.ofList ('-' :: Nat.toDigits 10 (n + 1))

theorem digitsValue_toDigits (n : ℕ) : digitsValue (Nat.toDigits 10 n) = some n := by
  have hdigit : (Nat.toDigits 10 n).any (fun c => !c.isDigit) = false := by
    rw [any_eq_false]
    intro c hc
    simp [Nat.isDigit_of_mem_toDigits (by decide) (by decide) hc]
  have hne : (Nat.toDigits 10 n).isEmpty = false := by simp [Nat.toDigits_ne_nil]
  unfold digitsValue
  rw [hdigit, hne]
  have h := Nat.ofDigitChars_ten_toDigits (n := n)
  rw [Nat.ofDigitChars_eq_foldl] at h
  simpa using h

variable {c : Char}

theorem toDigits_head_ne {n : ℕ} {l : List Char} (hc : c.isDigit = false) : Nat.toDigits 10 n ≠ c :: l := by
  intro h
  have hmem : c ∈ Nat.toDigits 10 n := h ▸ mem_cons_self
  rw [Nat.isDigit_of_mem_toDigits (by decide) (by decide) hmem] at hc
  cases hc

variable (n : Int)

theorem atoi_itoa : atoi (itoa n) = n := by
  cases n with
  | ofNat n =>
    unfold atoi itoa
    rw [toList_ofList]
    split
    · exact absurd (by assumption) (toDigits_head_ne (by decide))
    · exact absurd (by assumption) (toDigits_head_ne (by decide))
    · rw [digitsValue_toDigits]
      rfl
  | negSucc n =>
    unfold atoi itoa
    rw [toList_ofList]
    simp only [digitsValue_toDigits]
    rfl

theorem isSpace_of_isDigit (h : c.isDigit = true) : isSpace c = false := by
  have hrange : 48 ≤ c.toNat ∧ c.toNat ≤ 57 := by
    simp only [Char.isDigit, Bool.and_eq_true, decide_eq_true_eq] at h
    exact ⟨UInt32.le_iff_toNat_le.mp h.1, UInt32.le_iff_toNat_le.mp h.2⟩
  unfold isSpace
  simp only [Bool.or_eq_false_iff, decide_eq_false_iff_not, mem_cons, not_mem_nil, or_false, Bool.and_eq_false_iff]
  omega

theorem trimSpace_of_no_space {s : String} (h : ∀ c ∈ s.toList, isSpace c = false) : trimSpace s = s := by
  have hdrop : ∀ {l : List Char}, (∀ c ∈ l, isSpace c = false) → l.dropWhile isSpace = l := by
    intro l hl
    cases l with
    | nil => rfl
    | cons c l => rw [dropWhile_cons, hl c mem_cons_self]; rfl
  unfold trimSpace
  rw [hdrop h, hdrop (fun c hc => h c (mem_reverse.mp hc)), reverse_reverse, ofList_toList]

theorem trimSpace_itoa : trimSpace (itoa n) = itoa n := by
  have hdigits : ∀ {k : ℕ} {c : Char}, c ∈ Nat.toDigits 10 k → isSpace c = false :=
    fun hc => isSpace_of_isDigit (Nat.isDigit_of_mem_toDigits (by decide) (by decide) hc)
  apply trimSpace_of_no_space
  intro c hc
  cases n with rw [itoa, toList_ofList] at hc
  | ofNat n => exact hdigits hc
  | negSucc n =>
    rcases mem_cons.mp hc with rfl | hc
    · decide
    · exact hdigits hc

/-- **No slack**: two texts in two parts, neither part longer than its counterpart, are equal only
part by part. -/
theorem append_inj_of_le {a b c d : String} (h : a ++ b = c ++ d) (ha : a.length ≤ c.length)
    (hb : b.length ≤ d.length) : a = c ∧ b = d := by
  have hlength := congrArg String.length h
  rw [String.length_append, String.length_append] at hlength
  have hlist := congrArg String.toList h
  rw [String.toList_append, String.toList_append] at hlist
  have heq : a.toList.length = c.toList.length := by
    rw [length_toList, length_toList]
    omega
  obtain ⟨h₁, h₂⟩ := append_inj hlist heq
  exact ⟨toList_inj.mp h₁, toList_inj.mp h₂⟩

/-! ### Texts put together -/

variable {α : Type} {l : List α} {f : α → String}

theorem join_map_empty (h : ∀ a ∈ l, f a = "") : join (l.map f) = "" := by
  induction l with
  | nil => rfl
  | cons a l ih =>
    rw [map_cons, join_cons, h a mem_cons_self, empty_append]
    exact ih fun c hc => h c (mem_cons_of_mem a hc)

theorem join_map_single {a : α} (hnodup : l.Nodup)
    (ha : a ∈ l) (hother : ∀ c ∈ l, c ≠ a → f c = "") : join (l.map f) = f a := by
  induction l with
  | nil => cases ha
  | cons c l ih =>
    rw [nodup_cons] at hnodup
    rw [map_cons, join_cons]
    by_cases hca : c = a
    · subst hca
      have hrest : join (l.map f) = "" := join_map_empty fun d hd =>
        hother d (mem_cons_of_mem _ hd) fun hdc => hnodup.1 (hdc ▸ hd)
      rw [hrest, append_empty]
    · rw [hother c mem_cons_self hca, empty_append]
      refine ih hnodup.2 ?_ fun d hd => hother d (mem_cons_of_mem _ hd)
      rcases mem_cons.mp ha with h | h
      · exact absurd h.symm hca
      · exact h

end GoText
