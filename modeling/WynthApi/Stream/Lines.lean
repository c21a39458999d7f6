import WynthApi.Stream.Scanner

/-!
# The payloads of an event stream

`decoded` says what a stream of lines holds, without the scanner's cuts.  The scanner cuts off five
characters of every line it takes, also of a `[DONE]` that stands alone, and so hands on its bracket.  Its payloads are
the decoded ones exactly if no such line comes before the first terminator with the data prefix.
-/

namespace WynthApi.Stream

open List GoText

def dataOf (line : String) : Option String :=
  if GoText.startsWith line "data:" then some (GoText.trimSpace (GoText.sliceFrom line 5)) else none

def isDataTerminator (line : String) : Bool := (dataOf line).any (GoText.startsWith · "[DONE]")

/-- A line that starts with `[DONE]`, itself or after the data prefix and blanks. -/
def isTerminator (line : String) : Bool := GoText.startsWith line "[DONE]" || isDataTerminator line

def decoded (lines : List String) : List String :=
  ((lines.takeWhile (!isTerminator ·)).filterMap dataOf).filter (· ≠ "")

/-- Before the first terminator with the data prefix, no line starts with `[DONE]` itself. -/
def NoneBare (lines : List String) : Prop :=
  ∀ line ∈ lines.takeWhile (!isDataTerminator ·), GoText.startsWith line "[DONE]" = false
  deriving Decidable

theorem dataOf_short {line data : String} (hshort : line.utf8ByteSize < 6) (hdata : dataOf line = some data) :
    data = "" := by
  unfold dataOf at hdata
  split_ifs at hdata with hstart
  obtain ⟨rest, hrest⟩ := isPrefixOf_iff_prefix.mp hstart
  have hline : line = "data:" ++ String.ofList rest := String.toList_inj.mp (by simpa using hrest.symm)
  rw [hline, String.utf8ByteSize_append] at hshort
  have hempty : String.ofList rest = "" := String.utf8ByteSize_eq_zero_iff.mp (by
    have hprefix : "data:".utf8ByteSize = 5 := by decide
    omega)
  rw [hline, hempty] at hdata
  exact (Option.some.inj hdata).symm

/-- A line that does not begin with `[DONE]` itself is classified by its data. -/
theorem classify_eq {line : String} (hbare : startsWith line "[DONE]" = false) : classify line = match dataOf line with
      | none => .skip
      | some data =>
        if data = "" then .skip else if startsWith data "[DONE]" then .terminator else .payload data := by
  by_cases hshort : line.utf8ByteSize < 6
  · rw [classify, if_pos hshort]
    cases hdata : dataOf line with
    | none => rfl
    | some data => exact (if_pos (dataOf_short hshort hdata)).symm
  · rw [classify, if_neg hshort, dataOf]
    by_cases hstart : startsWith line "data:" = true
    · rw [if_neg fun h => h.1 hstart, if_pos hstart]
    · rw [if_pos ⟨hstart, by rw [hbare]; decide⟩, if_neg hstart]

/-- Of a line that begins with `[DONE]` itself, the bracket is a payload. -/
theorem classify_bare {line : String} (hbare : startsWith line "[DONE]" = true) :
    dataOf line = none ∧ ∃ data, classify line = .payload data := by
  obtain ⟨rest, hrest⟩ := isPrefixOf_iff_prefix.mp hbare
  have hline : line = "[DONE]" ++ String.ofList rest := String.toList_inj.mp (by simpa using hrest.symm)
  have hstart : startsWith line "data:" = false := by
    rw [hline]
    simp [startsWith, isPrefixOf]
  obtain ⟨more, hdata⟩ : ∃ more, trimSpace (sliceFrom line 5) = String.ofList (']' :: more) := by
    have hkept : dropWhile isSpace [']'] = [']'] := by decide
    have hhead : dropWhile isSpace (']' :: rest) = ']' :: rest := dropWhile_cons_of_neg (by decide)
    refine ⟨(rest.reverse.dropWhile isSpace).reverse, ?_⟩
    simp only [hline, trimSpace, sliceFrom, String.toList_append, String.toList_ofList]
    rw [show drop 5 ("[DONE]".toList ++ rest) = ']' :: rest from rfl, hhead, reverse_cons, dropWhile_append, hkept]
    split_ifs with hnone
    · rw [isEmpty_iff.mp hnone]
      rfl
    · rw [reverse_append]
      rfl
  have hlong : ¬ line.utf8ByteSize < 6 := by
    have hsize : "[DONE]".utf8ByteSize = 6 := by decide
    rw [hline, String.utf8ByteSize_append]
    omega
  refine ⟨if_neg (by rw [hstart]; decide), trimSpace (sliceFrom line 5), ?_⟩
  rw [classify, if_neg hlong, if_neg fun h => h.2 hbare, hdata]
  simp [startsWith]

/-- **The scanner's payloads** are those that the lines hold exactly if no bare terminator comes first. -/
theorem payloads_eq_decoded_iff (lines : List String) : payloads lines = decoded lines ↔ NoneBare lines := by
  induction lines with
  | nil => exact iff_of_true rfl (by simp [NoneBare])
  | cons line lines ih =>
    unfold decoded NoneBare at ih ⊢
    rw [payloads, takeWhile_cons, takeWhile_cons, isTerminator, isDataTerminator]
    cases hbare : startsWith line "[DONE]" with
    | true =>
      obtain ⟨hdata, data, hclass⟩ := classify_bare hbare
      simp [hdata, hclass, hbare]
    | false =>
      rw [classify_eq hbare]
      cases hdata : dataOf line with
      | none => simpa [hdata, hbare] using ih
      | some data =>
        by_cases hempty : data = ""
        · have hnone : startsWith "" "[DONE]" = false := by decide
          simpa [hempty, hdata, hnone, hbare] using ih
        · by_cases hdone : startsWith data "[DONE]" = true
          · simp [hempty, hdone]
          · simpa [hempty, hdone, hdata, hbare] using ih

end WynthApi.Stream
