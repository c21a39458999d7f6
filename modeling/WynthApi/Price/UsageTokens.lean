import Mathlib.Algebra.Order.Ring.Int
import Mathlib.Tactic.SplitIfs

/-!
# One usage in two accounting conventions

An OpenAI usage counts the tokens of the cache in `prompt_tokens`, a Claude usage apart from `input_tokens`.
`BuildTieredTokenParams` (service/tiered_settle.go), whose floats are whole numbers below 2^53, takes the cache out of an OpenAI
prompt only for the variables that the expression uses (`tiered_independent_iff`).  The conversions of relayconvert,
here without a billing usage, do it only for OpenAI's own cache-write count (`usage_conserved_iff`).
-/

namespace WynthApi.Price

structure InputTokenDetails where
  (cachedTokens cachedCreationTokens cacheWriteTokens audioTokens imageTokens : Int)

structure OutputTokenDetails where
  (audioTokens imageTokens : Int)

structure Usage where
  (promptTokens completionTokens : Int)
  promptTokensDetails : InputTokenDetails
  completionTokenDetails : OutputTokenDetails
  (claudeCacheCreation5mTokens claudeCacheCreation1hTokens : Int)
  usageSemantic : String

def InputTokenDetails.cacheCreationTokensTotal (d : InputTokenDetails) : Int :=
  max (max d.cachedCreationTokens d.cacheWriteTokens) 0

structure TokenParams where
  (p c len cr cc cc1h img imgO ai ao : Int)

def buildTieredTokenParams (usage : Usage) (isClaudeUsageSemantic : Bool) (usedVars : String → Bool) :
    TokenParams :=
  let d := usage.promptTokensDetails
  let o := usage.completionTokenDetails
  let cr := max d.cachedTokens 0
  let created := max d.cacheCreationTokensTotal 0
  let anthropic := usage.usageSemantic = "anthropic"
  let cc1h := if anthropic then max usage.claudeCacheCreation1hTokens 0 else 0
  let cacheCreationTotal :=
    if anthropic then max created (max usage.claudeCacheCreation5mTokens 0 + cc1h) else created
  let cc := if anthropic then cacheCreationTotal - cc1h else created
  -- what a variable of the expression prices apart from the prompt or the completion
  let apart (name : String) (tokens : Int) : Int :=
    if !isClaudeUsageSemantic && usedVars name then tokens else 0
  { p := max (usage.promptTokens - apart "cr" cr - apart "cc" cc - apart "cc1h" cc1h -
      apart "img" d.imageTokens - apart "ai" d.audioTokens) 0
    c := max (usage.completionTokens - apart "img_o" o.imageTokens - apart "ao" o.audioTokens) 0
    len := if isClaudeUsageSemantic then usage.promptTokens + cr + cacheCreationTotal else usage.promptTokens
    cr, cc, cc1h
    img := d.imageTokens, imgO := o.imageTokens, ai := d.audioTokens, ao := o.audioTokens }

section forms

variable (plain read write output : ℕ)

/-- OpenAI's report of the tokens; the cache writes stand in the `native` field or in the older one. -/
def openAIForm (native : Bool) : Usage :=
  { promptTokens := plain + read + write
    completionTokens := output
    promptTokensDetails := ⟨read, if native then 0 else write, if native then write else 0, 0, 0⟩
    completionTokenDetails := ⟨0, 0⟩
    claudeCacheCreation5mTokens := 0
    claudeCacheCreation1hTokens := 0
    usageSemantic := "openai" }

/-- Claude's report of the same tokens; `fiveMinutes` of the cache writes are known to be for five minutes. -/
def claudeForm (fiveMinutes : Fin (write + 1)) : Usage :=
  { promptTokens := plain
    completionTokens := output
    promptTokensDetails := ⟨read, write, 0, 0, 0⟩
    completionTokenDetails := ⟨0, 0⟩
    claudeCacheCreation5mTokens := fiveMinutes.val
    claudeCacheCreation1hTokens := 0
    usageSemantic := "anthropic" }

/-- **Upstream independence**: the two reports of the same tokens give the same parameters exactly if the
expression has a variable for every kind of cache tokens that occurs. -/
theorem tiered_independent_iff (native : Bool) (fiveMinutes : Fin (write + 1)) (usedVars : String → Bool) :
    let openAI := buildTieredTokenParams (openAIForm plain read write output native) false usedVars
    let claude := buildTieredTokenParams (claudeForm plain read write output fiveMinutes) true usedVars
    (openAI.p = claude.p ∧ openAI.c = claude.c ∧ openAI.len = claude.len ∧ openAI.cr = claude.cr ∧
        openAI.cc = claude.cc) ↔
      (read = 0 ∨ usedVars "cr" = true) ∧ (write = 0 ∨ usedVars "cc" = true) := by
  have hfive := fiveMinutes.isLt
  have hcreation : (openAIForm plain read write output native).promptTokensDetails.cacheCreationTokensTotal =
      write := by
    cases native <;> simp [openAIForm, InputTokenDetails.cacheCreationTokensTotal]
  simp only [buildTieredTokenParams, hcreation]
  simp only [openAIForm, claudeForm, InputTokenDetails.cacheCreationTokensTotal]
  by_cases hcr : usedVars "cr" = true <;> by_cases hcc : usedVars "cc" = true <;> simp [hcr, hcc] <;> omega

end forms

/-- Ten tokens read from the cache are in `p` if OpenAI reports them, and not if Claude does. -/
theorem cached_tokens_differ :
    (buildTieredTokenParams (openAIForm 5 10 0 1 false) false fun _ => false).p = 15 ∧
      (buildTieredTokenParams (claudeForm 5 10 0 1 0) true fun _ => false).p = 5 := by
  decide

/-! ### Conversion -/

structure ClaudeUsage where
  (inputTokens cacheCreationInputTokens cacheReadInputTokens outputTokens : Int)
  /-- the tokens written for five minutes and for an hour -/
  cacheCreation : Option (Int × Int)

variable (usage : ClaudeUsage)

def ClaudeUsage.split : Int × Int := usage.cacheCreation.getD (0, 0)

def ClaudeUsage.getCacheCreationTotalTokens : Int :=
  if 0 < usage.cacheCreationInputTokens then usage.cacheCreationInputTokens
  else usage.split.1 + usage.split.2

def normalizeCacheCreationSplit (totalTokens tokens5m tokens1h : Int) : Int × Int :=
  let knownTotal := max tokens5m 0 + max tokens1h 0
  if max totalTokens 0 ≤ knownTotal then (max tokens5m 0, max tokens1h 0)
  else (max tokens5m 0 + max totalTokens 0 - knownTotal, max tokens1h 0)

def Usage.normalizedSplit (usage : Usage) : Int × Int :=
  normalizeCacheCreationSplit usage.promptTokensDetails.cachedCreationTokens
    usage.claudeCacheCreation5mTokens usage.claudeCacheCreation1hTokens

def buildClaudeUsageFromOpenAIUsage (usage : Usage) : ClaudeUsage :=
  let d := usage.promptTokensDetails
  let split := usage.normalizedSplit
  { inputTokens :=
      if 0 < d.cacheWriteTokens then
        max (usage.promptTokens - d.cachedTokens - d.cacheCreationTokensTotal) 0
      else usage.promptTokens
    outputTokens := usage.completionTokens
    cacheCreationInputTokens := d.cacheCreationTokensTotal
    cacheReadInputTokens := d.cachedTokens
    cacheCreation := if 0 < split.1 ∨ 0 < split.2 then some split else none }

def cacheCreationTokensForOpenAIUsage (usage : Usage) : Int :=
  let split := usage.claudeCacheCreation5mTokens + usage.claudeCacheCreation1hTokens
  if split = 0 then usage.promptTokensDetails.cachedCreationTokens
  else max usage.promptTokensDetails.cachedCreationTokens split

def buildOpenAIStyleUsageFromClaudeUsage (usage : Usage) : Usage :=
  let d := usage.promptTokensDetails
  let cacheCreationTokens := cacheCreationTokensForOpenAIUsage usage
  { usage with
    claudeCacheCreation5mTokens := usage.normalizedSplit.1
    claudeCacheCreation1hTokens := usage.normalizedSplit.2
    promptTokensDetails := { d with cacheWriteTokens := cacheCreationTokens }
    promptTokens := usage.promptTokens + d.cachedTokens + cacheCreationTokens
    usageSemantic := "openai" }

def ClaudeUsage.semanticUsage : Usage :=
  { promptTokens := usage.inputTokens
    completionTokens := usage.outputTokens
    promptTokensDetails := ⟨usage.cacheReadInputTokens, usage.cacheCreationInputTokens, 0, 0, 0⟩
    completionTokenDetails := ⟨0, 0⟩
    claudeCacheCreation5mTokens := usage.split.1
    claudeCacheCreation1hTokens := usage.split.2
    usageSemantic := "anthropic" }

def usageFromClaudeAPIUsage : Usage :=
  buildOpenAIStyleUsageFromClaudeUsage usage.semanticUsage

def ClaudeUsage.back : ClaudeUsage :=
  buildClaudeUsageFromOpenAIUsage (usageFromClaudeAPIUsage usage)

def ClaudeUsage.counts : Int × Int × Int × Int :=
  (usage.inputTokens, usage.cacheReadInputTokens, usage.getCacheCreationTotalTokens, usage.outputTokens)

/-- What was written to the cache comes back as the larger of the total and the split; the input comes
back without the cache reads if anything was written. -/
theorem back_counts {usage : ClaudeUsage} (hinput : 0 ≤ usage.inputTokens)
    (hcreation : 0 ≤ usage.cacheCreationInputTokens) (h5m : 0 ≤ usage.split.1) (h1h : 0 ≤ usage.split.2)
    {created : Int} (heq : created = max usage.cacheCreationInputTokens (usage.split.1 + usage.split.2)) :
    usage.back.counts = (if 0 < created then usage.inputTokens else usage.inputTokens + usage.cacheReadInputTokens,
        usage.cacheReadInputTokens, created, usage.outputTokens) := by
  have hwrite : cacheCreationTokensForOpenAIUsage usage.semanticUsage = created := by
    show (if usage.split.1 + usage.split.2 = 0 then usage.cacheCreationInputTokens
      else max usage.cacheCreationInputTokens (usage.split.1 + usage.split.2)) = created
    split_ifs <;> omega
  simp only [ClaudeUsage.counts, ClaudeUsage.getCacheCreationTotalTokens, ClaudeUsage.back,
    buildClaudeUsageFromOpenAIUsage, usageFromClaudeAPIUsage, buildOpenAIStyleUsageFromClaudeUsage, hwrite,
    InputTokenDetails.cacheCreationTokensTotal]
  by_cases hcreated : 0 < created
  · have htotal : max (max usage.cacheCreationInputTokens created) 0 = created := by omega
    simp only [ClaudeUsage.semanticUsage, htotal, if_pos hcreated]
    congr 1
    omega
  · have h5m₀ : usage.split.1 = 0 := by omega
    have h1h₀ : usage.split.2 = 0 := by omega
    have hcreation₀ : usage.cacheCreationInputTokens = 0 := by omega
    have hcreated₀ : created = 0 := by omega
    unfold ClaudeUsage.split at h5m₀ h1h₀
    simp [ClaudeUsage.semanticUsage, hcreated₀, hcreation₀, ClaudeUsage.split, Usage.normalizedSplit,
      normalizeCacheCreationSplit, h5m₀, h1h₀]

/-- **Conservation**: the prompt is split into input and cache exactly if OpenAI's own cache-write count is
there and the cache fits, or there is no cache.  A Claude usage comes back exactly if something was written
to the cache or nothing was read from it, and the split is not more than a total. -/
theorem usage_conserved_iff (openAI : Usage) (claude : ClaudeUsage)
    (hcached : 0 ≤ openAI.promptTokensDetails.cachedTokens) (hinput : 0 ≤ claude.inputTokens)
    (hcreation : 0 ≤ claude.cacheCreationInputTokens) (hread : 0 ≤ claude.cacheReadInputTokens)
    (h5m : 0 ≤ claude.split.1) (h1h : 0 ≤ claude.split.2) :
    let built := buildClaudeUsageFromOpenAIUsage openAI
    let d := openAI.promptTokensDetails
    (built.inputTokens + built.cacheReadInputTokens + built.cacheCreationInputTokens = openAI.promptTokens ↔
        if 0 < d.cacheWriteTokens then d.cachedTokens + d.cacheCreationTokensTotal ≤ openAI.promptTokens
        else d.cachedTokens = 0 ∧ d.cacheCreationTokensTotal = 0) ∧
      (claude.back.counts = claude.counts ↔
        (0 < claude.getCacheCreationTotalTokens ∨ claude.cacheReadInputTokens = 0) ∧
          (claude.cacheCreationInputTokens = 0 ∨
            claude.split.1 + claude.split.2 ≤ claude.cacheCreationInputTokens)) := by
  constructor
  · simp only [buildClaudeUsageFromOpenAIUsage]
    have htotal : 0 ≤ openAI.promptTokensDetails.cacheCreationTokensTotal := le_max_right _ _
    split_ifs <;> omega
  · rw [back_counts hinput hcreation h5m h1h rfl]
    unfold ClaudeUsage.counts ClaudeUsage.getCacheCreationTotalTokens
    simp only [Prod.mk.injEq, true_and, and_true]
    split_ifs <;> omega

theorem cache_writes_conserved :
    (ClaudeUsage.mk 5 10 3 1 none).back.counts = (ClaudeUsage.mk 5 10 3 1 none).counts :=
  (usage_conserved_iff (openAIForm 5 3 10 1 true) ⟨5, 10, 3, 1, none⟩ (by decide) (by decide) (by decide)
    (by decide) (by decide) (by decide)).2.mpr (by decide)

/-- Ten cached tokens of a prompt of fifteen are counted twice, and a Claude usage comes back with its ten
cache reads in the input. -/
theorem cache_reads_counted_twice :
    let prompt := buildClaudeUsageFromOpenAIUsage (openAIForm 5 10 0 1 true)
    prompt.inputTokens + prompt.cacheReadInputTokens + prompt.cacheCreationInputTokens = 25 ∧
      (ClaudeUsage.mk 5 0 10 1 none).back.counts = (15, 10, 0, 1) := by
  decide

end WynthApi.Price
