import Mathlib.Algebra.Ring.Int.Defs
import Mathlib.Data.List.AList
import WynthApi.Lib.Run

/-!
# Quota updates in batches (model/utils.go)

With batch updates on, `addNewRecord` adds a change of a quota to one of five maps in memory, and from time to time
`batchUpdate` looks for data, swaps the maps one by one, each under its lock, and then runs one statement for each
token, each channel and each user.  In between records may be added.  Go ranges over a map in any order, so a step of
the run names the key it takes.

What a statement that fails was to write is gone: the run only logs the error.
-/

namespace WynthApi.Store.Batch

open StepSys Function List

inductive BatchUpdateType where
  | userQuota
  | tokenQuota
  | usedQuota
  | channelUsedQuota
  | requestCount
  deriving DecidableEq

def batchUpdateTypes : List BatchUpdateType :=
  [.userQuota, .tokenQuota, .usedQuota, .channelUsedQuota, .requestCount]

theorem mem_batchUpdateTypes (type : BatchUpdateType) : type ∈ batchUpdateTypes := by
  cases type <;> decide

/-! ### The maps -/

abbrev BatchStore := AList fun _ : Int => Int

variable (store : BatchStore)

def amount (id : Int) : Int := (store.lookup id).getD 0

@[simp] theorem amount_empty (id : Int) : amount ∅ id = 0 := rfl

theorem amount_insert_ne {id id' : Int} (h : id' ≠ id) (value : Int) :
    amount (store.insert id value) id' = amount store id' := by
  rw [amount, AList.lookup_insert_ne h, amount]

@[simp] theorem amount_erase_self (store : BatchStore) (id : Int) : amount (store.erase id) id = 0 := by
  simp [amount]

theorem amount_erase_ne {id id' : Int} (h : id' ≠ id) : amount (store.erase id) id' = amount store id' := by
  rw [amount, AList.lookup_erase_ne h, amount]

theorem amount_of_keys_nil {store : BatchStore} (h : store.keys = []) (id : Int) : amount store id = 0 := by
  have hnot : id ∉ store := by
    rw [AList.mem_keys, h]
    exact not_mem_nil
  rw [amount, AList.lookup_eq_none.mpr hnot]
  rfl

abbrev Stores := BatchUpdateType → BatchStore

variable (stores : Stores)

def Stores.add (type : BatchUpdateType) (id value : Int) : Stores :=
  Function.update stores type
    (match (stores type).lookup id with
    | none => (stores type).insert id value
    | some old => (stores type).insert id (old + value))

theorem amount_add_self (type : BatchUpdateType) (id value : Int) :
    amount (stores.add type id value type) id = amount (stores type) id + value := by
  rw [Stores.add, update_self]
  cases h : (stores type).lookup id with
  | none | some => simp [amount, h]

theorem amount_add_ne {type type' : BatchUpdateType} {id id' : Int} (h : type' ≠ type ∨ id' ≠ id) (value : Int) :
    amount (stores.add type id value type') id' = amount (stores type') id' := by
  by_cases htype : type' = type
  · subst htype
    have hid : id' ≠ id := h.resolve_left (not_not.mpr rfl)
    rw [Stores.add, update_self]
    cases (stores type').lookup id with
    | none | some => exact amount_insert_ne _ hid _
  · rw [Stores.add, update_of_ne htype]

/-! ### The tables -/

structure UserCounters where
  (quota usedQuota requestCount : Int)
  deriving DecidableEq

structure TokenCounters where
  (remainQuota usedQuota : Int)
  deriving DecidableEq

structure CounterDB where
  users : Int → Option UserCounters
  tokens : Int → Option TokenCounters
  channels : Int → Option Int

def increaseTokenQuota (id quota : Int) (db : CounterDB) : CounterDB :=
  { db with tokens := Function.update db.tokens id ((db.tokens id).map fun token =>
      { remainQuota := token.remainQuota + quota, usedQuota := token.usedQuota - quota }) }

def updateChannelUsedQuota (id quota : Int) (db : CounterDB) : CounterDB :=
  { db with channels := Function.update db.channels id ((db.channels id).map (· + quota)) }

def updateUserQuotaUsedQuotaAndRequestCount (id quota usedQuota requestCount : Int) (db : CounterDB) :
    CounterDB :=
  if quota = 0 ∧ usedQuota = 0 ∧ requestCount = 0 then db
  else
    { db with users := Function.update db.users id ((db.users id).map fun user =>
        { quota := user.quota + quota, usedQuota := user.usedQuota + usedQuota,
          requestCount := user.requestCount + requestCount }) }

/-! ### Runs -/

inductive Phase where
  | tokens
  | channels
  | users
  deriving DecidableEq

inductive Updater where
  | idle
  | peek (left : List BatchUpdateType)
  | swap (left : List BatchUpdateType) (stores : Stores)
  | flush (phase : Phase) (stores : Stores)

structure State where
  db : CounterDB
  stores : Stores
  updater : Updater

def Phase.write (id : Int) (stores : Stores) (db : CounterDB) : Phase → CounterDB
  | .tokens => increaseTokenQuota id (amount (stores .tokenQuota) id) db
  | .channels => updateChannelUsedQuota id (amount (stores .channelUsedQuota) id) db
  | .users =>
    updateUserQuotaUsedQuotaAndRequestCount id (amount (stores .userQuota) id)
      (amount (stores .usedQuota) id) (amount (stores .requestCount) id) db

def Phase.types : Phase → List BatchUpdateType
  | .tokens => [.tokenQuota]
  | .channels => [.channelUsedQuota]
  | .users => [.userQuota, .usedQuota, .requestCount]

variable (phase : Phase)

def Phase.keys : List Int :=
  phase.types.flatMap fun type => (stores type).keys

/-- The maps without a key that a phase has come to: `range` takes a key once. -/
def Phase.done (id : Int) (stores : Stores) (phase : Phase) : Stores := fun type =>
  if type ∈ phase.types then (stores type).erase id else stores type

def Phase.next : Phase → Updater
  | .tokens => .flush .channels stores
  | .channels => .flush .users stores
  | .users => .idle

inductive Event where
  | addNewRecord (type : BatchUpdateType) (id value : Int)
  | batchUpdate
  | turn
  | statement (id : Int) (fails : Bool)
  deriving DecidableEq

/-- One turn of the loops that look for data and swap the maps, or the end of a loop over keys. -/
def turn (s : State) : State :=
  match s.updater with
  | .idle => s
  | .peek [] => { s with updater := .idle }
  | .peek (type :: left) =>
    if (s.stores type).keys = [] then { s with updater := .peek left }
    else { s with updater := .swap batchUpdateTypes fun _ => ∅ }
  | .swap [] stores => { s with updater := .flush .tokens stores }
  | .swap (type :: left) stores =>
    { s with
      stores := Function.update s.stores type ∅
      updater := .swap left (Function.update stores type (s.stores type)) }
  | .flush phase stores =>
    if phase.keys stores = [] then { s with updater := phase.next stores } else s

def step (s : State) : Event → State
  | .addNewRecord type id value => { s with stores := s.stores.add type id value }
  | .batchUpdate =>
    match s.updater with
    | .idle => { s with updater := .peek batchUpdateTypes }
    | _ => s
  | .turn => turn s
  | .statement id fails =>
    match s.updater with
    | .flush phase stores =>
      if id ∈ phase.keys stores then
        { s with
          db := if fails then s.db else phase.write id stores s.db
          updater := .flush phase (phase.done id stores) }
      else s
    | _ => s

def init (db : CounterDB) : State where
  db := db
  stores := fun _ => ∅
  updater := .idle

/-! ### Counters -/

inductive Counter where
  | userQuota (id : Int)
  | userUsedQuota (id : Int)
  | userRequestCount (id : Int)
  | tokenRemainQuota (id : Int)
  | tokenUsedQuota (id : Int)
  | channelUsedQuota (id : Int)
  deriving DecidableEq

namespace Counter

def id : Counter → Int
  | userQuota id | userUsedQuota id | userRequestCount id => id
  | tokenRemainQuota id | tokenUsedQuota id => id
  | channelUsedQuota id => id

def type : Counter → BatchUpdateType
  | userQuota _ => .userQuota
  | userUsedQuota _ => .usedQuota
  | userRequestCount _ => .requestCount
  | tokenRemainQuota _ | tokenUsedQuota _ => .tokenQuota
  | channelUsedQuota _ => .channelUsedQuota

/-- What one unit of a record adds: a token's used quota goes down by what its remaining quota gains. -/
def unit : Counter → Int
  | tokenUsedQuota _ => -1
  | _ => 1

def value (db : CounterDB) : Counter → Option Int
  | userQuota id => (db.users id).map (·.quota)
  | userUsedQuota id => (db.users id).map (·.usedQuota)
  | userRequestCount id => (db.users id).map (·.requestCount)
  | tokenRemainQuota id => (db.tokens id).map (·.remainQuota)
  | tokenUsedQuota id => (db.tokens id).map (·.usedQuota)
  | channelUsedQuota id => db.channels id

def waiting (stores : Stores) (c : Counter) : Int := c.unit * amount (stores c.type) c.id

def recorded (c : Counter) : Event → Int
  | .addNewRecord type id value => if c.type = type ∧ c.id = id then c.unit * value else 0
  | _ => 0

end Counter

/-! ### Statements -/

structure Writes (c : Counter) (here : Prop) (add : Int) (db db' : CounterDB) : Prop where
  at_row : here → ∀ {v}, c.value db = some v → c.value db' = some (v + add)
  elsewhere : ¬ here → c.value db' = c.value db

theorem writes_increaseTokenQuota (c : Counter) (id quota : Int) (db : CounterDB) :
    Writes c (c.type = .tokenQuota ∧ c.id = id) (c.unit * quota) db (increaseTokenQuota id quota db) where
  at_row := by
    rintro ⟨htype, rfl⟩ v hv
    cases c with
    | tokenRemainQuota id | tokenUsedQuota id =>
      obtain ⟨token, htoken, rfl⟩ := Option.map_eq_some_iff.mp hv
      simp [Counter.value, increaseTokenQuota, Counter.id, Counter.unit, htoken, Int.sub_eq_add_neg]
    | _ => cases htype
  elsewhere := by
    intro h
    cases c with
    | tokenRemainQuota id' | tokenUsedQuota id' =>
      have hid : id' ≠ id := fun hid => h ⟨rfl, hid⟩
      simp only [Counter.value, increaseTokenQuota, update_of_ne hid]
    | _ => rfl

theorem writes_updateChannelUsedQuota (c : Counter) (id quota : Int) (db : CounterDB) :
    Writes c (c.type = .channelUsedQuota ∧ c.id = id) (c.unit * quota) db (updateChannelUsedQuota id quota db) where
  at_row := by
    rintro ⟨htype, rfl⟩ v hv
    cases c with
    | channelUsedQuota id =>
      simp only [Counter.value] at hv
      simp [Counter.value, updateChannelUsedQuota, Counter.id, Counter.unit, hv]
    | _ => cases htype
  elsewhere := by
    intro h
    cases c with
    | channelUsedQuota id' =>
      have hid : id' ≠ id := fun hid => h ⟨rfl, hid⟩
      simp only [Counter.value, updateChannelUsedQuota, update_of_ne hid]
    | _ => rfl

theorem writes_updateUserQuotaUsedQuotaAndRequestCount (c : Counter) (id : Int)
    (delta : BatchUpdateType → Int) (db : CounterDB) :
    Writes c (c.type ∈ Phase.users.types ∧ c.id = id) (c.unit * delta c.type) db
      (updateUserQuotaUsedQuotaAndRequestCount id (delta .userQuota) (delta .usedQuota) (delta .requestCount) db) where
  at_row := by
    rintro ⟨htype, rfl⟩ v hv
    rw [updateUserQuotaUsedQuotaAndRequestCount]
    by_cases hzero : delta .userQuota = 0 ∧ delta .usedQuota = 0 ∧ delta .requestCount = 0
    · -- no statement is sent; there is nothing to add either
      have hdelta : delta c.type = 0 := by
        rcases hzero with ⟨hquota, hused, hcount⟩
        rcases c with _ | _ | _ | _ | _ | _ <;> simp_all [Counter.type, Phase.types]
      rw [if_pos hzero, hdelta, mul_zero, add_zero, hv]
    · rw [if_neg hzero]
      cases c with
      | userQuota id | userUsedQuota id | userRequestCount id =>
        obtain ⟨user, huser, rfl⟩ := Option.map_eq_some_iff.mp hv
        simp [Counter.value, Counter.id, Counter.unit, Counter.type, huser]
      | _ => simp [Counter.type, Phase.types] at htype
  elsewhere := by
    intro h
    rw [updateUserQuotaUsedQuotaAndRequestCount]
    by_cases hzero : delta .userQuota = 0 ∧ delta .usedQuota = 0 ∧ delta .requestCount = 0
    · rw [if_pos hzero]
    · rw [if_neg hzero]
      cases c with
      | userQuota id' | userUsedQuota id' | userRequestCount id' =>
        have hid : id' ≠ id := fun hid => h ⟨by simp [Counter.type, Phase.types], hid⟩
        simp only [Counter.value, update_of_ne hid]
      | _ => rfl

theorem Phase.writes_write (c : Counter) (id : Int) (stores : Stores) (db : CounterDB) :
    Writes c (c.type ∈ phase.types ∧ c.id = id) (c.waiting stores) db (phase.write id stores db) := by
  cases phase with
  | tokens =>
    have hw := writes_increaseTokenQuota c id (amount (stores .tokenQuota) id) db
    refine ⟨fun h v hv => ?_, fun h => hw.elsewhere fun h' => h ⟨mem_singleton.mpr h'.1, h'.2⟩⟩
    have htype : c.type = .tokenQuota := mem_singleton.mp h.1
    rw [Counter.waiting, htype, h.2]
    exact hw.at_row ⟨htype, h.2⟩ hv
  | channels =>
    have hw := writes_updateChannelUsedQuota c id (amount (stores .channelUsedQuota) id) db
    refine ⟨fun h v hv => ?_, fun h => hw.elsewhere fun h' => h ⟨mem_singleton.mpr h'.1, h'.2⟩⟩
    have htype : c.type = .channelUsedQuota := mem_singleton.mp h.1
    rw [Counter.waiting, htype, h.2]
    exact hw.at_row ⟨htype, h.2⟩ hv
  | users =>
    have hw := writes_updateUserQuotaUsedQuotaAndRequestCount c id (fun type => amount (stores type) id) db
    refine ⟨fun h v hv => ?_, hw.elsewhere⟩
    rw [Counter.waiting, h.2]
    exact hw.at_row h hv

/-! ### What a run holds -/

def Phase.rest : Phase → List BatchUpdateType
  | .tokens => batchUpdateTypes
  | .channels => [.channelUsedQuota, .userQuota, .usedQuota, .requestCount]
  | .users => [.userQuota, .usedQuota, .requestCount]

def Counter.held (c : Counter) : Updater → Int
  | .idle | .peek _ => 0
  | .swap _ stores => c.waiting stores
  | .flush phase stores => if c.type ∈ phase.rest then c.waiting stores else 0

/-- The maps that are still to be swapped have nothing in the run's own list. -/
def Updater.Fresh : Updater → Prop
  | .swap left stores => left.Nodup ∧ ∀ type ∈ left, stores type = ∅
  | _ => True

variable {c : Counter} {stores : Stores}

theorem waiting_of_empty (h : stores c.type = ∅) : c.waiting stores = 0 := by
  rw [Counter.waiting, h, amount_empty, mul_zero]

variable {phase : Phase}

theorem waiting_of_keys (h : phase.keys stores = []) (hc : c.type ∈ phase.types) : c.waiting stores = 0 := by
  have hkeys : (stores c.type).keys = [] := flatMap_eq_nil_iff.mp h _ hc
  rw [Counter.waiting, amount_of_keys_nil hkeys, mul_zero]

theorem held_next (h : phase.keys stores = []) (c : Counter) :
    c.held (phase.next stores) = c.held (.flush phase stores) := by
  by_cases hc : c.type ∈ phase.types
  · have hzero := waiting_of_keys h hc
    cases phase with
    | tokens | channels | users => simp [Phase.next, Counter.held, hzero]
  · cases phase with
    | tokens | channels | users =>
      revert hc
      cases c <;> simp [Phase.next, Phase.types, Phase.rest, Counter.held, Counter.type, batchUpdateTypes]

theorem Phase.types_subset_rest {type : BatchUpdateType} (h : type ∈ phase.types) : type ∈ phase.rest := by
  revert h
  cases phase <;> cases type <;> decide

theorem held_done_self (hc : c.type ∈ phase.types) : c.held (.flush phase (phase.done c.id stores)) = 0 := by
  simp [Counter.held, Counter.waiting, Phase.done, hc]

theorem held_done_ne {id : Int} (h : ¬ (c.type ∈ phase.types ∧ c.id = id)) :
    c.held (.flush phase (phase.done id stores)) = c.held (.flush phase stores) := by
  have hwait : c.waiting (phase.done id stores) = c.waiting stores := by
    rw [Counter.waiting, Counter.waiting, Phase.done]
    by_cases htype : c.type ∈ phase.types
    · rw [if_pos htype, amount_erase_ne _ fun hid => h ⟨htype, hid⟩]
    · rw [if_neg htype]
  rw [Counter.held, Counter.held, hwait]

/-! ### Conservation -/

/-- The account of a counter: what is written, what waits, and what a run holds. -/
def Counter.account (c : Counter) (s : State) : Int :=
  (c.value s.db).getD 0 + c.waiting s.stores + c.held s.updater

structure Tracked (c : Counter) (s : State) : Prop where
  row : (c.value s.db).isSome
  fresh : s.updater.Fresh

def Spared (c : Counter) (s : State) : Event → Prop
  | .statement id true =>
    match s.updater with
    | .flush phase stores => c.type ∈ phase.types ∧ c.id = id → c.waiting stores = 0
    | _ => True
  | _ => True

instance (c : Counter) (s : State) (e : Event) : Decidable (Spared c s e) := by
  unfold Spared
  repeat' split
  all_goals infer_instance

theorem waiting_add (c : Counter) (stores : Stores) (type : BatchUpdateType) (id value : Int) :
    c.waiting (stores.add type id value) = c.waiting stores + c.recorded (.addNewRecord type id value) := by
  rw [Counter.waiting, Counter.waiting, Counter.recorded]
  by_cases h : c.type = type ∧ c.id = id
  · obtain ⟨rfl, rfl⟩ := h
    rw [amount_add_self, mul_add, if_pos ⟨rfl, rfl⟩]
  · rw [amount_add_ne stores (not_and_or.mp h), if_neg h, add_zero]

variable {s : State}

theorem turn_spec (h : Tracked c s) : Tracked c (turn s) ∧ c.account (turn s) = c.account s := by
  obtain ⟨db, stores, updater⟩ := s
  cases updater with
  | idle => exact ⟨h, rfl⟩
  | peek left =>
    cases left with
    | nil => exact ⟨⟨h.row, trivial⟩, rfl⟩
    | cons type left =>
      by_cases hkeys : (stores type).keys = []
      · simp only [turn, if_pos hkeys]
        exact ⟨⟨h.row, trivial⟩, rfl⟩
      · simp only [turn, if_neg hkeys]
        refine ⟨⟨h.row, by decide, fun _ _ => rfl⟩, ?_⟩
        simp only [Counter.account, Counter.held, waiting_of_empty]
  | swap left taken =>
    cases left with
    | nil =>
      refine ⟨⟨h.row, trivial⟩, ?_⟩
      have hrest : c.type ∈ Phase.tokens.rest := mem_batchUpdateTypes c.type
      simp only [turn, Counter.account, Counter.held, if_pos hrest]
    | cons type left =>
      obtain ⟨hnodup, hempty⟩ := h.fresh
      obtain ⟨hnot, hnodup'⟩ := nodup_cons.mp hnodup
      refine ⟨⟨h.row, hnodup', fun type' h' => ?_⟩, ?_⟩
      · have hne : type' ≠ type := by
          rintro rfl
          exact hnot h'
        rw [update_of_ne hne]
        exact hempty type' (mem_cons_of_mem _ h')
      · simp only [turn, Counter.account, Counter.held]
        by_cases htype : c.type = type
        · -- the amount moves from the maps to the run
          have hzero : c.waiting taken = 0 := waiting_of_empty (hempty _ (htype ▸ mem_cons_self))
          rw [hzero]
          subst htype
          simp [Counter.waiting]
        · simp only [Counter.waiting, update_of_ne htype]
  | flush phase taken =>
    by_cases hkeys : phase.keys taken = []
    · simp only [turn, if_pos hkeys]
      refine ⟨⟨h.row, by cases phase <;> trivial⟩, ?_⟩
      simp only [Counter.account, held_next hkeys]
    · have hturn : turn ⟨db, stores, .flush phase taken⟩ = ⟨db, stores, .flush phase taken⟩ := if_neg hkeys
      rw [hturn]
      exact ⟨h, rfl⟩

theorem written_spec {db : CounterDB} (hrow : (c.value db).isSome) (phase : Phase) (id : Int)
    (taken : Stores) : (c.value (phase.write id taken db)).isSome ∧
      (c.value (phase.write id taken db)).getD 0 + c.held (.flush phase (phase.done id taken)) =
        (c.value db).getD 0 + c.held (.flush phase taken) := by
  have hw := phase.writes_write c id taken db
  obtain ⟨v, hv⟩ := Option.isSome_iff_exists.mp hrow
  by_cases here : c.type ∈ phase.types ∧ c.id = id
  · obtain ⟨htype, rfl⟩ := here
    rw [hw.at_row ⟨htype, rfl⟩ hv, hv, held_done_self htype, Counter.held, if_pos (phase.types_subset_rest htype)]
    exact ⟨rfl, add_zero _⟩
  · rw [hw.elsewhere here, held_done_ne here]
    exact ⟨hrow, rfl⟩

theorem dropped_spec {taken : Stores} {id : Int} (h : c.type ∈ phase.types ∧ c.id = id → c.waiting taken = 0) :
    c.held (.flush phase (phase.done id taken)) = c.held (.flush phase taken) := by
  by_cases here : c.type ∈ phase.types ∧ c.id = id
  · have hzero := h here
    obtain ⟨htype, rfl⟩ := here
    rw [held_done_self htype, Counter.held, if_pos (phase.types_subset_rest htype), hzero]
  · exact held_done_ne here

theorem statement_spec {id : Int} {fails : Bool} (h : Tracked c s)
    (hok : Spared c s (.statement id fails)) : Tracked c (step s (.statement id fails)) ∧
      c.account (step s (.statement id fails)) = c.account s := by
  obtain ⟨db, stores, updater⟩ := s
  cases updater with
  | flush phase taken =>
    by_cases hid : id ∈ phase.keys taken
    · simp only [step, if_pos hid]
      cases fails with
      | true =>
        refine ⟨⟨h.row, trivial⟩, ?_⟩
        simp only [Counter.account, if_true, dropped_spec hok]
      | false =>
        have hbefore : (c.value db).isSome := h.row
        obtain ⟨hrow, hacc⟩ := written_spec hbefore phase id taken
        refine ⟨⟨hrow, trivial⟩, ?_⟩
        simp only [Counter.account, Bool.false_eq_true, if_false]
        omega
    · simp only [step, if_neg hid]
      exact ⟨h, trivial⟩
  | idle | peek _ | swap _ _ => exact ⟨h, rfl⟩

/-- **What a step does to an account**: it adds what the step records. -/
theorem account_step (s : State) (e : Event) (h : Tracked c s) (hok : Spared c s e) :
    Tracked c (step s e) ∧ c.account (step s e) = c.account s + c.recorded e := by
  cases e with
  | addNewRecord type id value =>
    refine ⟨⟨h.row, h.fresh⟩, ?_⟩
    simp only [step, Counter.account, waiting_add]
    omega
  | batchUpdate =>
    obtain ⟨db, stores, updater⟩ := s
    cases updater with
    | idle => exact ⟨⟨h.row, trivial⟩, (add_zero _).symm⟩
    | peek _ | swap _ _ | flush _ _ => exact ⟨h, (add_zero _).symm⟩
  | turn => simpa only [step, Counter.recorded, add_zero] using turn_spec h
  | statement id fails => simpa only [Counter.recorded, add_zero] using statement_spec h hok

/-- **Batched updates lose nothing that is written**: over any interleaving of records with the steps of batch
runs, if no failing statement has something to write to a counter, then whenever no run is in progress, the
database and the maps hold what the database held at the start and all that was recorded. -/
theorem batch_conserves (c : Counter) (db : CounterDB) (es : List Event) {v : Int} (hv : c.value db = some v)
    (hok : Along step (Spared c) (init db) es) (hidle : (run step (init db) es).updater = .idle) :
    ∃ v', c.value (run step (init db) es).db = some v' ∧
      v' + c.waiting (run step (init db) es).stores = v + (es.map c.recorded).sum := by
  have hstart : Tracked c (init db) := ⟨Option.isSome_iff_exists.mpr ⟨v, hv⟩, trivial⟩
  obtain ⟨htracked, hacc⟩ := run_sum account_step hstart hok
  obtain ⟨v', hv'⟩ := Option.isSome_iff_exists.mp htracked.row
  refine ⟨v', hv', ?_⟩
  have hinit : c.account (init db) = v := by
    simp only [Counter.account, init, hv, Counter.held, waiting_of_empty, Option.getD_some, add_zero]
  rw [hinit, Counter.account, hv', hidle, Option.getD_some, Counter.held, add_zero] at hacc
  exact hacc

/-! ### One token -/

def oneToken : CounterDB where
  users := fun _ => none
  tokens := fun id => if id = 7 then some ⟨100, 0⟩ else none
  channels := fun _ => none

def spend (fails : Bool) : List Event :=
  [.addNewRecord .tokenQuota 7 (-30), .batchUpdate, .turn, .turn] ++ List.replicate 6 .turn ++
    [.statement 7 fails, .turn, .turn, .turn]

theorem spend_written :
    ∃ v', (Counter.tokenRemainQuota 7).value (run step (init oneToken) (spend false)).db = some v' ∧
      v' + (Counter.tokenRemainQuota 7).waiting (run step (init oneToken) (spend false)).stores =
        100 + ((spend false).map (Counter.tokenRemainQuota 7).recorded).sum :=
  batch_conserves (.tokenRemainQuota 7) oneToken (spend false) rfl (by decide +kernel) rfl

/-- The token's statement fails, and the thirty units are nowhere. -/
theorem spend_dropped :
    let s := run step (init oneToken) (spend true)
    s.updater = .idle ∧ (Counter.tokenRemainQuota 7).value s.db = some 100 ∧
      (Counter.tokenRemainQuota 7).waiting s.stores = 0 ∧
      ((spend true).map (Counter.tokenRemainQuota 7).recorded).sum = -30 :=
  ⟨rfl, rfl, rfl, rfl⟩

end WynthApi.Store.Batch
