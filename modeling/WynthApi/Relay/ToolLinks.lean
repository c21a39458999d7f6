import WynthApi.Relay.ToolBook

/-!
# The maps of the tool book, name by name

A `ToolKey` is a name of a tool in an event: `leads` is the three maps from names to keys in one, `pending` the two
maps of kept arguments.

`Links` says what the `link…` functions do to the book.  `Maps own order` is the coherence of the maps: every name leads
to the tool of the call that owns it, where the calls are listed in the order in which their tools were made.
-/

namespace WynthApi.Relay

open List Option AList Function

namespace ToolBook

def leads (book : ToolBook) : ToolKey → Option ToolKey
  | .output index => book.outputIndexToKey.lookup index
  | .item id => book.itemIDToKey.lookup id
  | .call id => book.callIDToKey.lookup id

def pending (book : ToolBook) : ToolKey → Option String
  | .output index => book.pendingArgsByOutputIndex.lookup index
  | .item id => book.pendingArgsByItemID.lookup id
  | .call _ => none

section

variable (book : ToolBook) (p : ℕ) (f : ResponsesStreamTool → ResponsesStreamTool)

include book p f

@[simp] theorem leads_modify : (book.modify p f).leads = book.leads := by
  funext k
  cases k <;> rfl

@[simp] theorem pending_modify : (book.modify p f).pending = book.pending := by
  funext k
  cases k <;> rfl

theorem tools_modify_self : (book.modify p f).tools p = f (book.tools p) := update_self ..

end

theorem tools_modify_of_ne (book : ToolBook) {p q : ℕ} (f : ResponsesStreamTool → ResponsesStreamTool) (h : q ≠ p) :
    (book.modify p f).tools q = book.tools q := update_of_ne h ..

@[simp] theorem leads_newTool (book : ToolBook) (key : ToolKey) (callID : String) :
    (book.newTool key callID).2.leads = book.leads := by
  funext k
  cases k <;> rfl

@[simp] theorem pending_newTool (book : ToolBook) (key : ToolKey) (callID : String) :
    (book.newTool key callID).2.pending = book.pending := by
  funext k
  cases k <;> rfl

/-! ### Linking -/

/-- The progress of a tool: all that decides on its next fragment but its arguments. -/
structure SameProgress (tool tool' : ResponsesStreamTool) : Prop where
  index : tool'.index = tool.index
  sent : tool'.sent = tool.sent
  nameSent : tool'.nameSent = tool.nameSent
  argsSentAt : tool'.argsSentAt = tool.argsSentAt
  name : tool'.name = tool.name

/-- The names lead to the key, what was kept under them has joined the arguments of the tool at `p`, and
nothing else has changed. -/
structure Links (names : List ToolKey) (key : ToolKey) (p : ℕ) (b b' : ToolBook) : Prop where
  next : b'.nextToolIndex = b.nextToolIndex
  toolByKey : b'.toolByKey = b.toolByKey
  leads : ∀ k, b'.leads k = if k ∈ names then some key else b.leads k
  pending : ∀ k, b'.pending k = if k ∈ names then none else b.pending k
  others : ∀ q, q ≠ p → b'.tools q = b.tools q
  arguments : (b'.tools p).arguments =
    (b.tools p).arguments ++ String.join (names.map fun k => (b.pending k).getD "")
  progress : SameProgress (b.tools p) (b'.tools p)

variable {names names' : List ToolKey} {key : ToolKey} {p : ℕ} {b b' b'' : ToolBook}

theorem Links.refl : Links [] key p b b :=
  ⟨rfl, rfl, fun k => by simp, fun k => by simp, fun q _ => rfl, by simp, ⟨rfl, rfl, rfl, rfl, rfl⟩⟩

theorem Links.trans (h : Links names key p b b') (h' : Links names' key p b' b'')
    (hdisjoint : ∀ k ∈ names', k ∉ names) : Links (names ++ names') key p b b'' := by
  refine ⟨h'.next.trans h.next, h'.toolByKey.trans h.toolByKey, fun k => ?_, fun k => ?_,
    fun q hq => (h'.others q hq).trans (h.others q hq), ?_, ?_⟩
  · rw [h'.leads, h.leads]
    by_cases hk : k ∈ names <;> by_cases hk' : k ∈ names' <;> simp [hk, hk']
  · rw [h'.pending, h.pending]
    by_cases hk : k ∈ names <;> by_cases hk' : k ∈ names' <;> simp [hk, hk']
  · have hsame : names'.map (fun k => (b'.pending k).getD "") =
        names'.map fun k => (b.pending k).getD "" := by
      refine map_congr_left fun k hk => ?_
      rw [h.pending, if_neg (hdisjoint k hk)]
    rw [h'.arguments, h.arguments, hsame, map_append, String.join_append, String.append_assoc]
  · exact ⟨h'.progress.index.trans h.progress.index, h'.progress.sent.trans h.progress.sent,
      h'.progress.nameSent.trans h.progress.nameSent,
      h'.progress.argsSentAt.trans h.progress.argsSentAt, h'.progress.name.trans h.progress.name⟩

def Kept (b : ToolBook) : Prop := ∀ k, b.pending k ≠ some ""

theorem Links.kept (h : Links names key p b b') (hkept : b.Kept) : b'.Kept := by
  intro k
  rw [h.pending]
  split_ifs with hk
  · simp
  · exact hkept k

theorem takePending_fst {α : Type} [DecidableEq α] (name : α) (m : AList fun _ : α => String) :
    (takePending name m).1 = (m.lookup name).getD "" := rfl

theorem takePending_lookup {α : Type} [DecidableEq α] {name : α} {m : AList fun _ : α => String}
    (hkept : m.lookup name ≠ some "") (a : α) :
    (takePending name m).2.lookup a = if a = name then none else m.lookup a := by
  unfold takePending
  by_cases hnone : m.lookup name = none
  · simp only [hnone, getD_none, ne_eq, not_true_eq_false, if_false]
    by_cases ha : a = name
    · rw [if_pos ha, ha, hnone]
    · rw [if_neg ha]
  · obtain ⟨args, hargs⟩ := ne_none_iff_exists'.mp hnone
    have hne : args ≠ "" := fun h => hkept (by rw [hargs, h])
    simp only [hargs, getD_some, ne_eq, hne, not_false_eq_true, if_true]
    split_ifs with ha
    · rw [ha, lookup_erase]
    · rw [lookup_erase_ne ha]

theorem links_outputIndex (outputIndex : Option ℤ) (hkept : b.Kept) :
    Links (outputIndex.map ToolKey.output).toList key p b (linkOutputIndex outputIndex key p b) := by
  cases outputIndex with
  | none => exact Links.refl
  | some n =>
    refine ⟨rfl, rfl, fun k => ?_, fun k => ?_, fun q hq => ?_, ?_, ?_⟩
    · cases k with
      | output m =>
        by_cases hm : m = n
        · subst hm
          simp [linkOutputIndex, leads]
        · simp [linkOutputIndex, leads, hm]
      | item | call => simp [linkOutputIndex, leads, modify]
    · have hlookup := takePending_lookup (hkept (.output n))
      cases k with
      | output m => simp [linkOutputIndex, pending, hlookup]
      | item id => simp [linkOutputIndex, pending, modify]
      | call id => simp [pending]
    · exact update_of_ne hq _ _
    · simp [linkOutputIndex, tools_modify_self, takePending_fst, pending]
    · simp only [linkOutputIndex, tools_modify_self]
      exact ⟨rfl, rfl, rfl, rfl, rfl⟩

theorem links_itemID (itemID : Option String) (hkept : b.Kept) :
    Links (itemID.map ToolKey.item).toList key p b (linkItemID itemID key p b) := by
  cases itemID with
  | none => exact Links.refl
  | some y =>
    refine ⟨rfl, rfl, fun k => ?_, fun k => ?_, fun q hq => ?_, ?_, ?_⟩
    · cases k with
      | item id =>
        by_cases hid : id = y
        · subst hid
          simp [linkItemID, leads]
        · simp [linkItemID, leads, hid]
      | output | call => simp [linkItemID, leads, modify]
    · have hlookup := takePending_lookup (hkept (.item y))
      cases k with
      | item id => simp [linkItemID, pending, hlookup]
      | output m => simp [linkItemID, pending, modify]
      | call id => simp [pending]
    · exact update_of_ne hq _ _
    · simp [linkItemID, tools_modify_self, takePending_fst, pending]
    · simp only [linkItemID, tools_modify_self]
      exact ⟨rfl, rfl, rfl, rfl, rfl⟩

theorem links_callID (item : ResponsesOutput) :
    Links ((nonBlank item.callId).map ToolKey.call).toList key p b (linkCallID item key p b) := by
  unfold linkCallID
  cases nonBlank item.callId with
  | none =>
    refine ⟨rfl, rfl, fun k => by simp, fun k => by simp, fun q hq => tools_modify_of_ne b _ hq, ?_, ?_⟩
    · simp only [tools_modify_self]
      split_ifs <;> simp
    · simp only [tools_modify_self]
      split_ifs <;> exact ⟨rfl, rfl, rfl, rfl, rfl⟩
  | some c =>
    refine ⟨rfl, rfl, fun k => ?_, fun k => ?_, fun q hq => update_of_ne hq _ _, ?_, ?_⟩
    · cases k with
      | call id =>
        by_cases hid : id = c
        · subst hid
          simp [leads]
        · simp [leads, hid]
      | output | item => simp [leads, modify]
    · cases k <;> simp [pending, modify]
    · simp [tools_modify_self, pending]
    · simp only [tools_modify_self]
      exact ⟨rfl, rfl, rfl, rfl, rfl⟩

/-! ### Coherence -/

variable {ι : Type} {own : ToolKey → ι → Prop} {order : List ι} {x : ι}

/-- Every key and every name leads to the tool of its owner; a tool's number is the place of its call in
the order. -/
structure Maps (own : ToolKey → ι → Prop) (order : List ι) (b : ToolBook) : Prop where
  nodup : order.Nodup
  count : b.nextToolIndex = order.length
  keys : ∀ k j, b.toolByKey.lookup k = some j → ∃ x, order[j]? = some x ∧ own k x
  leads : ∀ k k', b.leads k = some k' →
    ∃ x j, own k x ∧ b.toolByKey.lookup k' = some j ∧ order[j]? = some x
  output : ∀ n k', b.leads (.output n) = some k' → k' = .output n

section

variable (h : Maps own order b)

include h

theorem Maps.congr (hnext : b'.nextToolIndex = b.nextToolIndex)
    (hkeys : b'.toolByKey = b.toolByKey) (hleads : b'.leads = b.leads) : Maps own order b' :=
  ⟨h.nodup, hnext.trans h.count, by rw [hkeys]; exact h.keys, by rw [hkeys, hleads]; exact h.leads,
    by rw [hleads]; exact h.output⟩

theorem Maps.modify (p : ℕ) (f : ResponsesStreamTool → ResponsesStreamTool) :
    Maps own order (b.modify p f) := h.congr rfl rfl (leads_modify b p f)

theorem Maps.alias (hfree : b.toolByKey.lookup key = none) (hp : order[p]? = some x) (hown : own key x) :
    Maps own order { b with toolByKey := b.toolByKey.insert key p } := by
  refine ⟨h.nodup, h.count, fun k j hj => ?_, fun k k' hk => ?_, h.output⟩
  · by_cases hkey : k = key
    · subst hkey
      rw [lookup_insert] at hj
      cases hj
      exact ⟨x, hp, hown⟩
    · rw [lookup_insert_ne hkey] at hj
      exact h.keys k j hj
  · obtain ⟨y, j, hy, hj, horder⟩ := h.leads k k' hk
    have hne : k' ≠ key := by
      rintro rfl
      rw [hfree] at hj
      cases hj
    exact ⟨y, j, hy, by rw [lookup_insert_ne hne]; exact hj, horder⟩

theorem Maps.newTool (callID : String) (hfree : b.toolByKey.lookup key = none) (hx : x ∉ order) (hown : own key x) :
    Maps own (order ++ [x]) (b.newTool key callID).2 ∧
      (b.newTool key callID).2.toolByKey.lookup key = some order.length ∧ (b.newTool key callID).1 = order.length := by
  have hgrow : ∀ {j : ℕ} {y : ι}, order[j]? = some y → (order ++ [x])[j]? = some y := by
    intro j y hy
    obtain ⟨hj, -⟩ := List.getElem?_eq_some_iff.mp hy
    rw [List.getElem?_append_left hj]
    exact hy
  have hnew : (b.newTool key callID).2.toolByKey.lookup key = some order.length := by
    rw [← h.count]
    exact lookup_insert b.toolByKey
  refine ⟨⟨?_, ?_, fun k j hj => ?_, fun k k' hk => ?_, ?_⟩, hnew, h.count⟩
  · rw [← concat_eq_append]
    exact h.nodup.concat hx
  · rw [length_append, ← h.count]
    rfl
  · by_cases hkey : k = key
    · subst hkey
      rw [hnew] at hj
      cases hj
      exact ⟨x, by simp, hown⟩
    · have hold : b.toolByKey.lookup k = some j := by
        rw [← hj]
        exact (lookup_insert_ne hkey).symm
      obtain ⟨y, hy, howns⟩ := h.keys k j hold
      exact ⟨y, hgrow hy, howns⟩
  · rw [leads_newTool] at hk
    obtain ⟨y, j, hy, hj, horder⟩ := h.leads k k' hk
    have hne : k' ≠ key := by
      rintro rfl
      rw [hfree] at hj
      cases hj
    exact ⟨y, j, hy, (lookup_insert_ne hne).trans hj, hgrow horder⟩
  · rw [leads_newTool]
    exact h.output

theorem Maps.link (hlinks : Links names key p b b') (hkey : b.toolByKey.lookup key = some p) (hp : order[p]? = some x)
    (hown : ∀ k ∈ names, own k x) (houtput : ∀ n, .output n ∈ names → key = .output n) : Maps own order b' := by
  refine ⟨h.nodup, hlinks.next.trans h.count, ?_, fun k k' hk => ?_, fun n k' hk => ?_⟩
  · rw [hlinks.toolByKey]
    exact h.keys
  · rw [hlinks.toolByKey]
    rw [hlinks.leads] at hk
    by_cases hmem : k ∈ names
    · rw [if_pos hmem] at hk
      cases hk
      exact ⟨x, p, hown k hmem, hkey, hp⟩
    · rw [if_neg hmem] at hk
      exact h.leads k k' hk
  · rw [hlinks.leads] at hk
    by_cases hmem : .output n ∈ names
    · rw [if_pos hmem] at hk
      cases hk
      exact houtput n hmem
    · rw [if_neg hmem] at hk
      exact h.output n k' hk

end

section owner

variable (hfunctional : ∀ k x y, own k x → own k y → x = y)
include hfunctional

section

variable (h : Maps own order b)

include h

theorem Maps.key_of (hown : own key x) {j : ℕ} (hj : b.toolByKey.lookup key = some j) : order[j]? = some x := by
  obtain ⟨y, hy, howny⟩ := h.keys key j hj
  rw [hfunctional _ _ _ hown howny]
  exact hy

theorem Maps.lead_of (hown : own key x) {k' : ToolKey}
    (hk : b.leads key = some k') : ∃ j, b.toolByKey.lookup k' = some j ∧ order[j]? = some x := by
  obtain ⟨y, j, howny, hj, hy⟩ := h.leads key k' hk
  rw [hfunctional _ _ _ hown howny]
  exact ⟨j, hj, hy⟩

theorem Maps.key_none (hown : own key x) (hx : x ∉ order) : b.toolByKey.lookup key = none := by
  by_contra hsome
  obtain ⟨j, hj⟩ := ne_none_iff_exists'.mp hsome
  exact hx (mem_of_getElem? (h.key_of hfunctional hown hj))

theorem Maps.lead_none (hown : own key x) (hx : x ∉ order) : b.leads key = none := by
  by_contra hsome
  obtain ⟨k', hk⟩ := ne_none_iff_exists'.mp hsome
  obtain ⟨j, -, hj⟩ := h.lead_of hfunctional hown hk
  exact hx (mem_of_getElem? hj)

end

end owner

end ToolBook

end WynthApi.Relay
