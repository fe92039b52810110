import Synod.Proofs.Json.Lists

/-!
The members of an object, read one after another. Members that describe a layout are read as it, in
any order and beside any others; an object that is read has each member of a layout at most once,
and the epoch among them.
-/
namespace Synod.Json

variable {α : Type} {bs v gap gap' before after rest left : Bytes} {key name : String} {e : Entry}
  {entries : List Entry} {m m' : Members} {l : Layout} {form : α → Bytes → Prop} {x : α}
  {read : Parser α} {earlier : Option α}

section Steps

theorem nextKey_more (hg : Gap gap) (hg' : Gap gap') (first : Bool) (rest : Bytes) :
    nextKey first (gap ++ (lead first ++ (gap' ++ code '"' :: rest))) = .ok (true, rest) := by
  have hclose : code '"' ≠ code '\x7d' := by decide
  cases first with
  | true =>
    simp only [lead, if_true, List.nil_append]
    rw [nextKey, skipSpace_gap hg, skipSpace_gap_cons hg' rfl]
    simp only [hclose, if_true, if_false]
  | false =>
    have hcomma : code ',' ≠ code '\x7d' := by decide
    have hquote : skipSpace (gap' ++ code '"' :: rest) = code '"' :: rest :=
      skipSpace_gap_cons hg' rfl rest
    simp only [lead, Bool.false_eq_true, if_false, List.singleton_append]
    rw [nextKey, skipSpace_gap_cons hg rfl]
    simp only [hcomma, hquote, if_true, if_false, Bool.false_eq_true]

theorem nextKey_end (hg : Gap gap) (first : Bool) (rest : Bytes) :
    nextKey first (gap ++ code '\x7d' :: rest) = .ok (false, code '\x7d' :: rest) := by
  rw [nextKey, skipSpace_gap_cons hg rfl]
  simp

theorem readColon_gap (hg : Gap gap) (rest : Bytes) :
    readColon (gap ++ code ':' :: rest) = .ok rest := by
  rw [readColon, skipSpace_gap_cons hg rfl]
  rfl

theorem readMembers_step (hk : Quoted key v) (hg : Gap gap) (hg' : Gap gap') (fuel : Nat)
    (first : Bool) (m : Members) (rest : Bytes) :
    readMembers (fuel + 1) first m (gap ++ (lead first ++ (gap' ++ (v ++ rest))))
      = (do
        let (m, bs) ← member key m rest
        readMembers fuel false m bs) := by
  obtain ⟨tail, rfl, htext⟩ := text_of_quoted hk
  rw [List.cons_append, readMembers, nextKey_more hg hg']
  simp only [bind, Except.bind, if_true, htext]

theorem readMembers_end (hg : Gap gap) (fuel : Nat) (first : Bool) (m : Members) (rest : Bytes) :
    readMembers (fuel + 1) first m (gap ++ code '\x7d' :: rest) = .ok (m, code '\x7d' :: rest) := by
  rw [readMembers, nextKey_end hg]
  rfl

/-- A field that was not read before is read off its form. -/
theorem field_of_form (hread : Reads read form) (h : form x v) (ha : Gap after) (hb : Gap before)
    (hr : Ends rest) (name : String) :
    field name none read (after ++ code ':' :: (before ++ (v ++ rest))) = .ok (x, rest) := by
  rw [field]
  simp only [bind, Except.bind, readColon_gap ha]
  exact hread x v before rest h hb hr

/-- A field that is read was not read before, and takes the value that stands there. -/
theorem eq_of_field (hpass : Passes read) (hv : Form .value v) (ha : Gap after) (hb : Gap before)
    (hr : Ends rest)
    (h : field name earlier read (after ++ code ':' :: (before ++ (v ++ rest))) = .ok (x, left)) :
    earlier = none ∧ left = rest := by
  cases earlier with
  | some y => cases h
  | none =>
    rw [field] at h
    simp only [bind, Except.bind, readColon_gap ha] at h
    -- The value may be of another kind: what is read of it ends where the scan of it ends.
    have hskip := hpass _ _ _ h
    rw [Skip.value_of_form hb hv hr] at hskip
    exact ⟨rfl, (Except.ok.inj hskip).symm⟩

end Steps

section Reading

/-- What a member of a layout, or one that is passed over, makes of the members before it. -/
inductive Takes (e : Entry) (m : Members) : Members → Prop where
  | epoch {n : UInt64} (hk : e.key = "epoch") (hm : m.epoch = none)
      (hv : e.value = (Nat.toDigits 10 n.toNat).map code) : Takes e m { m with epoch := some n }
  | layoutServers {ss : List String} (hk : e.key = "layout_servers") (hm : m.layoutServers = none)
      (hv : TextList ss e.value) : Takes e m { m with layoutServers := some ss }
  | sequencers {ss : List String} (hk : e.key = "sequencers") (hm : m.sequencers = none)
      (hv : TextList ss e.value) : Takes e m { m with sequencers := some ss }
  | logServers {ss : List String} (hk : e.key = "log_servers") (hm : m.logServers = none)
      (hv : TextList ss e.value) : Takes e m { m with logServers := some ss }
  | other (hk : e.key ∉ fieldKeys) (hv : Form .value e.value) : Takes e m m

/-- What members make of those before them, one after another. -/
inductive TakesAll : List Entry → Members → Members → Prop where
  | nil {m : Members} : TakesAll [] m m
  | cons {e : Entry} {entries : List Entry} {m m' m'' : Members} (h : Takes e m m')
      (hs : TakesAll entries m' m'') : TakesAll (e :: entries) m m''

theorem member_of_takes (h : Takes e m m') (ha : Gap after) (hb : Gap before) (hr : Ends rest) :
    member e.key m (after ++ code ':' :: (before ++ (e.value ++ rest))) = .ok (m', rest) := by
  unfold member
  cases h with
  | epoch hk hm hv =>
    rw [if_pos hk, hm, field_of_form reads_readWord64 hv ha hb hr]
    rfl
  | layoutServers hk hm hv =>
    rw [if_neg (by simp [hk]), if_pos hk, hm, field_of_form reads_readTexts hv ha hb hr]
    rfl
  | sequencers hk hm hv =>
    rw [if_neg (by simp [hk]), if_neg (by simp [hk]), if_pos hk, hm,
      field_of_form reads_readTexts hv ha hb hr]
    rfl
  | logServers hk hm hv =>
    rw [if_neg (by simp [hk]), if_neg (by simp [hk]), if_neg (by simp [hk]), if_pos hk, hm,
      field_of_form reads_readTexts hv ha hb hr]
    rfl
  | other hk hv =>
    simp only [fieldKeys, List.mem_cons, List.not_mem_nil, or_false, not_or] at hk
    obtain ⟨h₁, h₂, h₃, h₄⟩ := hk
    rw [if_neg h₁, if_neg h₂, if_neg h₃, if_neg h₄, readColon_gap ha]
    simp only [bind, Except.bind, Skip.value_of_form hb hv hr]
    rfl

/-- The first of several members is taken, and the others are read behind it. -/
theorem readMembers_of_first (h : Spaced EntryForm e v) (ht : Takes e m m') (hg : Gap gap)
    (hr : Ends rest) (fuel : Nat) (first : Bool) :
    ∃ gap', Gap gap' ∧ readMembers (fuel + 1) first m (gap ++ (lead first ++ (v ++ rest)))
      = readMembers fuel false m' (gap' ++ rest) := by
  obtain ⟨hb, ⟨hk, hmid, hval⟩, ha⟩ := h
  refine ⟨_, ha, ?_⟩
  simp only [List.append_assoc, List.cons_append]
  rw [readMembers_step hk hg hb, member_of_takes ht hmid hval (ends_gap ha hr)]
  rfl

theorem readMembers_of_commas (h : Commas (Spaced EntryForm) entries v) (rest : Bytes) :
    ∀ fuel first m m' gap, TakesAll entries m m' → entries.length < fuel → Gap gap →
      readMembers fuel first m (gap ++ (lead first ++ (v ++ code '\x7d' :: rest)))
        = .ok (m', code '\x7d' :: rest) := by
  -- The blanks behind a member are left for the one after it, so that they stand in the induction.
  induction h with
  | one h =>
    intro fuel first m m' gap ht hf hg
    obtain ⟨fuel, rfl⟩ : ∃ k, fuel = k + 2 := ⟨fuel - 2, by simp at hf; omega⟩
    cases ht with
    | cons ht hs =>
      cases hs
      have hr : Ends (code '\x7d' :: rest) := ends_cons (by simp)
      obtain ⟨gap', hg', hfirst⟩ := readMembers_of_first h ht hg hr (fuel + 1) first
      rw [hfirst, readMembers_end hg']
  | @more _ _ _ tail h _ ih =>
    intro fuel first m m' gap ht hf hg
    obtain ⟨fuel, rfl⟩ : ∃ k, fuel = k + 1 := ⟨fuel - 1, by omega⟩
    cases ht with
    | cons ht hs =>
      have hr : Ends (code ',' :: (tail ++ code '\x7d' :: rest)) := ends_cons (by simp)
      obtain ⟨gap', hg', hfirst⟩ := readMembers_of_first h ht hg hr fuel first
      rw [List.append_assoc, List.cons_append, hfirst]
      exact ih fuel false _ _ gap' hs (by simpa using hf) hg'

theorem valuesOf_self (h : e.key = key) (entries : List Entry) :
    valuesOf key (e :: entries) = e.value :: valuesOf key entries := by
  simp [valuesOf, h]

theorem valuesOf_ne (h : e.key ≠ key) (entries : List Entry) :
    valuesOf key (e :: entries) = valuesOf key entries := by
  simp [valuesOf, h]

/-- A field that was read, or is still to be read of values or given its default, comes to `x`. -/
def Settles (form : α → Bytes → Prop) (default : Option α) (values : List Bytes) (x : α) :
    Option α → Prop
  | some y => y = x ∧ values = []
  | none => (∃ v, values = [v] ∧ form x v) ∨ values = [] ∧ default = some x

/-- Members that were read and others that are still to be read come to a layout. -/
structure Completes (m : Members) (entries : List Entry) (l : Layout) : Prop where
  epoch : Settles (fun n v => v = (Nat.toDigits 10 n.toNat).map code) none
    (valuesOf "epoch" entries) l.epoch m.epoch
  layoutServers : Settles TextList (some []) (valuesOf "layout_servers" entries) l.layoutServers
    m.layoutServers
  sequencers : Settles TextList (some []) (valuesOf "sequencers" entries) l.sequencers m.sequencers
  logServers : Settles TextList (some []) (valuesOf "log_servers" entries) l.logServers m.logServers
  others : ∀ e ∈ entries, e.key ∉ fieldKeys → Form .value e.value

/-- Of a field that has a value to be read, nothing was read before and nothing is left behind. -/
theorem settles_cons {default : Option α} {values : List Bytes}
    (h : Settles form default (v :: values) x earlier) :
    earlier = none ∧ form x v ∧ Settles form default values x (some x) := by
  cases earlier with
  | some y => cases h.2
  | none =>
    rcases h with ⟨v', hv, hx⟩ | ⟨hv, _⟩
    · obtain ⟨rfl, rfl⟩ := List.cons.inj hv
      exact ⟨rfl, hx, rfl, rfl⟩
    · cases hv

theorem getD_of_settles {ss : List String} {earlier : Option (List String)}
    (h : Settles TextList (some []) [] ss earlier) : earlier.getD [] = ss := by
  cases earlier with
  | some y => exact h.1
  | none =>
    rcases h with ⟨v, hv, _⟩ | ⟨_, hs⟩
    · cases hv
    · exact Option.some.inj hs

theorem layout_of_completes (h : Completes m [] l) : m.layout = .ok l := by
  obtain ⟨n, hn⟩ : ∃ n, m.epoch = some n := by
    have he := h.epoch
    cases hm : m.epoch with
    | some n => exact ⟨n, rfl⟩
    | none =>
      rw [hm] at he
      rcases he with ⟨v, hv, _⟩ | ⟨_, hd⟩ <;> contradiction
  have he := h.epoch
  rw [hn] at he
  obtain ⟨rfl, -⟩ := he
  rw [Members.layout, hn]
  simp only [getD_of_settles h.layoutServers, getD_of_settles h.sequencers,
    getD_of_settles h.logServers]

/-- The next member is read, and those behind it still come to the layout. -/
theorem takes_of_completes (h : Completes m (e :: entries) l) :
    ∃ m', Takes e m m' ∧ Completes m' entries l := by
  obtain ⟨he, hl, hs, hg, ho⟩ := h
  have ho' : ∀ e ∈ entries, e.key ∉ fieldKeys → Form .value e.value :=
    fun d hd => ho d (List.mem_cons_of_mem e hd)
  have hkey {key key' : String} (hk : e.key = key) (hne : key ≠ key') :
      valuesOf key' (e :: entries) = valuesOf key' entries := valuesOf_ne (hk ▸ hne) entries
  by_cases hfield : e.key ∈ fieldKeys
  · simp only [fieldKeys, List.mem_cons, List.not_mem_nil, or_false] at hfield
    rcases hfield with hk | hk | hk | hk
    · rw [valuesOf_self hk] at he
      rw [hkey hk (by decide)] at hl hs hg
      obtain ⟨hm, hv, he⟩ := settles_cons he
      exact ⟨_, .epoch hk hm hv, he, hl, hs, hg, ho'⟩
    · rw [valuesOf_self hk] at hl
      rw [hkey hk (by decide)] at he hs hg
      obtain ⟨hm, hv, hl⟩ := settles_cons hl
      exact ⟨_, .layoutServers hk hm hv, he, hl, hs, hg, ho'⟩
    · rw [valuesOf_self hk] at hs
      rw [hkey hk (by decide)] at he hl hg
      obtain ⟨hm, hv, hs⟩ := settles_cons hs
      exact ⟨_, .sequencers hk hm hv, he, hl, hs, hg, ho'⟩
    · rw [valuesOf_self hk] at hg
      rw [hkey hk (by decide)] at he hl hs
      obtain ⟨hm, hv, hg⟩ := settles_cons hg
      exact ⟨_, .logServers hk hm hv, he, hl, hs, hg, ho'⟩
  · have hother : ∀ key ∈ fieldKeys, valuesOf key (e :: entries) = valuesOf key entries :=
      fun key hmem => valuesOf_ne (fun hk => hfield (hk ▸ hmem)) entries
    rw [hother _ (by simp [fieldKeys])] at he hl hs hg
    exact ⟨m, .other hfield (ho e List.mem_cons_self hfield), he, hl, hs, hg, ho'⟩

theorem takesAll_of_completes (h : Completes m entries l) :
    ∃ m', TakesAll entries m m' ∧ m'.layout = .ok l := by
  induction entries generalizing m with
  | nil => exact ⟨m, .nil, layout_of_completes h⟩
  | cons e entries ih =>
    obtain ⟨m', ht, h'⟩ := takes_of_completes h
    obtain ⟨m'', hs, hl⟩ := ih h'
    exact ⟨m'', .cons ht hs, hl⟩

end Reading

section Counting

/-- How many times a field was read. -/
def Members.count (m : Members) (key : String) : Nat :=
  if key = "epoch" then m.epoch.toList.length
  else if key = "layout_servers" then m.layoutServers.toList.length
  else if key = "sequencers" then m.sequencers.toList.length
  else if key = "log_servers" then m.logServers.toList.length
  else 0

theorem count_empty (key : String) : ({} : Members).count key = 0 := by
  simp [Members.count]

theorem length_toList_le (o : Option α) : o.toList.length ≤ 1 := by
  cases o <;> simp

theorem count_le (m : Members) (key : String) : m.count key ≤ 1 := by
  unfold Members.count
  split
  · exact length_toList_le _
  split
  · exact length_toList_le _
  split
  · exact length_toList_le _
  split
  · exact length_toList_le _
  · exact Nat.zero_le 1

theorem count_of_layout (h : m.layout = .ok l) : m.count "epoch" = 1 := by
  unfold Members.layout at h
  split at h
  · cases h
  · rename_i n hn
    simp [Members.count, hn]

/-- Where a field is read and set, it was not read before, and the text goes on behind its value. -/
theorem eq_of_set (set : α → Members) (hpass : Passes read) (hv : Form .value v) (ha : Gap after)
    (hb : Gap before) (hr : Ends rest)
    (h : (do
      let (x, bs) ← field name earlier read (after ++ code ':' :: (before ++ (v ++ rest)))
      return (set x, bs)) = Except.ok (m', left)) :
    earlier = none ∧ left = rest ∧ ∃ x, m' = set x := by
  obtain ⟨⟨x, r⟩, hfield, h⟩ := bind_eq_ok h
  obtain ⟨rfl, rfl⟩ := Prod.mk.inj (Except.ok.inj h)
  obtain ⟨hm, hleft⟩ := eq_of_field hpass hv ha hb hr hfield
  exact ⟨hm, hleft, x, rfl⟩

/-- A member that is read counts towards its field, and the text goes on behind its value. -/
theorem count_of_member (hv : Form .value e.value) (ha : Gap after) (hb : Gap before)
    (hr : Ends rest)
    (h : member e.key m (after ++ code ':' :: (before ++ (e.value ++ rest))) = .ok (m', left)) :
    left = rest ∧
      ∀ key ∈ fieldKeys, m'.count key = m.count key + (valuesOf key [e]).length := by
  unfold member at h
  split at h
  · rename_i hk
    obtain ⟨hm, hleft, n, rfl⟩ := eq_of_set (fun n => { m with epoch := some n })
      passes_readWord64 hv ha hb hr h
    exact ⟨hleft, by simp [fieldKeys, Members.count, valuesOf, hk, hm]⟩
  split at h
  · rename_i hk
    obtain ⟨hm, hleft, ss, rfl⟩ := eq_of_set (fun ss => { m with layoutServers := some ss })
      passes_readTexts hv ha hb hr h
    exact ⟨hleft, by simp [fieldKeys, Members.count, valuesOf, hk, hm]⟩
  split at h
  · rename_i hk
    obtain ⟨hm, hleft, ss, rfl⟩ := eq_of_set (fun ss => { m with sequencers := some ss })
      passes_readTexts hv ha hb hr h
    exact ⟨hleft, by simp [fieldKeys, Members.count, valuesOf, hk, hm]⟩
  split at h
  · rename_i hk
    obtain ⟨hm, hleft, ss, rfl⟩ := eq_of_set (fun ss => { m with logServers := some ss })
      passes_readTexts hv ha hb hr h
    exact ⟨hleft, by simp [fieldKeys, Members.count, valuesOf, hk, hm]⟩
  · rename_i h₁ h₂ h₃ h₄
    rw [readColon_gap ha] at h
    simp only [bind, Except.bind, Skip.value_of_form hb hv hr] at h
    obtain ⟨rfl, rfl⟩ := Prod.mk.inj (Except.ok.inj h)
    exact ⟨rfl, by simp [fieldKeys, valuesOf, h₁, h₂, h₃, h₄]⟩

theorem length_valuesOf_cons (key : String) (e : Entry) (entries : List Entry) :
    (valuesOf key (e :: entries)).length
      = (valuesOf key [e]).length + (valuesOf key entries).length := by
  rw [← List.length_append, valuesOf, valuesOf, valuesOf, ← List.map_append, ← List.filter_append]
  rfl

/-- Where members are read, the first is counted, and the others are read behind it. -/
theorem count_of_first (h : Spaced EntryForm e v) (hv : Form .value e.value) (hg : Gap gap)
    (hr : Ends rest) {fuel : Nat} {first : Bool}
    (hread : readMembers fuel first m (gap ++ (lead first ++ (v ++ rest))) = .ok (m', left)) :
    ∃ fuel' m'' gap', Gap gap' ∧ readMembers fuel' false m'' (gap' ++ rest) = .ok (m', left) ∧
      ∀ key ∈ fieldKeys, m''.count key = m.count key + (valuesOf key [e]).length := by
  obtain ⟨hb, ⟨hk, hmid, hval⟩, ha⟩ := h
  cases fuel with
  | zero => cases hread
  | succ fuel =>
    simp only [List.append_assoc, List.cons_append] at hread
    rw [readMembers_step hk hg hb] at hread
    obtain ⟨⟨m'', r⟩, hmember, hread⟩ := bind_eq_ok hread
    obtain ⟨rfl, hcount⟩ := count_of_member hv hmid hval (ends_gap ha hr) hmember
    exact ⟨fuel, m'', _, ha, hread, hcount⟩

/-- Of members that are read, each was counted. -/
theorem count_of_readMembers (h : Commas (Spaced EntryForm) entries v) (rest : Bytes) :
    ∀ fuel first m gap, (∀ e ∈ entries, Form .value e.value) → Gap gap →
      readMembers fuel first m (gap ++ (lead first ++ (v ++ code '\x7d' :: rest)))
        = .ok (m', left) →
      ∀ key ∈ fieldKeys, m'.count key = m.count key + (valuesOf key entries).length := by
  -- Nothing is said of the fuel: where it does not suffice, nothing is read.
  induction h with
  | one h =>
    intro fuel first m gap hv hg hread
    obtain ⟨fuel', m'', gap', hg', hread', hcount⟩ :=
      count_of_first h (hv _ List.mem_cons_self) hg (ends_cons (by simp)) hread
    cases fuel' with
    | zero => cases hread'
    | succ fuel' =>
      rw [readMembers_end hg'] at hread'
      obtain ⟨rfl, -⟩ := Prod.mk.inj (Except.ok.inj hread')
      exact hcount
  | @more e entries _ _ h _ ih =>
    intro fuel first m gap hv hg hread key hkey
    rw [List.append_assoc] at hread
    obtain ⟨fuel', m'', gap', hg', hread', hcount⟩ :=
      count_of_first h (hv _ List.mem_cons_self) hg (ends_cons (by simp)) hread
    have hrest := ih fuel' false m'' gap' (fun d hd => hv d (List.mem_cons_of_mem e hd)) hg' hread'
      key hkey
    rw [hrest, hcount key hkey, length_valuesOf_cons key e entries, Nat.add_assoc]

end Counting

end Synod.Json
