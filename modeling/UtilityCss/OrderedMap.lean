/-!
# Maps in order of insertion

An ordered map holds one value per key and lists its keys in the order in which they were first
inserted: a new value for a known key keeps the key's place, and a key that was erased and inserted
again comes last. Rule tables, value maps, usage indexes and batches all rely on this order, since
it is the order of the rules in the generated stylesheet.
-/

namespace UtilityCss

/-- Key-value pairs in order of insertion, with no key twice. -/
structure OrderedMap (κ α : Type) where
  entries : List (κ × α)
  nodup_keys : (entries.map Prod.fst).Nodup
  deriving DecidableEq

namespace OrderedMap

variable {κ α : Type}

/-- The keys in order of insertion. -/
def keys (m : OrderedMap κ α) : List κ := m.entries.map Prod.fst

/-- The values in the order of their keys. -/
def values (m : OrderedMap κ α) : List α := m.entries.map Prod.snd

/-- The number of keys. -/
def size (m : OrderedMap κ α) : Nat := m.entries.length

/-- The map without entries. -/
def empty : OrderedMap κ α := ⟨[], by simp⟩

instance : EmptyCollection (OrderedMap κ α) := ⟨empty⟩

instance : Inhabited (OrderedMap κ α) := ⟨empty⟩

/-- Keeps the entries that satisfy `p`, in their order. -/
def filter (p : κ → α → Bool) (m : OrderedMap κ α) : OrderedMap κ α where
  entries := m.entries.filter fun (k, a) => p k a
  nodup_keys := m.nodup_keys.sublist (List.filter_sublist.map Prod.fst)

variable [DecidableEq κ]

/-- The pairs with the value of `k` replaced in place, or the new pair put at the end. -/
def insertEntry (k : κ) (a : α) : List (κ × α) → List (κ × α)
  | [] => [(k, a)]
  | (k', a') :: rest => if k' = k then (k, a) :: rest else (k', a') :: insertEntry k a rest

theorem mem_keys_insertEntry {k x : κ} {a : α} {es : List (κ × α)} :
    x ∈ (insertEntry k a es).map Prod.fst ↔ x = k ∨ x ∈ es.map Prod.fst := by
  induction es with
  | nil => simp [insertEntry]
  | cons e rest ih =>
    obtain ⟨k', a'⟩ := e
    unfold insertEntry
    split
    · next h => subst h; simp
    · simp only [List.map_cons, List.mem_cons, ih]
      grind

theorem nodup_keys_insertEntry {k : κ} {a : α} {es : List (κ × α)}
    (h : (es.map Prod.fst).Nodup) : ((insertEntry k a es).map Prod.fst).Nodup := by
  induction es with
  | nil => simp [insertEntry]
  | cons e rest ih =>
    obtain ⟨k', a'⟩ := e
    have hrest : (rest.map Prod.fst).Nodup := (List.nodup_cons.1 h).2
    have hk' : k' ∉ rest.map Prod.fst := (List.nodup_cons.1 h).1
    unfold insertEntry
    split
    · next hk => subst hk; exact h
    · next hk =>
      refine List.nodup_cons.2 ⟨fun hm => ?_, ih hrest⟩
      rcases mem_keys_insertEntry.1 hm with heq | hm
      · exact hk heq
      · exact hk' hm

/-- Gives `k` the value `a`. A known key keeps its place, a new one comes last. -/
def insert (m : OrderedMap κ α) (k : κ) (a : α) : OrderedMap κ α where
  entries := insertEntry k a m.entries
  nodup_keys := nodup_keys_insertEntry m.nodup_keys

/-- The value of a key. -/
def get? (m : OrderedMap κ α) (k : κ) : Option α :=
  (m.entries.find? fun e => e.1 = k).map Prod.snd

/-- Whether the map has the key. -/
def contains (m : OrderedMap κ α) (k : κ) : Bool :=
  m.entries.any fun e => e.1 = k

instance : Membership κ (OrderedMap κ α) := ⟨fun m k => k ∈ m.keys⟩

/-- Removes a key with its value. -/
def erase (m : OrderedMap κ α) (k : κ) : OrderedMap κ α :=
  m.filter fun k' _ => k' ≠ k

/-- Inserts pairs one after the other. -/
def insertMany (m : OrderedMap κ α) (es : List (κ × α)) : OrderedMap κ α :=
  es.foldl (fun m e => m.insert e.1 e.2) m

/-- The map that holds the pairs, the last value of a key standing at its first place. -/
def ofList (es : List (κ × α)) : OrderedMap κ α :=
  empty.insertMany es

/-- The entries of `m` overridden and extended by those of `m'`. -/
def merge (m m' : OrderedMap κ α) : OrderedMap κ α :=
  m.insertMany m'.entries

/-- Whether two maps give every key the same value, in whatever order. -/
def sameEntries [BEq α] (m m' : OrderedMap κ α) : Bool :=
  m.size == m'.size && m.entries.all fun e =>
    match m'.get? e.1 with
    | some a => a == e.2
    | none => false

theorem mem_values_of_get? {m : OrderedMap κ α} {k : κ} {a : α} (h : m.get? k = some a) :
    a ∈ m.values := by
  obtain ⟨e, he, rfl⟩ := Option.map_eq_some_iff.1 h
  exact List.mem_map_of_mem (List.mem_of_find?_eq_some he)

theorem mem_keys_insert {m : OrderedMap κ α} {k x : κ} {a : α} :
    x ∈ (m.insert k a).keys ↔ x = k ∨ x ∈ m.keys :=
  mem_keys_insertEntry

theorem get?_insertEntry {k x : κ} {a : α} {es : List (κ × α)} :
    ((insertEntry k a es).find? fun e => e.1 = x).map Prod.snd =
      if x = k then some a else (es.find? fun e => e.1 = x).map Prod.snd := by
  induction es with
  | nil =>
    by_cases h : x = k
    · simp [insertEntry, h]
    · simp [insertEntry, h, Ne.symm h]
  | cons e rest ih =>
    obtain ⟨k', a'⟩ := e
    unfold insertEntry
    by_cases hk : k' = k
    · subst hk
      by_cases hx : k' = x
      · simp [hx]
      · simp [hx, Ne.symm hx]
    · by_cases hx : k' = x
      · subst hx; simp [hk]
      · simp [hk, hx, ih]

/-- After an insertion the key has the new value and every other key its old one. -/
theorem get?_insert {m : OrderedMap κ α} {k x : κ} {a : α} :
    (m.insert k a).get? x = if x = k then some a else m.get? x :=
  get?_insertEntry

/-- The entries are the keys with their values. -/
theorem get?_eq_some_iff {m : OrderedMap κ α} {k : κ} {a : α} :
    m.get? k = some a ↔ (k, a) ∈ m.entries := by
  obtain ⟨es, hnodup⟩ := m
  simp only [get?]
  induction es with
  | nil => simp
  | cons e rest ih =>
    obtain ⟨hnot, hrest⟩ := List.nodup_cons.1 hnodup
    by_cases h : e.1 = k
    · subst h
      have hother : (e.1, a) ∉ rest := fun hmem => hnot (List.mem_map.2 ⟨_, hmem, rfl⟩)
      obtain ⟨k, b⟩ := e
      simp only [decide_true, List.find?_cons_of_pos, Option.map_some, Option.some.injEq,
        List.mem_cons, Prod.mk.injEq, true_and, hother, or_false]
      exact eq_comm
    · have hne : (k, a) ≠ e := fun heq => h (by rw [← heq])
      rw [List.find?_cons_of_neg (by simpa using h), ih hrest, List.mem_cons]
      simp [hne]

/-- The keys are those that have a value. -/
theorem mem_keys_iff {m : OrderedMap κ α} {k : κ} : k ∈ m.keys ↔ ∃ a, m.get? k = some a := by
  simp [get?_eq_some_iff, keys]

theorem get?_eq_none_iff {m : OrderedMap κ α} {k : κ} : m.get? k = none ↔ k ∉ m.keys := by
  simp [mem_keys_iff, Option.eq_none_iff_forall_ne_some]

theorem contains_iff {m : OrderedMap κ α} {k : κ} : m.contains k = true ↔ k ∈ m.keys := by
  simp [contains, keys]

/-- Values do not depend on the order of the entries. -/
theorem get?_eq_of_perm {m m' : OrderedMap κ α} (h : m.entries.Perm m'.entries) (k : κ) :
    m.get? k = m'.get? k := by
  refine Option.ext fun a => ?_
  rw [get?_eq_some_iff, get?_eq_some_iff, h.mem_iff]

/-- A key has a value in a filtered map if it has one that is kept. -/
theorem get?_filter {p : κ → α → Bool} {m : OrderedMap κ α} {k : κ} :
    (m.filter p).get? k = (m.get? k).filter (p k) := by
  refine Option.ext fun a => ?_
  rw [get?_eq_some_iff, Option.filter_eq_some_iff, get?_eq_some_iff]
  exact List.mem_filter

/-- An erased key has no value, and every other key keeps its own. -/
theorem get?_erase {m : OrderedMap κ α} {k x : κ} :
    (m.erase k).get? x = if x = k then none else m.get? x := by
  rw [erase, get?_filter]
  by_cases h : x = k
  · cases m.get? x <;> simp [h]
  · cases m.get? x <;> simp [h]

theorem keys_erase {m : OrderedMap κ α} {k : κ} : (m.erase k).keys = m.keys.filter (· ≠ k) := by
  rw [keys, keys, List.filter_map]
  rfl

/-- A new key comes last. -/
theorem keys_insert_of_not_mem {m : OrderedMap κ α} {k : κ} (a : α) (h : k ∉ m.keys) :
    (m.insert k a).keys = m.keys ++ [k] := by
  obtain ⟨es, hnodup⟩ := m
  simp only [keys, insert] at h ⊢
  clear hnodup
  induction es with
  | nil => rfl
  | cons e rest ih =>
    obtain ⟨k', a'⟩ := e
    simp only [List.map_cons, List.mem_cons, not_or] at h
    rw [insertEntry, if_neg (Ne.symm h.1)]
    simp [ih h.2]

theorem keys_insertMany_of_nodup {m : OrderedMap κ α} {es : List (κ × α)}
    (h : (m.keys ++ es.map Prod.fst).Nodup) :
    (m.insertMany es).keys = m.keys ++ es.map Prod.fst := by
  unfold insertMany
  induction es generalizing m with
  | nil => simp
  | cons e es ih =>
    have hnew : e.1 ∉ m.keys := by
      rw [List.map_cons, List.nodup_append] at h
      exact fun hmem => h.2.2 e.1 hmem e.1 List.mem_cons_self rfl
    rw [List.foldl_cons, ih, keys_insert_of_not_mem _ hnew]
    · simp
    · rw [keys_insert_of_not_mem _ hnew]
      simpa using h

/-- A key that is known keeps its place. -/
theorem keys_insert_of_mem {m : OrderedMap κ α} {k : κ} (a : α) (h : k ∈ m.keys) :
    (m.insert k a).keys = m.keys := by
  obtain ⟨es, hnodup⟩ := m
  simp only [keys, insert] at h ⊢
  clear hnodup
  induction es with
  | nil => simp at h
  | cons e rest ih =>
    obtain ⟨k', a'⟩ := e
    by_cases hk : k' = k
    · rw [insertEntry, if_pos hk, hk]
      rfl
    · have hrest : k ∈ rest.map Prod.fst := by simpa [Ne.symm hk] using h
      rw [insertEntry, if_neg hk, List.map_cons, ih hrest]
      rfl

/-- A map is given by the order of its keys and their values. -/
theorem eq_of_get? {m m' : OrderedMap κ α} (hkeys : m.keys = m'.keys)
    (hget : ∀ k, m.get? k = m'.get? k) : m = m' := by
  have hentries (m : OrderedMap κ α) :
      m.entries.map (fun e => (e.1, some e.2)) = m.keys.map fun k => (k, m.get? k) := by
    rw [keys, List.map_map]
    exact List.map_congr_left fun e he => by rw [Function.comp_apply, get?_eq_some_iff.2 he]
  have hsame : m.entries = m'.entries := by
    refine (List.map_inj_right fun e e' h => ?_).1
      ((hentries m).trans (Eq.trans ?_ (hentries m').symm))
    · exact Prod.ext (Prod.mk.inj h).1 (Option.some.inj (Prod.mk.inj h).2)
    · rw [hkeys]
      exact List.map_congr_left fun k _ => by rw [hget k]
  obtain ⟨es, hnodup⟩ := m
  obtain ⟨es', hnodup'⟩ := m'
  obtain rfl : es = es' := hsame
  rfl

/-- Known keys keep their places, and new ones come last in the order in which they first occur. -/
theorem keys_insertMany {m : OrderedMap κ α} {es : List (κ × α)} :
    (m.insertMany es).keys = m.keys ++ ((es.map Prod.fst).filter (· ∉ m.keys)).eraseDups := by
  unfold insertMany
  induction es generalizing m with
  | nil => simp
  | cons e es ih =>
    rw [List.foldl_cons, ih, List.map_cons]
    by_cases h : e.1 ∈ m.keys
    · rw [keys_insert_of_mem _ h, List.filter_cons_of_neg (by simpa using h)]
    · have hrest : (es.map Prod.fst).filter (fun k => decide (k ∉ m.keys ++ [e.1])) =
          ((es.map Prod.fst).filter (· ∉ m.keys)).filter fun k => !k == e.1 := by
        rw [List.filter_filter]
        exact List.filter_congr fun k _ => by by_cases hk : k = e.1 <;> simp [hk]
      rw [keys_insert_of_not_mem _ h, List.filter_cons_of_pos (by simpa using h),
        List.eraseDups_cons, hrest, List.append_assoc]
      rfl

/-- The order of the keys does not depend on the values that are inserted. -/
theorem keys_insertMany_congr {m m' : OrderedMap κ α} {es es' : List (κ × α)}
    (hm : m.keys = m'.keys) (hes : es.map Prod.fst = es'.map Prod.fst) :
    (m.insertMany es).keys = (m'.insertMany es').keys := by
  rw [keys_insertMany, keys_insertMany, hm, hes]

theorem mem_keys_insertMany {m : OrderedMap κ α} {es : List (κ × α)} {k : κ} :
    k ∈ (m.insertMany es).keys ↔ k ∈ es.map Prod.fst ∨ k ∈ m.keys := by
  unfold insertMany
  induction es generalizing m with
  | nil => simp
  | cons e es ih =>
    rw [List.foldl_cons, ih, mem_keys_insert, List.map_cons, List.mem_cons, or_left_comm, or_assoc]

/-- The last value that is inserted counts. -/
theorem get?_insertMany {m : OrderedMap κ α} {es : List (κ × α)} {k : κ} :
    (m.insertMany es).get? k =
      ((es.reverse.find? fun e => e.1 = k).map Prod.snd).or (m.get? k) := by
  unfold insertMany
  induction es generalizing m with
  | nil => rfl
  | cons e es ih =>
    rw [List.foldl_cons, ih, get?_insert, List.reverse_cons, List.find?_append]
    by_cases h : e.1 = k
    · cases es.reverse.find? fun e => e.1 = k <;> simp [h]
    · cases es.reverse.find? fun e => e.1 = k <;> simp [h, Ne.symm h]

/-- Pairs with distinct keys are all in the map that holds them. -/
theorem get?_ofList {es : List (κ × α)} {k : κ} {a : α} (h : (es.map Prod.fst).Nodup) :
    (ofList es).get? k = some a ↔ (k, a) ∈ es := by
  have hkeys : (es.reverse.map Prod.fst).Nodup :=
    ((List.reverse_perm es).map Prod.fst).nodup_iff.2 h
  have hlast : (ofList es).get? k = get? ⟨es.reverse, hkeys⟩ k := by
    rw [ofList, get?_insertMany]
    exact Option.or_none
  rw [hlast, get?_eq_some_iff, List.mem_reverse]

/-- A key that is not inserted keeps its value. -/
theorem get?_insertMany_of_not_mem {m : OrderedMap κ α} {es : List (κ × α)} {k : κ}
    (h : k ∉ es.map Prod.fst) : (m.insertMany es).get? k = m.get? k := by
  have hnone : es.reverse.find? (fun e => e.1 = k) = none := by
    rw [List.find?_eq_none]
    exact fun e he heq => h (List.mem_map.2 ⟨e, List.mem_reverse.1 he, by simpa using heq⟩)
  rw [get?_insertMany, hnone]
  rfl

/-- The value behind which the key does not occur again counts. -/
theorem get?_insertMany_of_last {m : OrderedMap κ α} {before after : List (κ × α)} {k : κ} {a : α}
    (h : k ∉ after.map Prod.fst) : (m.insertMany (before ++ (k, a) :: after)).get? k = some a := by
  have hsplit : m.insertMany (before ++ (k, a) :: after) =
      ((m.insertMany before).insert k a).insertMany after :=
    List.foldl_append
  rw [hsplit, get?_insertMany_of_not_mem h, get?_insert, if_pos rfl]

/-- A merged map has the overriding value of a key, or else the old one. -/
theorem get?_merge {m m' : OrderedMap κ α} {k : κ} :
    (m.merge m').get? k = (m'.get? k).or (m.get? k) := by
  have hperm := List.reverse_perm m'.entries
  have hlast := get?_eq_of_perm (m := ⟨_, (hperm.map Prod.fst).nodup_iff.2 m'.nodup_keys⟩) hperm k
  rw [merge, get?_insertMany, ← hlast]
  rfl

/-- Pairs that were inserted are forgotten when all their keys get new values. -/
theorem insertMany_insertMany {m : OrderedMap κ α} {es es' : List (κ × α)}
    (h : es.map Prod.fst = es'.map Prod.fst) :
    (m.insertMany es).insertMany es' = m.insertMany es' := by
  refine eq_of_get? ?_ fun k => ?_
  · have hknown : (es'.map Prod.fst).filter (· ∉ (m.insertMany es).keys) = [] := by
      rw [List.filter_eq_nil_iff]
      intro k hk
      simpa using mem_keys_insertMany.2 (.inl (h ▸ hk))
    rw [keys_insertMany, hknown, List.eraseDups_nil, List.append_nil]
    exact keys_insertMany_congr rfl h
  · by_cases hk : k ∈ es'.map Prod.fst
    · obtain ⟨e, he, rfl⟩ := List.mem_map.1 hk
      have hfound : (es'.reverse.find? fun e' => e'.1 = e.1).isSome := by
        rw [List.find?_isSome]
        exact ⟨e, List.mem_reverse.2 he, by simp⟩
      obtain ⟨e', he'⟩ := Option.isSome_iff_exists.1 hfound
      have hlast (m : OrderedMap κ α) : (m.insertMany es').get? e.1 = some e'.2 := by
        rw [get?_insertMany, he']
        rfl
      rw [hlast, hlast]
    · rw [get?_insertMany_of_not_mem hk, get?_insertMany_of_not_mem (h ▸ hk),
        get?_insertMany_of_not_mem hk]

end OrderedMap

end UtilityCss
