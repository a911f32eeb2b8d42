import UtilityCss.OrderedMap
import UtilityCss.Text.Basic
/-!
# The longest key that fits

Rule tables and namespaces are searched from the longest key to the shortest one, and the first key
that fits counts. If different keys of one length never fit together, as two beginnings of one text
do not, then what is found is the longest key that fits, and the order of the entries does not
matter.
-/

namespace UtilityCss

namespace OrderedMap

variable {α : Type} {m m' : OrderedMap Text α} {fits : Text → Bool} {k : Text} {a : α}

/-- The entry that is found when a map is searched from its longest key to its shortest one. -/
def longest? (m : OrderedMap Text α) (fits : Text → Bool) : Option (Text × α) :=
  (m.entries.mergeSort fun e f => f.1.length ≤ e.1.length).find? fun e => fits e.1

/-- A key fits, and no longer key of the map does. -/
structure IsLongest (m : OrderedMap Text α) (fits : Text → Bool) (k : Text) : Prop where
  mem : k ∈ m.keys
  fitting : fits k = true
  longest : ∀ k' ∈ m.keys, fits k' = true → k'.length ≤ k.length

/-- Different keys of one length do not fit together. -/
def FitApart (fits : Text → Bool) : Prop :=
  ∀ k k', fits k = true → fits k' = true → k.length = k'.length → k = k'

/-- Behind a key there are no longer ones. -/
theorem pairwise_mergeSort_length (entries : List (Text × α)) :
    (entries.mergeSort fun e f => f.1.length ≤ e.1.length).Pairwise
      fun e f => f.1.length ≤ e.1.length := by
  have hsorted : (entries.mergeSort fun e f => f.1.length ≤ e.1.length).Pairwise
      fun e f => decide (f.1.length ≤ e.1.length) = true :=
    List.pairwise_mergeSort (fun e f g hef hfg => by simp only [decide_eq_true_eq] at *; omega)
      (fun e f => by simp only [Bool.or_eq_true, decide_eq_true_eq]; omega) entries
  simpa only [decide_eq_true_eq] using hsorted

/-- What a search finds is in the map, and what it has passed over does not fit. -/
theorem isLongest_of_longest? (h : m.longest? fits = some (k, a)) :
    m.IsLongest fits k ∧ m.get? k = some a := by
  obtain ⟨hfits, passed, rest, hsorted, hpassed⟩ := List.find?_eq_some_iff_append.1 h
  have hperm := List.mergeSort_perm m.entries fun e f => f.1.length ≤ e.1.length
  have horder := pairwise_mergeSort_length m.entries
  have hmem : (k, a) ∈ m.entries := hperm.mem_iff.1 (hsorted ▸ by simp)
  refine ⟨⟨List.mem_map_of_mem hmem, hfits, fun k' hk' hfits' => ?_⟩, get?_eq_some_iff.2 hmem⟩
  obtain ⟨e, he, rfl⟩ := List.mem_map.1 hk'
  have hplace := hperm.mem_iff.2 he
  rw [hsorted] at horder hplace
  rw [List.mem_append, List.mem_cons] at hplace
  rcases hplace with hbefore | rfl | hbehind
  · have hnot := hpassed e hbefore
    rw [hfits'] at hnot
    contradiction
  · exact Nat.le_refl _
  · exact (List.pairwise_cons.1 (List.pairwise_append.1 horder).2.1).1 e hbehind

/-- A search fails if no key fits. -/
theorem longest?_eq_none_iff : m.longest? fits = none ↔ ∀ k ∈ m.keys, fits k = false := by
  simp [longest?, keys]

/-- **A search finds the longest key that fits.** -/
theorem longest?_eq_some_iff (hapart : FitApart fits) :
    m.longest? fits = some (k, a) ↔ m.IsLongest fits k ∧ m.get? k = some a := by
  refine ⟨isLongest_of_longest?, fun ⟨hlongest, hget⟩ => ?_⟩
  cases hfound : m.longest? fits with
  | none =>
    have hnot := longest?_eq_none_iff.1 hfound k hlongest.mem
    rw [hlongest.fitting] at hnot
    contradiction
  | some e =>
    -- What is found is a longest key as well, so it has the same length.
    obtain ⟨hlongest', hget'⟩ := isLongest_of_longest? (k := e.1) (a := e.2) hfound
    have hlength := Nat.le_antisymm (hlongest.longest _ hlongest'.mem hlongest'.fitting)
      (hlongest'.longest _ hlongest.mem hlongest.fitting)
    have hkey := hapart _ _ hlongest'.fitting hlongest.fitting hlength
    rw [hkey, hget] at hget'
    rw [← hkey, Option.some.inj hget']

theorem IsLongest.congr (h : ∀ k, m.get? k = m'.get? k) (hk : m.IsLongest fits k) :
    m'.IsLongest fits k := by
  have hkeys : ∀ k', k' ∈ m.keys ↔ k' ∈ m'.keys := fun k' => by rw [mem_keys_iff, mem_keys_iff, h]
  exact ⟨(hkeys k).1 hk.mem, hk.fitting, fun k' hk' => hk.longest k' ((hkeys k').2 hk')⟩

/-- **The order of the entries does not matter** to a search. -/
theorem longest?_congr (hapart : FitApart fits) (h : ∀ k, m.get? k = m'.get? k) :
    m.longest? fits = m'.longest? fits := by
  refine Option.ext fun e => ?_
  rw [longest?_eq_some_iff hapart (k := e.1) (a := e.2), longest?_eq_some_iff hapart, h]
  exact and_congr_left fun _ => ⟨IsLongest.congr h, IsLongest.congr fun k => (h k).symm⟩

end OrderedMap

end UtilityCss
