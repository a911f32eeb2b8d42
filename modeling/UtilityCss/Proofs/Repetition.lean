import Mathlib.Data.List.Basic
import Mathlib.Data.List.Induction
/-!
# Lists without repetition

Class names, paths and files are listed once, each at its first place. Here is what becomes of such
a list when it grows at its end or is seen through a function, and that a list without repetition
stays as it is.
-/

namespace UtilityCss

variable {α β : Type} [BEq α] [LawfulBEq α] [BEq β] [LawfulBEq β]

theorem nodup_eraseDups : ∀ as : List α, as.eraseDups.Nodup
  | [] => by simp
  | a :: as => by
    rw [List.eraseDups_cons, List.nodup_cons]
    exact ⟨by simp [List.mem_eraseDups], nodup_eraseDups _⟩
termination_by as => as.length
decreasing_by exact Nat.lt_succ_of_le (List.length_filter_le _ _)

/-- A list without repetition stays as it is. -/
theorem eraseDups_of_nodup {as : List α} (h : as.Nodup) : as.eraseDups = as := by
  induction as with
  | nil => rfl
  | cons a as ih =>
    obtain ⟨hnew, hrest⟩ := List.nodup_cons.1 h
    have hkept : as.filter (fun b => !b == a) = as := by
      rw [List.filter_eq_self]
      intro b hb
      have hne : b ≠ a := fun heq => hnew (heq ▸ hb)
      simpa using hne
    rw [List.eraseDups_cons, hkept, ih hrest]

/-- A list that grows at its end gets a new last element, unless it has the element already. -/
theorem eraseDups_concat (as : List α) (a : α) :
    (as ++ [a]).eraseDups = if a ∈ as then as.eraseDups else as.eraseDups ++ [a] := by
  rw [List.eraseDups_append]
  by_cases h : a ∈ as
  · have hnone : [a].removeAll as = [] := by simp [List.removeAll, h]
    rw [if_pos h, hnone, List.eraseDups_nil, List.append_nil]
  · have hsame : [a].removeAll as = [a] := by simp [List.removeAll, h]
    rw [if_neg h, hsame]
    rfl

/-- The elements are listed in the order in which they occur first. -/
theorem pairwise_idxOf_eraseDups (as : List α) :
    as.eraseDups.Pairwise fun a b => as.idxOf a < as.idxOf b := by
  induction as using List.reverseRecOn with
  | nil => rw [List.eraseDups_nil]; exact .nil
  | append_singleton as c ih =>
    -- What occurs in `as` stays where it is, and `c` comes behind `as` if it is new.
    have hplace : ∀ a ∈ as.eraseDups, (as ++ [c]).idxOf a = as.idxOf a := by
      intro a ha
      exact List.idxOf_append_of_mem (List.mem_eraseDups.1 ha)
    have hkept : as.eraseDups.Pairwise fun a b => (as ++ [c]).idxOf a < (as ++ [c]).idxOf b := by
      refine ih.imp_of_mem ?_
      intro a b ha hb hlt
      rw [hplace a ha, hplace b hb]
      exact hlt
    rw [eraseDups_concat]
    split
    · exact hkept
    · next hnew =>
      refine List.pairwise_append.2 ⟨hkept, List.pairwise_singleton _ _, ?_⟩
      intro a ha b hb
      rw [hplace a ha, List.mem_singleton.1 hb, List.idxOf_append_of_notMem hnew]
      exact Nat.lt_of_lt_of_le (List.idxOf_lt_length_of_mem (List.mem_eraseDups.1 ha))
        (Nat.le_add_right _ _)

/-- Repetitions are the same before and behind a function that tells the elements apart. -/
theorem eraseDups_map {f : α → β} : ∀ as : List α, (∀ a ∈ as, ∀ b ∈ as, f a = f b → a = b) →
    (as.map f).eraseDups = as.eraseDups.map f
  | [], _ => rfl
  | a :: as, h => by
    have hfilter : (as.map f).filter (fun b => !b == f a) = (as.filter fun b => !b == a).map f := by
      rw [List.filter_map]
      refine congrArg (List.map f) (List.filter_congr fun b hb => ?_)
      have hiff : f b = f a ↔ b = a := ⟨h b (.tail _ hb) a (.head _), congrArg f⟩
      rw [Function.comp_apply, Bool.not_eq_eq_eq_not, Bool.not_not, Bool.eq_iff_iff, beq_iff_eq,
        beq_iff_eq]
      exact hiff
    have hrest : ∀ b ∈ as.filter (fun b => !b == a), ∀ b' ∈ as.filter (fun b => !b == a),
        f b = f b' → b = b' :=
      fun b hb b' hb' =>
        h b (.tail _ (List.mem_filter.1 hb).1) b' (.tail _ (List.mem_filter.1 hb').1)
    rw [List.map_cons, List.eraseDups_cons, List.eraseDups_cons, hfilter, List.map_cons,
      eraseDups_map (as.filter fun b => !b == a) hrest]
termination_by as => as.length
decreasing_by exact Nat.lt_succ_of_le (List.length_filter_le _ _)

end UtilityCss
