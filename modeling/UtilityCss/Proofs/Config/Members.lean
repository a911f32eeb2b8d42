import UtilityCss.Proofs.Config.Containment
/-!
# Members of a configuration object

In an object that was read, no key occurs twice, and neither does one in the objects inside it.
Which member sets a setting depends on the members under its two spellings alone: without one the
setting keeps its value, one member sets it, and two are an error.
-/

namespace UtilityCss

/-! ## Distinct keys -/

/-- No object in a value, at any depth, has two members with the same key. -/
inductive Json.Distinct : Json → Prop
  | null : Distinct .null
  | bool (value : Bool) : Distinct (.bool value)
  | int (value : Int) : Distinct (.int value)
  | float (value : Float) : Distinct (.float value)
  | str (value : Text) : Distinct (.str value)
  | arr {items : List Json} (hitems : ∀ v ∈ items, Distinct v) : Distinct (.arr items)
  | obj {members : List (Text × Json)} (hkeys : (members.map Prod.fst).Nodup)
      (hvalues : ∀ m ∈ members, Distinct m.2) : Distinct (.obj members)

namespace Json

variable {members members' : List (Text × Json)} {key : Text} {v : Json}

theorem Distinct.keys (h : (Json.obj members).Distinct) : (members.map Prod.fst).Nodup := by
  cases h with
  | obj hkeys _ => exact hkeys

/-- Objects inside an object have distinct keys, too. -/
theorem Distinct.value (h : (Json.obj members).Distinct) (hm : (key, v) ∈ members) :
    v.Distinct := by
  cases h with
  | obj _ hvalues => exact hvalues (key, v) hm

theorem distinct_nil : (Json.obj []).Distinct := .obj .nil (by simp)

/-- An object with one more member, under a new key. -/
theorem Distinct.member (hkey : key ∉ members.map Prod.fst) (hv : v.Distinct)
    (h : (Json.obj members).Distinct) : (Json.obj ((key, v) :: members)).Distinct := by
  cases h with
  | obj hkeys hvalues =>
    refine .obj (List.nodup_cons.2 ⟨hkey, hkeys⟩) ?_
    intro m hm
    rcases List.mem_cons.1 hm with rfl | hm
    · exact hv
    · exact hvalues m hm

theorem get?_eq_some_iff (hkeys : (members.map Prod.fst).Nodup) :
    get? key members = some v ↔ (key, v) ∈ members :=
  OrderedMap.get?_eq_some_iff (m := ⟨members, hkeys⟩)

/-- The order of the members does not show in their values. -/
theorem get?_eq_of_perm (hkeys : (members.map Prod.fst).Nodup) (hperm : members'.Perm members) :
    get? key members' = get? key members := by
  have hkeys' : (members'.map Prod.fst).Nodup := (hperm.map Prod.fst).nodup_iff.2 hkeys
  refine Option.ext fun v => ?_
  rw [get?_eq_some_iff hkeys', get?_eq_some_iff hkeys, hperm.mem_iff]

/-- Members under other keys do not matter. -/
theorem get?_filter {p : Text → Bool} (hp : p key = true) (members : List (Text × Json)) :
    get? key (members.filter fun m => p m.1) = get? key members := by
  have hsame : (fun m : Text × Json => decide (p m.1 = true ∧ decide (m.1 = key) = true)) =
      fun m => decide (m.1 = key) := by
    funext m
    by_cases hm : m.1 = key
    · simp [hm, hp]
    · simp [hm]
  rw [get?, get?, List.find?_filter, hsame]

/-- There is a value for every key. -/
theorem exists_get? (h : key ∈ members.map Prod.fst) : ∃ v, get? key members = some v := by
  obtain ⟨m, hm, rfl⟩ := List.mem_map.1 h
  have hfound : (members.find? fun m' => m'.1 = m.1).isSome := List.find?_isSome.2 ⟨m, hm, by simp⟩
  obtain ⟨m', hm'⟩ := Option.isSome_iff_exists.1 hfound
  refine ⟨m'.2, ?_⟩
  rw [get?, hm', Option.map_some]

theorem get?_singleton (m : Text × Json) : get? key [m] = if m.1 = key then some m.2 else none := by
  by_cases h : m.1 = key <;> simp [get?, h]

end Json

/-! ## Spellings -/

namespace Config

variable {members : List (Text × Json)}

/-- The members under either spelling of a setting. -/
def given (name camelName : Text) (members : List (Text × Json)) : List (Text × Json) :=
  members.filter fun m => m.1 = name ∨ m.1 = camelName

theorem get?_given_name (name camelName : Text) (members : List (Text × Json)) :
    Json.get? name (given name camelName members) = Json.get? name members :=
  Json.get?_filter (p := fun key => key = name ∨ key = camelName) (by simp) members

theorem get?_given_camelName (name camelName : Text) (members : List (Text × Json)) :
    Json.get? camelName (given name camelName members) = Json.get? camelName members :=
  Json.get?_filter (p := fun key => key = name ∨ key = camelName) (by simp) members

theorem spells_of_mem_given {name camelName : Text} {m : Text × Json}
    (h : m ∈ given name camelName members) : m.1 = name ∨ m.1 = camelName := by
  simpa using (List.mem_filter.1 h).2

/-- Which member sets a field. -/
theorem find?_eq (hkeys : (members.map Prod.fst).Nodup) (f : Field) : f.find? members =
    match given f.name f.camelName members with
    | [] => .ok none
    | [m] => .ok (some m)
    | _ => .error (.problem (.bothSpellings f.name f.camelName)) := by
  have hgiven : ((given f.name f.camelName members).map Prod.fst).Nodup :=
    hkeys.sublist (List.filter_sublist.map Prod.fst)
  have hspells : ∀ m ∈ given f.name f.camelName members, m.1 = f.name ∨ m.1 = f.camelName :=
    fun m hm => spells_of_mem_given hm
  rw [Field.find?, ← get?_given_name f.name f.camelName, ← get?_given_camelName f.name f.camelName]
  generalize given f.name f.camelName members = found at hgiven hspells
  match found with
  | [] => rfl
  | [m] =>
    obtain ⟨key, v⟩ := m
    rw [Json.get?_singleton, Json.get?_singleton]
    rcases hspells _ List.mem_cons_self with hname | hcamelName
    · -- It stands under the first spelling, which may also be the second.
      obtain rfl : key = f.name := hname
      rw [if_pos rfl]
      by_cases hsame : f.name = f.camelName
      · rw [if_pos hsame]
        exact if_pos hsame
      · rw [if_neg hsame]
    · obtain rfl : key = f.camelName := hcamelName
      rw [if_pos rfl]
      by_cases hsame : f.camelName = f.name
      · rw [if_pos hsame, hsame]
        exact if_pos rfl
      · rw [if_neg hsame]
  | (key, v) :: (key', v') :: rest =>
    -- Two keys that are different are the two spellings.
    have hne : key ≠ key' := by
      rintro rfl
      simp at hgiven
    have hfirst := hspells (key, v) (by simp)
    have hsecond := hspells (key', v') (by simp)
    have hboth : ∃ w w', Json.get? f.name ((key, v) :: (key', v') :: rest) = some w ∧
        Json.get? f.camelName ((key, v) :: (key', v') :: rest) = some w' ∧
          f.name ≠ f.camelName := by
      rcases hfirst with rfl | rfl <;> rcases hsecond with h | h
      · exact absurd h.symm hne
      · exact ⟨v, v', by simp [Json.get?], by simp [Json.get?, ← h, hne], h ▸ hne⟩
      · exact ⟨v', v, by simp [Json.get?, ← h, hne], by simp [Json.get?], h ▸ hne.symm⟩
      · exact absurd h.symm hne
    obtain ⟨w, w', hw, hw', hnames⟩ := hboth
    rw [hw, hw']
    exact if_neg hnames

/-- What a field does with the members that set it. -/
theorem update_eq (hkeys : (members.map Prod.fst).Nodup) (f : Field) (c : Config) :
    f.update members c = match given f.name f.camelName members with
    | [] => .ok c
    | [m] => f.apply m.1 m.2 c
    | _ => .error (.problem (.bothSpellings f.name f.camelName)) := by
  rw [Field.update, find?_eq hkeys]
  rcases given f.name f.camelName members with _ | ⟨m, _ | ⟨m', rest⟩⟩ <;> rfl

end Config

end UtilityCss
