import UtilityCss.Proofs.Config.Members
import UtilityCss.Proofs.Json.Reading
/-!
# Repeated keys

Where keys have to be distinct, the keys of an object are looked at as soon as the object ends. That
takes one more call, and to report a repeated key takes another one. So there are two ways for an
object to be in the way: it repeats a key, or it is so deep inside that no call is left for its
keys. A value in which all arrays and objects have found room is read as it stands unless an object
is in the way, and the first one, in the order in which objects end, decides what is reported.
-/

namespace UtilityCss.Json

variable {key : Text} {v : Json} {text : Text} {policy : KeyPolicy} {depth : Nat}

/-! ## Objects in the order in which they end -/

/-- The end of an object. -/
structure Closing where
  /-- How many arrays and objects are around the object. -/
  depth : Nat
  members : List (Text × Json)

mutual

/-- The ends of the objects in a value that stands inside of `depth` arrays and objects. -/
def closings (depth : Nat) : Json → List Closing
  | arr items => itemClosings (depth + 1) items
  | obj members => memberClosings (depth + 1) members ++ [⟨depth, members⟩]
  | _ => []

/-- The ends of the objects in the items of an array. -/
def itemClosings (depth : Nat) : List Json → List Closing
  | [] => []
  | v :: vs => v.closings depth ++ itemClosings depth vs

/-- The ends of the objects in the members of an object. -/
def memberClosings (depth : Nat) : List (Text × Json) → List Closing
  | [] => []
  | (_, v) :: rest => v.closings depth ++ memberClosings depth rest

end

mutual

/-- If no object in a value repeats a key, its keys are distinct at every depth. -/
theorem distinct_of_closings : ∀ (v : Json) (depth : Nat),
    (∀ c ∈ v.closings depth, (c.members.map Prod.fst).Nodup) → v.Distinct
  | .arr items, depth, h => .arr (distinct_of_itemClosings items (depth + 1) h)
  | .obj members, depth, h => by
    rw [closings, List.forall_mem_append, List.forall_mem_singleton] at h
    exact .obj h.2 (distinct_of_memberClosings members (depth + 1) h.1)
  | .null, _, _ => .null
  | .bool b, _, _ => .bool b
  | .int i, _, _ => .int i
  | .float x, _, _ => .float x
  | .str s, _, _ => .str s

theorem distinct_of_itemClosings : ∀ (items : List Json) (depth : Nat),
    (∀ c ∈ itemClosings depth items, (c.members.map Prod.fst).Nodup) → ∀ v ∈ items, v.Distinct
  | [], _, _ => by simp
  | v :: vs, depth, h => by
    rw [itemClosings, List.forall_mem_append] at h
    exact List.forall_mem_cons.2
      ⟨distinct_of_closings v depth h.1, distinct_of_itemClosings vs depth h.2⟩

theorem distinct_of_memberClosings : ∀ (members : List (Text × Json)) (depth : Nat),
    (∀ c ∈ memberClosings depth members, (c.members.map Prod.fst).Nodup) →
      ∀ m ∈ members, m.2.Distinct
  | [], _, _ => by simp
  | (_, v) :: rest, depth, h => by
    rw [memberClosings, List.forall_mem_append] at h
    exact List.forall_mem_cons.2
      ⟨distinct_of_closings v depth h.1, distinct_of_memberClosings rest depth h.2⟩

end

/-! ## Objects in the way -/

/-- There is no call left to look at the keys of an object, or one of them is repeated. -/
def Closing.Obstructs (c : Closing) : Prop :=
  nestingLimit ≤ c.depth + 1 ∨ ¬(c.members.map Prod.fst).Nodup

instance (c : Closing) : Decidable c.Obstructs :=
  inferInstanceAs (Decidable (nestingLimit ≤ c.depth + 1 ∨ ¬(c.members.map Prod.fst).Nodup))

/-- What is reported about an object that is in the way: a key that it repeats, unless it is too
deep inside for that. -/
def Closing.Reports (c : Closing) (e : ReadError) : Prop :=
  if c.depth + 2 < nestingLimit then
    ∃ key, 2 ≤ (c.members.map Prod.fst).count key ∧ e = .duplicateKey key
  else ∃ call, e = .nestedTooDeep call

theorem Closing.reports_duplicateKey {c : Closing} (hroom : c.depth + 2 < nestingLimit)
    (hkey : 2 ≤ (c.members.map Prod.fst).count key) : c.Reports (.duplicateKey key) := by
  rw [Reports, if_pos hroom]
  exact ⟨key, hkey, rfl⟩

theorem Closing.reports_nestedTooDeep {c : Closing} (hdeep : nestingLimit ≤ c.depth + 2)
    (call : DeepCall) : c.Reports (.nestedTooDeep call) := by
  rw [Reports, if_neg (Nat.not_lt.2 hdeep)]
  exact ⟨call, rfl⟩

/-- The first object in a value that is in the way. -/
def firstObstacle? (v : Json) : Option Closing := (v.closings 0).find? (·.Obstructs)

/-- A value without an object in the way has distinct keys. -/
theorem distinct_of_firstObstacle? (h : v.firstObstacle? = none) : v.Distinct := by
  refine distinct_of_closings v 0 fun c hc => ?_
  have hfree : ¬c.Obstructs := fun hobstructs =>
    List.find?_eq_none.1 h c hc (decide_eq_true hobstructs)
  exact not_not.1 (not_or.1 hfree).2

/-- The first key that is found again is one that was seen before, or it occurs twice. -/
theorem of_firstRepeated?_eq_some {seen keys : List Text}
    (h : firstRepeated? seen keys = some key) : key ∈ keys ∧ (key ∈ seen ∨ 2 ≤ keys.count key) := by
  induction keys generalizing seen with
  | nil => contradiction
  | cons k keys ih =>
    rw [firstRepeated?] at h
    split at h
    · next hseen =>
      obtain rfl := Option.some.inj h
      exact ⟨List.mem_cons_self, .inl hseen⟩
    · obtain ⟨hmem, hagain⟩ := ih h
      refine ⟨List.mem_cons_of_mem _ hmem, ?_⟩
      rcases hagain with hagain | htwice
      · rcases List.mem_cons.1 hagain with rfl | hagain
        · have hpos := List.count_pos_iff.2 hmem
          exact .inr (by rw [List.count_cons_self]; omega)
        · exact .inl hagain
      · exact .inr (htwice.trans (List.count_le_count_cons ..))

/-- If no key is found again, all are distinct and none was seen before. -/
theorem firstRepeated?_eq_none {seen keys : List Text} (h : firstRepeated? seen keys = none) :
    keys.Nodup ∧ ∀ k ∈ keys, k ∉ seen := by
  induction keys generalizing seen with
  | nil => simp
  | cons k keys ih =>
    rw [firstRepeated?] at h
    split at h
    · contradiction
    · next hseen =>
      obtain ⟨hnodup, hnew⟩ := ih h
      refine ⟨List.nodup_cons.2 ⟨fun hmem => hnew k hmem List.mem_cons_self, hnodup⟩, ?_⟩
      rintro k' hk'
      rcases List.mem_cons.1 hk' with rfl | hk'
      · exact hseen
      · exact fun hmem => hnew k' hk' (List.mem_cons_of_mem _ hmem)

/-- An object that is not in the way is closed as it stands, and one that is in the way is
reported. -/
theorem closeObject_distinct (c : Closing) :
    (¬c.Obstructs ∧ closeObject .distinct c.depth c.members = .ok (.obj c.members)) ∨
    c.Obstructs ∧ ∃ e, closeObject .distinct c.depth c.members = .error e ∧ c.Reports e := by
  unfold closeObject Closing.Obstructs
  dsimp only
  by_cases hdeep : nestingLimit ≤ c.depth + 1
  · rw [if_pos hdeep]
    exact .inr ⟨.inl hdeep, _, rfl, c.reports_nestedTooDeep (Nat.le_succ_of_le hdeep) _⟩
  · rw [if_neg hdeep]
    cases hkeys : firstRepeated? [] (c.members.map Prod.fst) with
    | none => exact .inl ⟨not_or.2 ⟨hdeep, not_not.2 (firstRepeated?_eq_none hkeys).1⟩, rfl⟩
    | some key =>
      obtain ⟨-, hseen | htwice⟩ := of_firstRepeated?_eq_some hkeys
      · contradiction
      · have hrepeats : ¬(c.members.map Prod.fst).Nodup := fun hnodup => by
          have hone := List.nodup_iff_count_le_one.1 hnodup key
          omega
        refine .inr ⟨.inr hrepeats, _, rfl, ?_⟩
        by_cases hreport : nestingLimit ≤ c.depth + 2
        · rw [if_pos hreport]
          exact c.reports_nestedTooDeep hreport _
        · rw [if_neg hreport]
          exact c.reports_duplicateKey (Nat.not_le.1 hreport) htwice

/-! ## Reading with distinct keys -/

/-- What becomes of something in which some objects end: the first of them that is in the way is
reported, and without one it stays as it is. -/
def Judged {α : Type} (closings : List Closing) (x : Except ReadError α) (a : α) : Prop :=
  match closings.find? (·.Obstructs) with
  | none => x = .ok a
  | some c => ∃ e, x = .error e ∧ c.Reports e

section Judging

variable {α β : Type} {cs cs' : List Closing} {x : Except ReadError α} {a : α}

theorem judged_ok (a : α) : Judged [] (.ok a) a := rfl

theorem judged_closeObject (c : Closing) :
    Judged [c] (closeObject .distinct c.depth c.members) (.obj c.members) := by
  unfold Judged
  rcases closeObject_distinct c with ⟨hfree, hok⟩ | ⟨hobstructs, herror⟩
  · rw [List.find?_singleton, if_neg (by simpa using hfree)]
    exact hok
  · rw [List.find?_singleton, if_pos (by simpa using hobstructs)]
    exact herror

/-- What comes first decides, if there is an object in the way. -/
theorem Judged.bind {f : α → Except ReadError β} {b : β} (hx : Judged cs x a)
    (hf : Judged cs' (f a) b) : Judged (cs ++ cs') (x >>= f) b := by
  unfold Judged at hx ⊢
  rw [List.find?_append]
  cases hfirst : cs.find? (·.Obstructs) with
  | none =>
    rw [hfirst] at hx
    rw [hx]
    exact hf
  | some c =>
    rw [hfirst] at hx
    obtain ⟨e, rfl, hreports⟩ := hx
    exact ⟨e, rfl, hreports⟩

/-- What is made of something that was read does not matter. -/
theorem Judged.then_ok (hx : Judged cs x a) (f : α → β) :
    Judged cs (x >>= fun a => .ok (f a)) (f a) := by
  have hthen : Judged (cs ++ []) (x >>= fun a => .ok (f a)) (f a) := hx.bind (judged_ok (f a))
  rwa [List.append_nil] at hthen

end Judging

mutual

/-- A value that is accepted under some policy is left as it is, or the first object in the way is
reported. -/
theorem settle_distinct : ∀ (v : Json) (depth : Nat), (∃ w, settle policy depth v = .ok w) →
    Judged (v.closings depth) (settle .distinct depth v) v
  | .arr items, depth, ⟨w, hw⟩ => by
    rw [settle] at hw ⊢
    split at hw
    · contradiction
    · next hdepth =>
      rw [if_neg hdepth]
      obtain ⟨ws, hws, -⟩ := bind_eq_ok.1 hw
      exact (settleItems_distinct items (depth + 1) ⟨ws, hws⟩).then_ok arr
  | .obj members, depth, ⟨w, hw⟩ => by
    rw [settle] at hw ⊢
    split at hw
    · contradiction
    · next hdepth =>
      rw [if_neg hdepth]
      obtain ⟨ms, hms, -⟩ := bind_eq_ok.1 hw
      exact (settleMembers_distinct members (depth + 1) ⟨ms, hms⟩).bind
        (judged_closeObject ⟨depth, members⟩)
  | .null, _, _ => rfl
  | .bool _, _, _ => rfl
  | .int _, _, _ => rfl
  | .float _, _, _ => rfl
  | .str _, _, _ => rfl

theorem settleItems_distinct : ∀ (items : List Json) (depth : Nat),
    (∃ ws, settleItems policy depth items = .ok ws) →
    Judged (itemClosings depth items) (settleItems .distinct depth items) items
  | [], _, _ => rfl
  | v :: vs, depth, ⟨ws, hws⟩ => by
    rw [settleItems] at hws ⊢
    obtain ⟨w, hw, hrest⟩ := bind_eq_ok.1 hws
    obtain ⟨rest, hrest, -⟩ := bind_eq_ok.1 hrest
    exact (settle_distinct v depth ⟨w, hw⟩).bind
      ((settleItems_distinct vs depth ⟨rest, hrest⟩).then_ok (v :: ·))

theorem settleMembers_distinct : ∀ (members : List (Text × Json)) (depth : Nat),
    (∃ ms, settleMembers policy depth members = .ok ms) →
    Judged (memberClosings depth members) (settleMembers .distinct depth members) members
  | [], _, _ => rfl
  | (k, v) :: ms, depth, ⟨ws, hws⟩ => by
    rw [settleMembers] at hws ⊢
    obtain ⟨w, hw, hrest⟩ := bind_eq_ok.1 hws
    obtain ⟨rest, hrest, -⟩ := bind_eq_ok.1 hrest
    exact (settle_distinct v depth ⟨w, hw⟩).bind
      ((settleMembers_distinct ms depth ⟨rest, hrest⟩).then_ok ((k, v) :: ·))

end

/-- **A text that is accepted under some policy** is read as it stands, or the first object in the
way is reported. -/
theorem read_distinct (hwrites : Writes text v) (h : ∃ w, read policy text = .ok w) :
    match v.firstObstacle? with
    | none => read .distinct text = .ok v
    | some c => ∃ e, read .distinct text = .error e ∧ c.Reports e := by
  rw [read_of_writes hwrites] at h ⊢
  exact settle_distinct v 0 h

/-- What is read with distinct keys was written, and no key in it is repeated. -/
theorem of_read_distinct (hwrites : Writes text v) (h : ∃ w, read .distinct text = .ok w) :
    read .distinct text = .ok v ∧ v.Distinct := by
  have hjudged := read_distinct hwrites h
  cases hfirst : v.firstObstacle? with
  | none =>
    rw [hfirst] at hjudged
    exact ⟨hjudged, distinct_of_firstObstacle? hfirst⟩
  | some c =>
    rw [hfirst] at hjudged
    obtain ⟨e, herror, -⟩ := hjudged
    obtain ⟨w, hw⟩ := h
    rw [herror] at hw
    contradiction

/-! ## Objects deep inside -/

section Deep

variable {n : Nat} {cs : List CodePoint}

/-- A value inside of so many arrays. -/
def inArrays : Nat → Json → Json
  | 0, v => v
  | n + 1, v => .arr [inArrays n v]

/-- A value inside of arrays is read as the value at its depth, if there is room for the arrays. -/
theorem settle_inArrays (h : depth + n ≤ nestingLimit) :
    settle policy depth (inArrays n v) = (settle policy (depth + n) v).map (inArrays n) := by
  induction n generalizing depth with
  | zero =>
    rw [inArrays, Nat.add_zero]
    cases settle policy depth v <;> rfl
  | succ n ih =>
    have hinner : settle policy (depth + 1) (inArrays n v) =
        (settle policy (depth + (n + 1)) v).map (inArrays n) := by
      rw [ih (by omega), Nat.add_right_comm, Nat.add_assoc]
    rw [inArrays, settle, if_neg (by omega), settleItems, settleItems, hinner]
    cases settle policy (depth + (n + 1)) v <;> rfl

theorem yield_inArrays : (inArrays n v).yield =
    List.replicate n .openBracket ++ (v.yield ++ List.replicate n .closeBracket) := by
  induction n with
  | zero => simp [inArrays]
  | succ n ih =>
    rw [inArrays, yield, moreItems, ih, List.replicate_succ, List.replicate_succ']
    simp

theorem tokensFrom_openBrackets (fuel offset : Nat) :
    (tokensFrom (fuel + n) offset (List.replicate n (.char '[') ++ cs)).map Located.token =
      List.replicate n .openBracket ++ (tokensFrom fuel (offset + n) cs).map Located.token := by
  induction n generalizing offset with
  | zero => rfl
  | succ n ih =>
    have hrest := ih (offset + 1)
    rw [Nat.add_assoc, Nat.add_comm 1] at hrest
    exact congrArg (Token.openBracket :: ·) hrest

theorem tokensFrom_closeBrackets (fuel offset : Nat) :
    (tokensFrom (fuel + n) offset (List.replicate n (.char ']'))).map Located.token =
      List.replicate n .closeBracket := by
  induction n generalizing offset with
  | zero => cases fuel <;> rfl
  | succ n ih => exact congrArg (Token.closeBracket :: ·) (ih (offset + 1))

/-- An object that repeats a key. -/
def repeatingText : Text := "\x7b\"a\":1,\"a\":2\x7d"

/-- The value that it writes. -/
def repeatingValue : Json := .obj [("a", .int 1), ("a", .int 2)]

theorem tokensFrom_repeatingText (fuel offset : Nat) :
    (tokensFrom (fuel + 9) offset (repeatingText.toList ++ cs)).map Located.token =
      repeatingValue.yield ++ (tokensFrom fuel (offset + 13) cs).map Located.token := rfl

/-- The object inside of so many arrays. -/
def deepText (n : Nat) : Text :=
  .ofList (List.replicate n (.char '[') ++
    (repeatingText.toList ++ List.replicate n (.char ']')))

theorem writes_deepText (n : Nat) : Writes (deepText n) (inArrays n repeatingValue) := by
  have hobject : repeatingText.toList.length = 13 := rfl
  have hlength : (deepText n).toList.length + 1 = 5 + n + 9 + n := by
    simp only [deepText, List.length_append, List.length_replicate, hobject]
    omega
  rw [Writes, tokens, hlength, deepText, tokensFrom_openBrackets, tokensFrom_repeatingText,
    tokensFrom_closeBrackets, yield_inArrays]

/-- The object is read at its depth. -/
theorem read_deepText (policy : KeyPolicy) (h : n ≤ nestingLimit) :
    read policy (deepText n) = (settle policy n repeatingValue).map (inArrays n) := by
  rw [read_of_writes (writes_deepText n), settle_inArrays (by omega), Nat.zero_add]

end Deep

end UtilityCss.Json
