/-!
# Answers

Much of what is asked of the disk or of a text has an answer or ends with an error. Here is when
questions that are asked one after the other have an answer, and what it is.
-/

namespace UtilityCss

variable {ε α β : Type} {f : α → Except ε β} {as : List α} {bs : List β}

/-- A question that depends on the answer to another has an answer if both have one. -/
theorem bind_eq_ok {x : Except ε α} {b : β} : (x >>= f) = .ok b ↔ ∃ a, x = .ok a ∧ f a = .ok b := by
  cases x with
  | error e => exact iff_of_false nofun (by simp)
  | ok a =>
    constructor
    · intro h
      exact ⟨a, rfl, h⟩
    · rintro ⟨a', ha, h⟩
      rw [← Except.ok.inj ha] at h
      exact h

/-- Two questions have the same answer, or both have none. -/
def SameAnswer (x y : Except ε α) : Prop := ∀ a, x = .ok a ↔ y = .ok a

theorem SameAnswer.refl (x : Except ε α) : SameAnswer x x := fun _ => Iff.rfl

theorem SameAnswer.bind {x y : Except ε α} {g : α → Except ε β} (h : SameAnswer x y)
    (hfg : ∀ a, SameAnswer (f a) (g a)) : SameAnswer (x >>= f) (y >>= g) := by
  intro b
  rw [bind_eq_ok, bind_eq_ok]
  exact exists_congr fun a => and_congr (h a) (hfg a b)

theorem SameAnswer.map {x y : Except ε α} (h : SameAnswer x y) (g : α → β) :
    SameAnswer (x.map g) (y.map g) :=
  h.bind fun a => .refl (.ok (g a))

theorem map_eq_ok {x : Except ε α} {g : α → β} {b : β} :
    x.map g = .ok b ↔ ∃ a, x = .ok a ∧ g a = b := by
  cases x with
  | error e => exact iff_of_false nofun (by simp)
  | ok a => simp [Except.map]

theorem mapError_eq_ok {δ : Type} {x : Except ε α} {g : ε → δ} {a : α} :
    x.mapError g = .ok a ↔ x = .ok a := by
  cases x with
  | error e => exact ⟨nofun, nofun⟩
  | ok a' =>
    exact ⟨fun h => congrArg Except.ok (Except.ok.inj h),
      fun h => congrArg Except.ok (Except.ok.inj h)⟩

/-- An answer may be read off where errors are not told apart. -/
theorem eq_ok_of_toOption {x : Except ε α} {a : α} (h : x.toOption = some a) : x = .ok a := by
  cases x with
  | error e => cases h
  | ok a' => exact congrArg Except.ok (Option.some.inj h)

/-- All answers together are an answer if each of them is. -/
theorem mapM_cons_eq_ok {a : α} : (a :: as).mapM f = .ok bs ↔
    ∃ b bs', f a = .ok b ∧ as.mapM f = .ok bs' ∧ bs = b :: bs' := by
  rw [List.mapM_cons]
  cases hfirst : f a with
  | error e => exact iff_of_false nofun (by simp)
  | ok b =>
    cases hrest : as.mapM f with
    | error e => exact iff_of_false nofun (by simp)
    | ok bs' =>
      constructor
      · intro h
        exact ⟨b, bs', rfl, rfl, (Except.ok.inj h).symm⟩
      · rintro ⟨_, _, hb, hbs', rfl⟩
        rw [← Except.ok.inj hb, ← Except.ok.inj hbs']
        rfl

/-- There is an answer if each question has one. -/
theorem exists_mapM_eq_ok : (∃ bs, as.mapM f = .ok bs) ↔ ∀ a ∈ as, ∃ b, f a = .ok b := by
  induction as with
  | nil => exact iff_of_true ⟨[], rfl⟩ (by simp)
  | cons a as ih =>
    rw [List.forall_mem_cons, ← ih]
    constructor
    · rintro ⟨bs, h⟩
      obtain ⟨b, bs', hb, hbs', -⟩ := mapM_cons_eq_ok.1 h
      exact ⟨⟨b, hb⟩, bs', hbs'⟩
    · rintro ⟨⟨b, hb⟩, bs', hbs'⟩
      exact ⟨b :: bs', mapM_cons_eq_ok.2 ⟨b, bs', hb, hbs', rfl⟩⟩

/-- What is among the answers is the answer to one of the questions. -/
theorem mem_of_mapM_eq_ok (h : as.mapM f = .ok bs) {b : β} : b ∈ bs ↔ ∃ a ∈ as, f a = .ok b := by
  induction as generalizing bs with
  | nil =>
    obtain rfl : [] = bs := Except.ok.inj h
    simp
  | cons a as ih =>
    obtain ⟨b', bs', hb', hbs', rfl⟩ := mapM_cons_eq_ok.1 h
    have hhead : b = b' ↔ f a = .ok b := by rw [hb', Except.ok.injEq, eq_comm]
    rw [List.mem_cons, hhead, ih hbs']
    simp

end UtilityCss
