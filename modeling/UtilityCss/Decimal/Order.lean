/-!
# The order of doubles

Doubles other than NaN stand in a line. The place of a double in it is given by three numbers, of
which the first that differs decides: its kind with its sign, then the exponent and the mantissa,
both negated for a negative double. Both zeros have the same place. Comparisons of doubles are
comparisons of places, and never hold of NaN.
-/

namespace UtilityCss.Binary64

open Float.Model

/-- The place of a double in the order. NaN has none. -/
def place : UnpackedFloat → Option (Int × Int × Int)
  | .notANumber => none
  | .infinity .negative => some (-2, 0, 0)
  | .finite .negative mantissa exponent _ => some (-1, -exponent, -mantissa)
  | .zero _ => some (0, 0, 0)
  | .finite .positive mantissa exponent _ => some (1, exponent, mantissa)
  | .infinity .positive => some (2, 0, 0)

/-- One place comes before another. -/
def Precedes (a b : Int × Int × Int) : Prop :=
  a.1 < b.1 ∨ a.1 = b.1 ∧ (a.2.1 < b.2.1 ∨ a.2.1 = b.2.1 ∧ a.2.2 < b.2.2)

theorem Precedes.trans {a b c : Int × Int × Int} (hab : Precedes a b) (hbc : Precedes b c) :
    Precedes a c := by
  unfold Precedes at *
  omega

theorem compare_eq_lt_iff (x y : UnpackedFloat) :
    x.compare y = some .lt ↔ ∃ a b, place x = some a ∧ place y = some b ∧ Precedes a b := by
  -- Kinds and signs decide, except between two finite doubles of one sign.
  rcases x with (_ | _) | _ | _ | ⟨_ | _, m, e, _⟩ <;>
    rcases y with (_ | _) | _ | _ | ⟨_ | _, n, f, _⟩ <;>
      dsimp only [UnpackedFloat.compare, place] <;>
      simp [Precedes, Ordering.then_eq_lt, Ordering.then_eq_gt, Int.compare_eq_lt,
        Int.compare_eq_gt, Nat.compare_eq_lt, Nat.compare_eq_gt]
  rfl

theorem compare_eq_eq_iff (x y : UnpackedFloat) :
    x.compare y = some .eq ↔ ∃ a, place x = some a ∧ place y = some a := by
  rcases x with (_ | _) | _ | _ | ⟨_ | _, m, e, _⟩ <;>
    rcases y with (_ | _) | _ | _ | ⟨_ | _, n, f, _⟩ <;>
      dsimp only [UnpackedFloat.compare, place] <;>
      simp <;>
      first | rfl | omega

theorem lt_iff (x y : Float) : x < y ↔ ∃ a b, place x.toModel.unpack = some a ∧
    place y.toModel.unpack = some b ∧ Precedes a b := by
  have hlt : x < y ↔ x.toModel < y.toModel := decide_eq_true_iff
  have hcompare : x.toModel < y.toModel ↔ x.toModel.unpack.compare y.toModel.unpack = some .lt :=
    beq_iff_eq
  rw [hlt, hcompare, compare_eq_lt_iff]

theorem le_iff (x y : Float) : x ≤ y ↔ ∃ a b, place x.toModel.unpack = some a ∧
    place y.toModel.unpack = some b ∧ (Precedes a b ∨ a = b) := by
  have hle : x ≤ y ↔ x.toModel ≤ y.toModel := decide_eq_true_iff
  have hcompare : x.toModel ≤ y.toModel ↔
      (x.toModel.unpack.compare y.toModel.unpack).any (·.isLE) = true := Iff.rfl
  have hany : ∀ o : Option Ordering, o.any (·.isLE) = true ↔ o = some .lt ∨ o = some .eq := by
    rintro (_ | _ | _ | _) <;> simp
  rw [hle, hcompare, hany, compare_eq_lt_iff, compare_eq_eq_iff]
  constructor
  · rintro (⟨a, b, hx, hy, hab⟩ | ⟨a, hx, hy⟩)
    · exact ⟨a, b, hx, hy, .inl hab⟩
    · exact ⟨a, a, hx, hy, .inr rfl⟩
  · rintro ⟨a, b, hx, hy, hab | rfl⟩
    · exact .inl ⟨a, b, hx, hy, hab⟩
    · exact .inr ⟨a, hx, hy⟩

theorem beq_iff (x y : Float) : (x == y) = true ↔
    ∃ a, place x.toModel.unpack = some a ∧ place y.toModel.unpack = some a := by
  have hcompare : (x == y) = (x.toModel.unpack.compare y.toModel.unpack == some .eq) := rfl
  rw [hcompare, beq_iff_eq, compare_eq_eq_iff]

theorem lt_of_lt_of_le {x y z : Float} (hxy : x < y) (hyz : y ≤ z) : x < z := by
  rw [lt_iff] at hxy ⊢
  obtain ⟨a, b, hx, hy, hab⟩ := hxy
  obtain ⟨b', c, hy', hz, hbc⟩ := (le_iff y z).mp hyz
  obtain rfl : b = b' := by simpa [hy] using hy'
  rcases hbc with hbc | rfl
  · exact ⟨a, c, hx, hz, hab.trans hbc⟩
  · exact ⟨a, b, hx, hz, hab⟩

theorem le_of_lt {x y : Float} (h : x < y) : x ≤ y := by
  obtain ⟨a, b, hx, hy, hab⟩ := (lt_iff x y).mp h
  exact (le_iff x y).mpr ⟨a, b, hx, hy, .inl hab⟩

/-- Doubles that are above something are numbers, and of two numbers one is at most the other. -/
theorem le_of_not_lt {w x y z : Float} (hx : w < x) (hy : z < y) (h : ¬x < y) : y ≤ x := by
  obtain ⟨-, a, -, hplace, -⟩ := (lt_iff w x).mp hx
  obtain ⟨-, b, -, hplace', -⟩ := (lt_iff z y).mp hy
  have hnot : ¬Precedes a b := fun hab => h ((lt_iff x y).mpr ⟨a, b, hplace, hplace', hab⟩)
  refine (le_iff y x).mpr ⟨b, a, hplace', hplace, ?_⟩
  obtain ⟨a₁, a₂, a₃⟩ := a
  obtain ⟨b₁, b₂, b₃⟩ := b
  simp only [Precedes, Prod.mk.injEq] at hnot ⊢
  omega

theorem not_lt_self (x : Float) : ¬x < x := by
  intro h
  obtain ⟨a, b, ha, hb, hab⟩ := (lt_iff x x).mp h
  obtain rfl : a = b := by simpa [ha] using hb
  unfold Precedes at hab
  omega

end UtilityCss.Binary64
