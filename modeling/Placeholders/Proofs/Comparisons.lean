import Mathlib.Data.Sum.Order
import Mathlib.Order.Compare
import Placeholders.Proofs.ByteOrder
import Placeholders.Proofs.KindSoundness
import Placeholders.Proofs.NumberRoundTrip

set_option autoImplicit false

/- The comparison operators. A value that is no `nan` has a place on one scale for all kinds, which
is a linear order, and between values of one kind the operators are the relations of their places.
So their laws are those of a linear order, and nothing but `!=` holds between other values. -/
namespace Placeholders

/-- The relation of an order that an operator stands for. -/
def Comparison.Relates {α : Type} [LT α] [LE α] : Comparison → α → α → Prop
  | .equal, x, y => x = y
  | .notEqual, x, y => x ≠ y
  | .greater, x, y => y < x
  | .greaterOrEqual, x, y => y ≤ x
  | .less, x, y => x < y
  | .lessOrEqual, x, y => x ≤ y

theorem Binary64.equal_iff_of_places {x y : Binary64} {i j : Int} (first : x.place? = some i)
    (second : y.place? = some j) : x.equal y = true ↔ i = j := by
  cases x with
  | nan => cases first
  | infinite s =>
      obtain rfl : signed s overflowUnits = i := Option.some.inj first
      cases y with
      | nan => cases second
      | infinite t =>
          obtain rfl : signed t overflowUnits = j := Option.some.inj second
          simp [equal, signed_inj, overflowUnits_pos.ne']
      | finite t n fits =>
          obtain rfl : signed t n = j := Option.some.inj second
          simp [equal, signed_inj, fits.2.ne']
  | finite s m fits =>
      obtain rfl : signed s m = i := Option.some.inj first
      cases y with
      | nan => cases second
      | infinite t =>
          obtain rfl : signed t overflowUnits = j := Option.some.inj second
          simp [equal, signed_inj, fits.2.ne]
      | finite t n fitsToo =>
          obtain rfl : signed t n = j := Option.some.inj second
          simp [equal, signed_inj]

namespace Value

def IsNan (v : Value) : Prop :=
  v = .number .nan

/-- Values of one kind, neither of them a `nan`. -/
structure Comparable (a b : Value) : Prop where
  kinds : a.kind = b.kind
  left : ¬ a.IsNan
  right : ¬ b.IsNan

/-- The place of a value on the scale, with the kinds one after another. A `nan` has none. -/
def place? : Value → Option (Int ⊕ₗ String ⊕ₗ Bool)
  | .number x => x.place?.map fun i => toLex (.inl i)
  | .text s => some (toLex (.inr (toLex (.inl s))))
  | .boolean b => some (toLex (.inr (toLex (.inr b))))

theorem exists_place_iff (v : Value) : (∃ x, v.place? = some x) ↔ ¬ v.IsNan := by
  cases v with
  | number x => cases x <;> simp [place?, IsNan, Binary64.place?]
  | text | boolean => simp [place?, IsNan]

theorem comparable_iff (a b : Value) :
    a.Comparable b ↔
      a.kind = b.kind ∧ (∃ x, a.place? = some x) ∧ ∃ y, b.place? = some y := by
  rw [exists_place_iff, exists_place_iff]
  exact ⟨fun h => ⟨h.kinds, h.left, h.right⟩, fun ⟨kinds, left, right⟩ => ⟨kinds, left, right⟩⟩

theorem Comparable.exists_places {a b : Value} (comparable : a.Comparable b) :
    ∃ x y, a.place? = some x ∧ b.place? = some y := by
  obtain ⟨-, ⟨x, first⟩, ⟨y, second⟩⟩ := (comparable_iff a b).mp comparable
  exact ⟨x, y, first, second⟩

theorem compared {a b : Value} (kinds : a.kind = b.kind) {x y : Int ⊕ₗ String ⊕ₗ Bool}
    (first : a.place? = some x) (second : b.place? = some y) :
    a.order? b = some (compare x y) ∧ (a.equal b = true ↔ x = y) := by
  cases a with
  | number p =>
      cases b with
      | number q =>
          obtain ⟨i, placeP, rfl⟩ := Option.map_eq_some_iff.mp first
          obtain ⟨j, placeQ, rfl⟩ := Option.map_eq_some_iff.mp second
          constructor
          · simp only [order?, Binary64.compare?, placeP, placeQ, ← cmp_eq_compare]
            exact congrArg some (Sum.Lex.inl_strictMono.cmp_map_eq i j).symm
          · rw [equal, Binary64.equal_iff_of_places placeP placeQ, toLex_inj, Sum.inl.injEq]
      | text | boolean => cases kinds
  | text s =>
      cases b with
      | text t =>
          obtain rfl := Option.some.inj first
          obtain rfl := Option.some.inj second
          have increasing : StrictMono fun s =>
              (toLex (.inr (toLex (.inl s))) : Int ⊕ₗ String ⊕ₗ Bool) :=
            Sum.Lex.inr_strictMono.comp Sum.Lex.inl_strictMono
          constructor
          · rw [order?, Text.order_eq_compare, ← cmp_eq_compare, ← cmp_eq_compare]
            exact congrArg some (increasing.cmp_map_eq s t).symm
          · rw [equal, beq_iff_eq, increasing.injective.eq_iff]
      | number | boolean => cases kinds
  | boolean p =>
      cases b with
      | boolean q =>
          obtain rfl := Option.some.inj first
          obtain rfl := Option.some.inj second
          have increasing : StrictMono fun b =>
              (toLex (.inr (toLex (.inr b))) : Int ⊕ₗ String ⊕ₗ Bool) :=
            Sum.Lex.inr_strictMono.comp Sum.Lex.inr_strictMono
          constructor
          · rw [order?, ← cmp_eq_compare, ← cmp_eq_compare]
            exact congrArg some (increasing.cmp_map_eq p q).symm
          · rw [equal, beq_iff_eq, increasing.injective.eq_iff]
      | number | text => cases kinds

theorem not_compared {a b : Value} (apart : ¬ a.Comparable b) :
    a.order? b = none ∧ a.equal b = false := by
  by_cases kinds : a.kind = b.kind
  · have number : a.IsNan ∨ b.IsNan := by
      by_contra neither
      rw [not_or] at neither
      exact apart ⟨kinds, neither.1, neither.2⟩
    rcases number with rfl | rfl
    · cases b with
      | number y => exact ⟨rfl, rfl⟩
      | text | boolean => cases kinds
    · cases a with
      | number x => cases x <;> exact ⟨rfl, rfl⟩
      | text | boolean => cases kinds
  · cases a <;> cases b <;> first | exact absurd rfl kinds | exact ⟨rfl, rfl⟩

end Value

/-- The two numbers of a context, as `level` and `limit`. -/
def Engine.ofPair (format : NumberFormat) : Engine (Binary64 × Binary64) :=
  (builtin format).afterAll
    [.supplier .number "level" Prod.fst, .supplier .number "limit" Prod.snd]

theorem Engine.resolve_ofPair (format : NumberFormat) :
    (ofPair format).resolve "level" = .ok (.supply .number Prod.fst) ∧
      (ofPair format).resolve "limit" = .ok (.supply .number Prod.snd) := by
  constructor <;> cbv

theorem Condition.holds_of_failed {C : Type} {left right : Placeholder C} {context : C}
    {error : EvalError}
    (failed : left.evaluate context = .error error ∨ right.evaluate context = .error error)
    (comparison : Comparison) :
    (ofPlaceholders left comparison right).holds context = false := by
  simp only [ofPlaceholders]
  split
  · rename_i first second
    rcases failed with failed | failed
    · cases first.symm.trans failed
    · cases second.symm.trans failed
  · rfl

namespace Comparison

theorem apply_iff_of_places (comparison : Comparison) {a b : Value} (kinds : a.kind = b.kind)
    {x y : Int ⊕ₗ String ⊕ₗ Bool} (first : a.place? = some x) (second : b.place? = some y) :
    comparison.apply a b = true ↔ comparison.Relates x y := by
  obtain ⟨order, same⟩ := Value.compared kinds first second
  cases comparison with
  | equal => exact same
  | notEqual => rw [apply, Bool.not_eq_true', ← Bool.not_eq_true, same, Relates]
  | greater =>
      rw [apply, order, Option.any_some, Ordering.isGT_iff_eq_gt, compare_gt_iff_gt, Relates]
  | greaterOrEqual =>
      rw [apply, order, Option.any_some]
      exact Ordering.isGE_iff_ne_lt.trans compare_ge_iff_ge
  | less => rw [apply, order, Option.any_some, Ordering.isLT_iff_eq_lt, compare_lt_iff_lt, Relates]
  | lessOrEqual =>
      rw [apply, order, Option.any_some]
      exact Ordering.isLE_iff_ne_gt.trans compare_le_iff_le

theorem apply_of_not_comparable {a b : Value} (apart : ¬ a.Comparable b) (comparison : Comparison) :
    comparison.apply a b = true ↔ comparison = .notEqual := by
  obtain ⟨order, same⟩ := Value.not_compared apart
  cases comparison <;> simp [apply, order, same]

/-- Only values of one kind that are no `nan` are related by an operator other than `!=`. -/
theorem comparable_of_apply {comparison : Comparison} (ordering : comparison ≠ .notEqual)
    {a b : Value} (holds : comparison.apply a b = true) : a.Comparable b := by
  by_contra apart
  exact ordering ((apply_of_not_comparable apart comparison).mp holds)

/-- An operator whose relation is transitive is so on values. -/
theorem apply_trans (comparison : Comparison) (ordering : comparison ≠ .notEqual)
    (trans : ∀ x y z : Int ⊕ₗ String ⊕ₗ Bool,
      comparison.Relates x y → comparison.Relates y z → comparison.Relates x z) {a b c : Value}
    (front : comparison.apply a b = true) (back : comparison.apply b c = true) :
    comparison.apply a c = true := by
  have first := comparable_of_apply ordering front
  have second := comparable_of_apply ordering back
  obtain ⟨x, y, placeA, placeB⟩ := first.exists_places
  obtain ⟨_, z, _, placeC⟩ := second.exists_places
  rw [comparison.apply_iff_of_places first.kinds placeA placeB] at front
  rw [comparison.apply_iff_of_places second.kinds placeB placeC] at back
  rw [comparison.apply_iff_of_places (first.kinds.trans second.kinds) placeA placeC]
  exact trans x y z front back

theorem places_of_equal {a b : Value} (same : equal.apply a b = true) :
    a.kind = b.kind ∧ a.place? = b.place? := by
  have comparable := comparable_of_apply (by decide) same
  obtain ⟨x, y, first, second⟩ := comparable.exists_places
  obtain rfl : x = y := (equal.apply_iff_of_places comparable.kinds first second).mp same
  exact ⟨comparable.kinds, first.trans second.symm⟩

/-- An operator sees nothing of a value but its kind and its place. -/
theorem apply_congr {a a' b b' : Value} (left : a.kind = a'.kind ∧ a.place? = a'.place?)
    (right : b.kind = b'.kind ∧ b.place? = b'.place?) (comparison : Comparison) :
    comparison.apply a b = comparison.apply a' b' := by
  have comparable : a.Comparable b ↔ a'.Comparable b' := by
    rw [Value.comparable_iff, Value.comparable_iff, left.1, left.2, right.1, right.2]
  rw [Bool.eq_iff_iff]
  by_cases related : a.Comparable b
  · have relatedToo := comparable.mp related
    obtain ⟨x, y, first, second⟩ := related.exists_places
    rw [comparison.apply_iff_of_places related.kinds first second,
      comparison.apply_iff_of_places relatedToo.kinds (left.2 ▸ first) (right.2 ▸ second)]
  · rw [apply_of_not_comparable related, apply_of_not_comparable (mt comparable.mpr related)]

theorem relates_trichotomy {α : Type} [LinearOrder α] (x y : α) :
    ∃! comparison, comparison ∈ [less, equal, greater] ∧ comparison.Relates x y := by
  have unique {comparison other : Comparison} (listed : comparison ∈ [less, equal, greater])
      (listedToo : other ∈ [less, equal, greater]) (holds : comparison.Relates x y)
      (holdsToo : other.Relates x y) : other = comparison := by
    cases comparison <;> cases other <;> grind [Relates]
  obtain ⟨comparison, listed, holds⟩ :
      ∃ comparison, comparison ∈ [less, equal, greater] ∧ comparison.Relates x y := by
    rcases lt_trichotomy x y with below | same | above
    · exact ⟨less, by simp, below⟩
    · exact ⟨equal, by simp, same⟩
    · exact ⟨greater, by simp, above⟩
  exact ⟨comparison, ⟨listed, holds⟩, fun other also => unique listed also.1 holds also.2⟩

/-- Between comparable values the orderings are those of a linear order. -/
theorem apply_linear {a b : Value} (comparable : a.Comparable b) :
    (∃! comparison, comparison ∈ [less, equal, greater] ∧ comparison.apply a b = true) ∧
      lessOrEqual.apply a b = (less.apply a b || equal.apply a b) ∧
      greaterOrEqual.apply a b = (greater.apply a b || equal.apply a b) ∧
      greaterOrEqual.apply a b = !less.apply a b := by
  obtain ⟨x, y, first, second⟩ := comparable.exists_places
  have relates (comparison : Comparison) :=
    comparison.apply_iff_of_places comparable.kinds first second
  refine ⟨?_, ?_, ?_, ?_⟩
  · simp only [relates]
    exact relates_trichotomy x y
  · rw [Bool.eq_iff_iff, Bool.or_eq_true, relates, relates, relates]
    exact le_iff_lt_or_eq
  · rw [Bool.eq_iff_iff, Bool.or_eq_true, relates, relates, relates]
    exact le_iff_lt_or_eq.trans (or_congr_right eq_comm)
  · rw [Bool.eq_iff_iff, Bool.not_eq_true', ← Bool.not_eq_true, relates, relates]
    exact not_lt.symm

theorem less_swap (a b : Value) : less.apply a b = greater.apply b a := by
  have swapped : a.Comparable b ↔ b.Comparable a :=
    ⟨fun h => ⟨h.kinds.symm, h.right, h.left⟩, fun h => ⟨h.kinds.symm, h.right, h.left⟩⟩
  rw [Bool.eq_iff_iff]
  by_cases comparable : a.Comparable b
  · obtain ⟨x, y, first, second⟩ := comparable.exists_places
    rw [less.apply_iff_of_places comparable.kinds first second,
      greater.apply_iff_of_places comparable.kinds.symm second first]
    rfl
  · rw [apply_of_not_comparable comparable, apply_of_not_comparable (mt swapped.mpr comparable)]
    simp

/-- A key for texts in whose order the bytes are is the one that the operators go by. -/
theorem apply_text_iff {α : Type} [LT α] [LE α] {key : String → α}
    (below : ∀ s t, Text.order s t = .lt ↔ key s < key t) (irrefl : ∀ k : α, ¬ k < k)
    (le : ∀ k l : α, k ≤ l ↔ ¬ l < k) (comparison : Comparison) (s t : String) :
    comparison.apply (.text s) (.text t) = true ↔ comparison.Relates (key s) (key t) := by
  have above : Text.order s t = .gt ↔ key t < key s := by
    rw [← below, ← Text.order_swap t s]
    cases Text.order t s <;> simp
  have same : s = t ↔ key s = key t := by
    refine ⟨congrArg key, fun equal => ?_⟩
    rcases lt_trichotomy s t with less | equal | greater
    · exact absurd (equal ▸ (below s t).mp ((Text.order_eq_lt_iff s t).mpr less)) (irrefl _)
    · exact equal
    · exact absurd (equal ▸ (below t s).mp ((Text.order_eq_lt_iff t s).mpr greater)) (irrefl _)
  cases comparison with
  | equal => exact beq_iff_eq.trans same
  | notEqual => exact bne_iff_ne.trans (not_congr same)
  | greater => exact Ordering.isGT_iff_eq_gt.trans above
  | greaterOrEqual =>
      rw [Relates, le, ← below]
      exact Ordering.isGE_iff_ne_lt
  | less => exact Ordering.isLT_iff_eq_lt.trans (below s t)
  | lessOrEqual =>
      rw [Relates, le, ← above]
      exact Ordering.isLE_iff_ne_gt

/-- Between texts the operators are those of the lexicographic order of their bytes, and just as
well those of the lexicographic order of their characters. -/
theorem apply_text (comparison : Comparison) (s t : String) :
    (comparison.apply (.text s) (.text t) = true ↔
      comparison.Relates (Text.bytes s) (Text.bytes t)) ∧
    (comparison.apply (.text s) (.text t) = true ↔
      comparison.Relates (Text.scalars s) (Text.scalars t)) := by
  constructor
  · exact apply_text_iff (fun s t => Text.compareBytes_eq_lt_iff _ _) List.lt_irrefl
      (fun k l => Iff.rfl) comparison s t
  · refine apply_text_iff (fun s t => ?_) (fun k => lt_irrefl k) (fun k l => not_lt.symm)
      comparison s t
    rw [Text.order_eq_lt_iff, Text.scalars, Text.scalars, Text.map_toNat_lt_iff]
    rfl

/-- The operators are coherent. Only `!=`, the opposite of `==`, holds between values of different
kinds or with a `nan`; the orderings of other values are one linear order, of which `==` is the
equality. So where both operands of a comparison have comparable values, `>=` holds if `<` does not,
and where one has none, neither holds. -/
theorem apply_coherent {C : Type} (e : Engine C) :
    (∀ a b, notEqual.apply a b = !equal.apply a b) ∧
    (∀ a b : Value, a.kind ≠ b.kind ∨ a.IsNan ∨ b.IsNan →
      ∀ comparison ≠ notEqual, comparison.apply a b = false) ∧
    (∀ a b : Value, a.kind = b.kind → ¬ a.IsNan → ¬ b.IsNan →
      (∃! comparison, comparison ∈ [less, equal, greater] ∧ comparison.apply a b = true) ∧
      lessOrEqual.apply a b = (less.apply a b || equal.apply a b) ∧
      greaterOrEqual.apply a b = (greater.apply a b || equal.apply a b) ∧
      greaterOrEqual.apply a b = !less.apply a b) ∧
    (∀ a b, less.apply a b = greater.apply b a) ∧
    (∀ comparison ∈ [less, lessOrEqual], ∀ a b c, comparison.apply a b = true →
      comparison.apply b c = true → comparison.apply a c = true) ∧
    Equivalence (fun a b : { v : Value // ¬ v.IsNan } => equal.apply a b = true) ∧
    (∀ a a', equal.apply a a' = true → ∀ comparison b,
      apply comparison a b = apply comparison a' b ∧ apply comparison b a = apply comparison b a') ∧
    equal.apply (.number (.zero false)) (.number (.zero true)) = true ∧
    ∀ first second below, Condition.compare e first less second = .ok below →
      ∃ left right reached, e.resolve first = .ok left ∧ e.resolve second = .ok right ∧
        Condition.compare e first greaterOrEqual second = .ok reached ∧ ∀ context,
          (∀ a b, left.evaluate context = .ok a → right.evaluate context = .ok b →
            a.kind = left.kind → b.kind = right.kind → ¬ a.IsNan → ¬ b.IsNan →
            reached.holds context = !below.holds context) ∧
          ∀ error, left.evaluate context = .error error ∨ right.evaluate context = .error error →
            below.holds context = false ∧ reached.holds context = false := by
  refine ⟨fun _ _ => rfl, ?_, fun a b kinds left right => apply_linear ⟨kinds, left, right⟩,
    less_swap, ?_, ⟨?_, ?_, ?_⟩, ?_, rfl, ?_⟩
  · intro a b apart comparison ordering
    rw [← Bool.not_eq_true]
    intro holds
    have comparable := comparable_of_apply ordering holds
    rcases apart with kinds | left | right
    · exact kinds comparable.kinds
    · exact comparable.left left
    · exact comparable.right right
  · simp only [List.forall_mem_cons]
    exact ⟨fun _ _ _ => less.apply_trans (by decide) fun _ _ _ => lt_trans,
      fun _ _ _ => lessOrEqual.apply_trans (by decide) fun _ _ _ => le_trans, by simp⟩
  · intro a
    obtain ⟨x, place⟩ := a.val.exists_place_iff.mpr a.property
    exact (equal.apply_iff_of_places rfl place place).mpr rfl
  · intro a b same
    have comparable := comparable_of_apply (by decide) same
    obtain ⟨x, y, first, second⟩ := comparable.exists_places
    exact (equal.apply_iff_of_places comparable.kinds.symm second first).mpr
      ((equal.apply_iff_of_places comparable.kinds first second).mp same).symm
  · intro a b c
    exact equal.apply_trans (by decide) fun _ _ _ => Eq.trans
  · intro a a' same comparison b
    have places := places_of_equal same
    exact ⟨apply_congr places ⟨rfl, rfl⟩ comparison, apply_congr ⟨rfl, rfl⟩ places comparison⟩
  · intro first second below compiled
    obtain ⟨left, right, resolvedLeft, resolvedRight, kinds, rfl⟩ :=
      Condition.compare_eq_ok compiled
    refine ⟨left, right, _, resolvedLeft, resolvedRight,
      Condition.compare_of_kinds resolvedLeft resolvedRight kinds _, fun context => ⟨?_, ?_⟩⟩
    · intro a b valueLeft valueRight kindLeft kindRight numberLeft numberRight
      have comparable : a.Comparable b :=
        ⟨kindLeft.trans (kinds.trans kindRight.symm), numberLeft, numberRight⟩
      simp only [Condition.ofPlaceholders, valueLeft, valueRight]
      exact (apply_linear comparable).2.2.2
    · intro error failed
      exact ⟨Condition.holds_of_failed failed less, Condition.holds_of_failed failed greaterOrEqual⟩

/-- Two numbers: below the limit or not, also with zeros of both signs and with infinities. -/
theorem apply_coherent_level :
    let e := Engine.ofPair .standard
    ∃ below reached, Condition.compare e "level" less "limit" = .ok below ∧
      Condition.compare e "level" greaterOrEqual "limit" = .ok reached ∧
      (∀ x y, x ≠ .nan → y ≠ .nan → reached.holds (x, y) = !below.holds (x, y)) ∧
      below.holds (.infinite true, .zero true) = true ∧
      reached.holds (.zero true, .zero false) = true := by
  intro e
  obtain ⟨level, limit⟩ := Engine.resolve_ofPair .standard
  have compiled := Condition.compare_of_kinds level limit rfl less
  obtain ⟨-, -, -, -, -, -, -, -, conditions⟩ := apply_coherent e
  obtain ⟨left, right, reached, first, second, compiledToo, holds⟩ := conditions _ _ _ compiled
  obtain rfl := Except.ok.inj (first.symm.trans level)
  obtain rfl := Except.ok.inj (second.symm.trans limit)
  have opposite (x y : Binary64) (hx : x ≠ .nan) (hy : y ≠ .nan) :=
    (holds (x, y)).1 (.number x) (.number y) rfl rfl rfl rfl (by simpa [Value.IsNan] using hx)
      (by simpa [Value.IsNan] using hy)
  refine ⟨_, reached, compiled, compiledToo, opposite, by decide +kernel, ?_⟩
  rw [opposite _ _ (by simp [Binary64.zero]) (by simp [Binary64.zero])]
  decide +kernel

end Comparison

end Placeholders
