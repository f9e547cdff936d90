import Mathlib.Data.Int.Basic

/-!
# The order of bytes in memory

Comparing as many bytes as the shorter one of two lists has, and then the lengths, is the
lexicographic order.  Bytes that are all the same except for one are enough to tell which places
have been compared.
-/

set_option autoImplicit false

namespace Foundation

/-- `memcmp`, on as many bytes as both lists have.  Only the sign of the result is of interest. -/
def memcmp : List UInt8 → List UInt8 → Int
  | first :: rest, first' :: rest' =>
      if first = first' then memcmp rest rest' else (first.toNat : Int) - first'.toNat
  | _, _ => 0

/-- The sign of a number tells the order of two lists. -/
structure Orders (result : Int) (data other : List UInt8) : Prop where
  less : result < 0 ↔ data < other
  equal : result = 0 ↔ data = other
  greater : 0 < result ↔ other < data

/-- The order of the first bytes that differ, or of the lengths. -/
structure OrdersFrom (result compared : Int) (count count' : Nat) : Prop where
  less : result < 0 ↔ compared < 0 ∨ compared = 0 ∧ count < count'
  equal : result = 0 ↔ compared = 0 ∧ count = count'
  greater : 0 < result ↔ 0 < compared ∨ compared = 0 ∧ count' < count

theorem memcmp_cons_self (byte : UInt8) (data other : List UInt8) :
    memcmp (byte :: data) (byte :: other) = memcmp data other := by
  rw [memcmp, if_pos rfl]

theorem memcmp_cons_ne {byte byte' : UInt8} (differ : byte ≠ byte') (data other : List UInt8) :
    memcmp (byte :: data) (byte' :: other) = (byte.toNat : Int) - byte'.toNat := by
  rw [memcmp, if_neg differ]

theorem memcmp_self (data : List UInt8) : memcmp data data = 0 := by
  induction data with
  | nil => rfl
  | cons byte rest ih => rw [memcmp_cons_self, ih]

theorem toNat_ne {byte byte' : UInt8} (differ : byte ≠ byte') : byte.toNat ≠ byte'.toNat :=
  fun same => differ (UInt8.toNat_inj.mp same)

/-- Comparing the bytes and then the lengths is the lexicographic order. -/
theorem memcmp_orders (data other : List UInt8) :
    (data < other ↔ memcmp data other < 0 ∨ memcmp data other = 0 ∧ data.length < other.length) ∧
      (data = other ↔ memcmp data other = 0 ∧ data.length = other.length) ∧
      (other < data ↔
        0 < memcmp data other ∨ memcmp data other = 0 ∧ other.length < data.length) := by
  induction data generalizing other with
  | nil =>
      cases other with
      | nil => simp [memcmp]
      | cons byte' rest' => simp [memcmp]
  | cons byte rest ih =>
      cases other with
      | nil => simp [memcmp]
      | cons byte' rest' =>
          rw [List.cons_lt_cons_iff, List.cons_lt_cons_iff, List.cons.injEq, UInt8.lt_iff_toNat_lt,
            UInt8.lt_iff_toNat_lt, List.length_cons, List.length_cons]
          by_cases same : byte = byte'
          · rw [same, memcmp_cons_self]
            simpa using ih rest'
          · have differ := toNat_ne same
            have differ' : ¬byte' = byte := fun equal => same equal.symm
            rw [memcmp_cons_ne same]
            simp only [same, differ', false_and, or_false]
            exact ⟨by omega, iff_of_false id (by omega), by omega⟩

theorem orders_iff {result : Int} {data other : List UInt8} :
    Orders result data other ↔
      OrdersFrom result (memcmp data other) data.length other.length := by
  obtain ⟨less, equal, greater⟩ := memcmp_orders data other
  constructor
  · intro orders
    exact ⟨orders.less.trans less, orders.equal.trans equal, orders.greater.trans greater⟩
  · intro orders
    exact ⟨orders.less.trans less.symm, orders.equal.trans equal.symm,
      orders.greater.trans greater.symm⟩

/-- Only as many bytes are compared as both lists have. -/
theorem memcmp_take {data other : List UInt8} {count : Nat} (enough : data.length ≤ count ∨
    other.length ≤ count) : memcmp (data.take count) (other.take count) = memcmp data other := by
  induction data generalizing other count with
  | nil =>
      rw [List.take_nil]
      rfl
  | cons byte rest ih =>
      cases other with
      | nil =>
          rw [List.take_nil]
          cases count with
          | zero => rfl
          | succ count => rfl
      | cons byte' rest' =>
          cases count with
          | zero =>
              rw [List.length_cons, List.length_cons] at enough
              omega
          | succ count =>
              rw [List.length_cons, List.length_cons, Nat.succ_le_succ_iff, Nat.succ_le_succ_iff]
                at enough
              rw [List.take_succ_cons, List.take_succ_cons]
              by_cases same : byte = byte'
              · rw [same, memcmp_cons_self, memcmp_cons_self, ih enough]
              · rw [memcmp_cons_ne same, memcmp_cons_ne same]

/-! ## Bytes that are all the same but one -/

/-- Ones with another byte at an index, if the list is long enough. -/
def spotted (count index : Nat) (spot : UInt8) : List UInt8 :=
  (List.replicate count 1).set index spot

theorem length_spotted (count index : Nat) (spot : UInt8) :
    (spotted count index spot).length = count := by
  rw [spotted, List.length_set, List.length_replicate]

theorem getElem?_spotted (count index : Nat) (spot : UInt8) (i : Nat) :
    (spotted count index spot)[i]? =
      if i < count then (if i = index then some spot else some 1) else none := by
  rw [spotted, List.getElem?_set, List.length_replicate, List.getElem?_replicate]
  by_cases same : i = index
  · rw [if_pos same.symm, if_pos same, same]
  · rw [if_neg fun equal => same equal.symm, if_neg same]

theorem memcmp_replicate (byte : UInt8) (count count' : Nat) :
    memcmp (List.replicate count byte) (List.replicate count' byte) = 0 := by
  induction count generalizing count' with
  | zero => rfl
  | succ count ih =>
      cases count' with
      | zero => rfl
      | succ count' => rw [List.replicate_succ, List.replicate_succ, memcmp_cons_self, ih]

/-- A spot that is like the other bytes. -/
theorem memcmp_spotted_one (count count' index index' : Nat) :
    memcmp (spotted count index 1) (spotted count' index' 1) = 0 := by
  have ones (count index : Nat) : spotted count index 1 = List.replicate count 1 := by
    apply List.ext_getElem?
    intro i
    rw [getElem?_spotted, List.getElem?_replicate, ite_self]
  rw [ones, ones, memcmp_replicate]

/-- The first spot decides. -/
theorem memcmp_spotted {count count' index index' : Nat} {spot : UInt8} (differs : spot ≠ 1) :
    memcmp (spotted count index spot) (spotted count' index' spot) =
      if index < index' ∧ index < count ∧ index < count' then (spot.toNat : Int) - 1
      else if index' < index ∧ index' < count ∧ index' < count' then 1 - (spot.toNat : Int)
      else 0 := by
  induction count generalizing count' index index' with
  | zero =>
      rw [if_neg (by omega), if_neg (by omega)]
      rfl
  | succ count ih =>
      cases count' with
      | zero =>
          rw [if_neg (by omega), if_neg (by omega)]
          cases index with
          | zero => rfl
          | succ index => rfl
      | succ count' =>
          have step (index index' : Nat) :
              memcmp (spotted (count + 1) (index + 1) spot)
                  (spotted (count' + 1) (index' + 1) spot) =
                memcmp (spotted count index spot) (spotted count' index' spot) :=
            memcmp_cons_self 1 _ _
          cases index with
          | zero =>
              cases index' with
              | zero =>
                  rw [if_neg (by omega), if_neg (by omega)]
                  exact (memcmp_cons_self spot _ _).trans (memcmp_replicate 1 count count')
              | succ index' =>
                  rw [if_pos (by omega)]
                  exact memcmp_cons_ne differs _ _
          | succ index =>
              cases index' with
              | zero =>
                  rw [if_neg (by omega), if_pos (by omega)]
                  exact memcmp_cons_ne differs.symm _ _
              | succ index' =>
                  rw [step, ih]
                  simp only [Nat.succ_lt_succ_iff]

/-- The place of a spot in a part of the list, or the end of the part. -/
def placeIn (start count index : Nat) : Nat :=
  if start ≤ index then index - start else count

theorem placeIn_cases (start count index : Nat) :
    start ≤ index ∧ placeIn start count index = index - start ∨
      index < start ∧ placeIn start count index = count := by
  by_cases behind : start ≤ index
  · exact .inl ⟨behind, if_pos behind⟩
  · exact .inr ⟨Nat.not_le.mp behind, if_neg behind⟩

theorem part_spotted {total start count index : Nat} {spot : UInt8}
    (fits : count = 0 ∨ start + count ≤ total) :
    ((spotted total index spot).drop start).take count =
      spotted count (placeIn start count index) spot := by
  apply List.ext_getElem?
  intro i
  have place := placeIn_cases start count index
  rw [List.getElem?_take, List.getElem?_drop, getElem?_spotted, getElem?_spotted]
  by_cases inside : i < count
  · rw [if_pos inside, if_pos inside, if_pos (by omega)]
    by_cases same : start + i = index
    · rw [if_pos same, if_pos (by omega)]
    · rw [if_neg same, if_neg (by omega)]
  · rw [if_neg inside, if_neg inside]

/-- Which of two lists has the first spot, told by a spot that is smaller and by one that is
greater than the other bytes. -/
theorem first_spot (count count' index index' : Nat) :
    ((index < index' ∧ index < count ∧ index < count') ∧
        memcmp (spotted count index 0) (spotted count' index' 0) = -1 ∧
        memcmp (spotted count index 2) (spotted count' index' 2) = 1) ∨
      ((index' < index ∧ index' < count ∧ index' < count') ∧
        memcmp (spotted count index 0) (spotted count' index' 0) = 1 ∧
        memcmp (spotted count index 2) (spotted count' index' 2) = -1) ∨
      (¬(index < index' ∧ index < count ∧ index < count') ∧
        ¬(index' < index ∧ index' < count ∧ index' < count')) ∧
        memcmp (spotted count index 0) (spotted count' index' 0) = 0 ∧
        memcmp (spotted count index 2) (spotted count' index' 2) = 0 := by
  rw [memcmp_spotted (by decide), memcmp_spotted (by decide)]
  by_cases left : index < index' ∧ index < count ∧ index < count'
  · rw [if_pos left, if_pos left]
    exact .inl ⟨left, rfl, rfl⟩
  · by_cases right : index' < index ∧ index' < count ∧ index' < count'
    · rw [if_neg left, if_pos right, if_neg left, if_pos right]
      exact .inr (.inl ⟨right, rfl, rfl⟩)
    · rw [if_neg left, if_neg right, if_neg left, if_neg right]
      exact .inr (.inr ⟨⟨left, right⟩, rfl, rfl⟩)

/-- A spot that has been seen first is seen by the order, too. -/
theorem OrdersFrom.seen {compared compared' : Int} {length length' : Nat}
    (less : OrdersFrom (-1) compared length length')
    (greater : OrdersFrom 1 compared' length length') : compared < 0 ∨ 0 < compared' := by
  rcases less.less.mp (by decide) with seen | shorter
  · exact .inl seen
  · rcases greater.greater.mp (by decide) with seen | longer
    · exact .inr seen
    · exact absurd shorter.2 (Nat.lt_asymm longer.2)

/-- A spot that makes no difference is not seen by the order. -/
theorem OrdersFrom.unseen {result compared compared' : Int} {length length' : Nat}
    (orders : OrdersFrom result compared length length')
    (orders' : OrdersFrom result compared' length length') : ¬(compared < 0 ∧ 0 < compared') :=
  fun seen => Int.lt_asymm (orders.less.mpr (.inl seen.1)) (orders'.greater.mpr (.inl seen.2))

section Seen

variable {count count' index index' : Nat}

theorem first_spot_of_seen
    (seen : memcmp (spotted count index 0) (spotted count' index' 0) < 0 ∨
      0 < memcmp (spotted count index 2) (spotted count' index' 2)) :
    index < index' ∧ index < count ∧ index < count' := by
  rcases first_spot count count' index index' with ⟨first, -, -⟩ | ⟨-, low, high⟩ |
    ⟨-, low, high⟩
  · exact first
  all_goals
    rw [low, high] at seen
    exact absurd seen (by decide)

theorem first_spot_of_seen'
    (seen : memcmp (spotted count index 2) (spotted count' index' 2) < 0 ∨
      0 < memcmp (spotted count index 0) (spotted count' index' 0)) :
    index' < index ∧ index' < count ∧ index' < count' := by
  rcases first_spot count count' index index' with ⟨-, low, high⟩ | ⟨first, -, -⟩ |
    ⟨-, low, high⟩
  case inr.inl => exact first
  all_goals
    rw [low, high] at seen
    exact absurd seen (by decide)

theorem no_spot_of_unseen
    (unseen : ¬(memcmp (spotted count index 0) (spotted count' index' 0) < 0 ∧
      0 < memcmp (spotted count index 2) (spotted count' index' 2)))
    (unseen' : ¬(memcmp (spotted count index 2) (spotted count' index' 2) < 0 ∧
      0 < memcmp (spotted count index 0) (spotted count' index' 0))) :
    ¬(index < index' ∧ index < count ∧ index < count') ∧
      ¬(index' < index ∧ index' < count ∧ index' < count') := by
  rcases first_spot count count' index index' with ⟨-, low, high⟩ | ⟨-, low, high⟩ |
    ⟨neither, -, -⟩
  case inr.inr => exact neither
  · rw [low, high] at unseen
    exact absurd ⟨by decide, by decide⟩ unseen
  · rw [low, high] at unseen'
    exact absurd ⟨by decide, by decide⟩ unseen'

end Seen

/-- Two comparisons that agree on all spots find the first spot in the same list. -/
theorem first_spot_of_orders {count length length' : Nat} (shorter : count = min length length')
    {index index' right right' : Nat} {result : Int → Int}
    (results : ∀ comparison, comparison ≠ 0 → result comparison = comparison)
    (orders : ∀ spot, spot ≠ 1 →
      OrdersFrom (result (memcmp (spotted count index spot) (spotted count index' spot)))
        (memcmp (spotted length right spot) (spotted length' right' spot)) length length') :
    (index < index' ∧ index < count ↔ right < right' ∧ right < count) ∧
      (index' < index ∧ index' < count ↔ right' < right ∧ right' < count) := by
  have small := orders 0 (by decide)
  have large := orders 2 (by decide)
  rcases first_spot count count index index' with ⟨read, low, high⟩ | ⟨read, low, high⟩ |
    ⟨read, low, high⟩
  · rw [low, results (-1) (by decide)] at small
    rw [high, results 1 (by decide)] at large
    have found := first_spot_of_seen (small.seen large)
    omega
  · rw [low, results 1 (by decide)] at small
    rw [high, results (-1) (by decide)] at large
    have found := first_spot_of_seen' (large.seen small)
    omega
  · rw [low] at small
    rw [high] at large
    have neither := no_spot_of_unseen (small.unseen large) (large.unseen small)
    omega

end Foundation
