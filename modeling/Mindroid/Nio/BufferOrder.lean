import Mindroid.Foundation.MemoryOrder
import Mindroid.Nio.ReachedBytes

/-!
# The order of byte buffers

Buffers are compared by the bytes between their position and their limit.  The comparison leaves
out the offset of a buffer in its array, and the difference of the lengths is cut to 32 bits.
-/

set_option autoImplicit false

namespace Mindroid

namespace Nio

open Foundation
open Foundation.Throwing

/-- The result of `compareTo` if all the bytes that are compared are the same. -/
def difference (this other : Buffer) : Int :=
  ((this.remaining - other.remaining).toBitVec.setWidth 32).toInt

def compareTo (other : Buffer) : Method Int := do
  let this ← self
  let count := if this.remaining < other.remaining then this.remaining else other.remaining
  let comparison := memcmp (← readBytes this.mBuffer this.mPosition count)
    (← readBytes other.mBuffer other.mPosition count)
  if comparison ≠ 0 then
    return comparison
  else
    return difference this other

/-- `operator==`. -/
def equalTo (other : Buffer) : Method Bool := do
  return (← compareTo other) = 0

/-- The bytes between the position and the limit. -/
def Buffer.content (arrays : List ByteArray) (buffer : Buffer) : List UInt8 :=
  match arrays[buffer.mBuffer]? with
  | none => []
  | some found =>
      (found.bytes.drop (buffer.mOffset.toNat + buffer.mPosition.toNat)).take
        buffer.remaining.toNat

/-- The region of a buffer is in its array. -/
def Buffer.Placed (arrays : List ByteArray) (buffer : Buffer) : Prop :=
  ∃ found, arrays[buffer.mBuffer]? = some found ∧
    buffer.mOffset.toNat + buffer.mLimit.toNat ≤ found.bytes.length

/-- The comparison of two buffers is the lexicographic order of their bytes. -/
structure Compares (arrays : List ByteArray) (this other : Buffer) : Prop where
  compareTo : Leads (compareTo other)
    (fun result _ => Orders result (this.content arrays) (other.content arrays))
    (fun _ _ => False) { arrays := arrays, this := this }
  equalTo : Leads (equalTo other)
    (fun same _ => same = true ↔ this.content arrays = other.content arrays)
    (fun _ _ => False) { arrays := arrays, this := this }

/-- The number of bytes that are compared. -/
def compared (this other : Buffer) : Nat :=
  min this.remaining.toNat other.remaining.toNat

/-- When two buffers are compared right, whatever the content of their arrays is. -/
structure Comparable (arrays : List ByteArray) (this other : Buffer) : Prop where
  inside : ∀ found, arrays[this.mBuffer]? = some found →
    this.mPosition.toNat + compared this other ≤ found.bytes.length
  inside' : ∀ found, arrays[other.mBuffer]? = some found →
    other.mPosition.toNat + compared this other ≤ found.bytes.length
  /-- The difference of the lengths keeps its sign. -/
  difference : OrdersFrom (difference this other) 0 this.remaining.toNat other.remaining.toNat
  /-- Leaving out the offsets makes no difference. -/
  offsets : compared this other = 0 ∨ (this.mOffset = 0 ∧ other.mOffset = 0) ∨
    (this.mBuffer = other.mBuffer ∧ this.mOffset = other.mOffset ∧
      this.mPosition = other.mPosition)

/-! ## What is compared -/

section Compared

variable {arrays : List ByteArray} {this other : Buffer} {mine theirs : ByteArray}

theorem toNat_count (this other : Buffer) :
    (if this.remaining < other.remaining then this.remaining else other.remaining).toNat =
      compared this other := by
  rw [compared]
  split
  · rename_i less
    rw [UInt64.lt_iff_toNat_lt] at less
    omega
  · rename_i least
    rw [UInt64.lt_iff_toNat_lt] at least
    omega

/-- The bytes at the position, which is not counted from the offset. -/
def atPosition (array : ByteArray) (this other : Buffer) : List UInt8 :=
  (array.bytes.drop this.mPosition.toNat).take (compared this other)

/-- What is returned if the comparison of the bytes has had a result. -/
def returned (comparison : Int) (this other : Buffer) : Int :=
  if comparison ≠ 0 then comparison else difference this other

theorem outcome_returned (comparison : Int) (this other : Buffer) (st : Scope) :
    outcome (if comparison ≠ 0 then pure comparison else pure (difference this other) : Method Int)
      st = (.ok (returned comparison this other), st) := by
  rw [returned]
  by_cases differs : comparison ≠ 0
  · rw [if_pos differs, if_pos differs]
    rfl
  · rw [if_neg differs, if_neg differs]
    rfl

theorem compared_comm (this other : Buffer) : compared other this = compared this other :=
  Nat.min_comm _ _

theorem outcome_compareTo (present : arrays[this.mBuffer]? = some mine)
    (present' : arrays[other.mBuffer]? = some theirs)
    (inside : this.mPosition.toNat + compared this other ≤ mine.bytes.length)
    (inside' : other.mPosition.toNat + compared this other ≤ theirs.bytes.length) :
    outcome (compareTo other) { arrays := arrays, this := this } =
      (.ok (returned (memcmp (atPosition mine this other) (atPosition theirs other this))
        this other), { arrays := arrays, this := this }) := by
  have count := toNat_count this other
  rw [compareTo, outcome_bind_ok outcome_self]
  rw [outcome_bind_ok (outcome_readBytes present (by rwa [count]))]
  rw [outcome_bind_ok (outcome_readBytes present' (by rwa [count])), count]
  rw [atPosition, atPosition, compared_comm this other]
  exact outcome_returned _ this other _

/-- A comparison that leaves the arrays is undefined. -/
theorem compareTo_undefined
    (outside : (∀ found, arrays[this.mBuffer]? = some found →
        ¬this.mPosition.toNat + compared this other ≤ found.bytes.length) ∨
      ∀ found, arrays[other.mBuffer]? = some found →
        ¬other.mPosition.toNat + compared this other ≤ found.bytes.length) :
    outcome (compareTo other) { arrays := arrays, this := this } =
      (.error .undefined, { arrays := arrays, this := this }) := by
  have count := toNat_count this other
  rw [compareTo, outcome_bind_ok outcome_self]
  by_cases first : ∃ found, arrays[this.mBuffer]? = some found ∧
      this.mPosition.toNat + compared this other ≤ found.bytes.length
  · obtain ⟨found, present, inside⟩ := first
    have second := outside.resolve_left fun all => all found present inside
    rw [outcome_bind_ok (outcome_readBytes present (by rwa [count]))]
    exact outcome_bind_error (outcome_readBytes_undefined (by rwa [count]))
  · apply outcome_bind_error
    apply outcome_readBytes_undefined
    intro found present inside
    rw [count] at inside
    exact first ⟨found, present, inside⟩

/-- Both operations are right if the result tells the order of the bytes. -/
theorem compares_iff (present : arrays[this.mBuffer]? = some mine)
    (present' : arrays[other.mBuffer]? = some theirs)
    (inside : this.mPosition.toNat + compared this other ≤ mine.bytes.length)
    (inside' : other.mPosition.toNat + compared this other ≤ theirs.bytes.length) :
    Compares arrays this other ↔
      Orders (returned (memcmp (atPosition mine this other) (atPosition theirs other this))
        this other) (this.content arrays) (other.content arrays) := by
  have ran := outcome_compareTo present present' inside inside'
  constructor
  · intro compares
    exact (leads_returned ran).mp compares.compareTo
  · intro orders
    refine ⟨(leads_returned ran).mpr orders, ?_⟩
    rw [equalTo, leads_bind, leads_returned ran]
    exact (decide_eq_true_iff).trans orders.equal

theorem content_of_present {buffer : Buffer} {found : ByteArray}
    (present : arrays[buffer.mBuffer]? = some found) :
    buffer.content arrays =
      (found.bytes.drop (buffer.mOffset.toNat + buffer.mPosition.toNat)).take
        buffer.remaining.toNat := by
  rw [Buffer.content, present]

theorem fits_of_placed {buffer : Buffer} {found : ByteArray} (placed : buffer.Placed arrays)
    (present : arrays[buffer.mBuffer]? = some found) : buffer.remaining.toNat = 0 ∨
      buffer.mOffset.toNat + buffer.mPosition.toNat + buffer.remaining.toNat ≤
        found.bytes.length := by
  obtain ⟨found', present', inside⟩ := placed
  rw [Option.some.inj (present.symm.trans present'), buffer.toNat_remaining]
  omega

theorem length_content {buffer : Buffer} (placed : buffer.Placed arrays) :
    (buffer.content arrays).length = buffer.remaining.toNat := by
  obtain ⟨found, present, inside⟩ := placed
  rw [content_of_present present, List.length_take, List.length_drop]
  have fits := fits_of_placed ⟨found, present, inside⟩ present
  omega

/-- The bytes are told apart as far as both buffers have some. -/
theorem memcmp_content (placed : this.Placed arrays) (placed' : other.Placed arrays) :
    memcmp ((this.content arrays).take (compared this other))
        ((other.content arrays).take (compared this other)) =
      memcmp (this.content arrays) (other.content arrays) := by
  apply memcmp_take
  rw [length_content placed, length_content placed', compared]
  omega

theorem take_content (present : arrays[this.mBuffer]? = some mine) :
    (this.content arrays).take (compared this other) =
      (mine.bytes.drop (this.mOffset.toNat + this.mPosition.toNat)).take (compared this other) := by
  rw [content_of_present present, List.take_take, compared]
  congr 1
  omega

theorem ordersFrom_returned {comparison : Int}
    (sign : OrdersFrom (difference this other) 0 this.remaining.toNat other.remaining.toNat) :
    OrdersFrom (returned comparison this other) comparison this.remaining.toNat
      other.remaining.toNat := by
  rw [returned]
  split
  · constructor
    · omega
    · omega
    · omega
  · rename_i same
    rw [not_not] at same
    rwa [same]

/-- Where the offsets make no difference, the comparison is right. -/
theorem Comparable.compares (comparable : Comparable arrays this other)
    (placed : this.Placed arrays) (placed' : other.Placed arrays) :
    Compares arrays this other := by
  obtain ⟨mine, present, _⟩ := id placed
  obtain ⟨theirs, present', _⟩ := id placed'
  rw [compares_iff present present' (comparable.inside mine present)
    (comparable.inside' theirs present'), orders_iff, length_content placed,
    length_content placed', ← memcmp_content placed placed', take_content present]
  have theirBytes := @take_content _ _ this _ present'
  rw [compared_comm this other] at theirBytes
  have same : memcmp (atPosition mine this other) (atPosition theirs other this) =
      memcmp ((mine.bytes.drop (this.mOffset.toNat + this.mPosition.toNat)).take
        (compared this other)) ((other.content arrays).take (compared this other)) := by
    rw [theirBytes, atPosition, atPosition, compared_comm this other]
    rcases comparable.offsets with nothing | offsets | ⟨array, offset, position⟩
    · rw [nothing, List.take_zero, List.take_zero, List.take_zero, List.take_zero]
    · rw [offsets.1, offsets.2, UInt64.toNat_zero, Nat.zero_add, Nat.zero_add]
    · rw [← array, present] at present'
      rw [Option.some.inj present', offset, position, memcmp_self, memcmp_self]
  rw [same]
  exact ordersFrom_returned comparable.difference

end Compared

/-! ## What the content of the arrays tells -/

/-- All bytes of all arrays are ones, but one. -/
def spots (arrays : List ByteArray) (array index : Nat) (spot : UInt8) : List ByteArray :=
  arrays.mapIdx fun i found =>
    { bytes := spotted found.bytes.length (if i = array then index else found.bytes.length) spot
      bounded := by
        rw [length_spotted]
        exact found.bounded }

section Spots

variable {arrays : List ByteArray} {this other : Buffer} {mine theirs : ByteArray}
  {array index : Nat} {spot : UInt8}

theorem sizes_spots (arrays : List ByteArray) (array index : Nat) (spot : UInt8) :
    sizes (spots arrays array index spot) = sizes arrays := by
  apply List.ext_getElem?
  intro i
  rw [sizes, sizes, spots, List.getElem?_map, List.getElem?_map, List.getElem?_mapIdx]
  cases arrays[i]? with
  | none => rfl
  | some found =>
      simp only [Option.map_some, ByteArray.size, length_spotted]

/-- The place of the spot, seen from a buffer. -/
def placeOf (buffer : Buffer) (found : ByteArray) (array index : Nat) : Nat :=
  if buffer.mBuffer = array then index else found.bytes.length

theorem spots_present {buffer : Buffer} {found : ByteArray}
    (present : arrays[buffer.mBuffer]? = some found) :
    ∃ array', (spots arrays array index spot)[buffer.mBuffer]? = some array' ∧
      array'.bytes = spotted found.bytes.length (placeOf buffer found array index) spot := by
  rw [spots, List.getElem?_mapIdx, present]
  exact ⟨_, rfl, rfl⟩

theorem content_spots {buffer : Buffer} {found : ByteArray} (placed : buffer.Placed arrays)
    (present : arrays[buffer.mBuffer]? = some found) :
    buffer.content (spots arrays array index spot) =
      spotted buffer.remaining.toNat
        (placeIn (buffer.mOffset.toNat + buffer.mPosition.toNat) buffer.remaining.toNat
          (placeOf buffer found array index)) spot := by
  obtain ⟨array', present', bytes⟩ := @spots_present _ array index spot _ _ present
  rw [content_of_present present', bytes, part_spotted (fits_of_placed placed present)]

theorem atPosition_spots {array' : ByteArray}
    (bytes : array'.bytes = spotted mine.bytes.length (placeOf this mine array index) spot)
    (inside : this.mPosition.toNat + compared this other ≤ mine.bytes.length) :
    atPosition array' this other =
      spotted (compared this other)
        (placeIn this.mPosition.toNat (compared this other) (placeOf this mine array index))
        spot := by
  rw [atPosition, bytes, part_spotted (.inr inside)]

theorem orders_spots
    (right : ∀ arrays', sizes arrays' = sizes arrays → Compares arrays' this other)
    (placed : this.Placed arrays) (placed' : other.Placed arrays)
    (present : arrays[this.mBuffer]? = some mine)
    (present' : arrays[other.mBuffer]? = some theirs)
    (inside : this.mPosition.toNat + compared this other ≤ mine.bytes.length)
    (inside' : other.mPosition.toNat + compared this other ≤ theirs.bytes.length)
    (array index : Nat) (spot : UInt8) :
    OrdersFrom
      (returned
        (memcmp
          (spotted (compared this other) (placeIn this.mPosition.toNat (compared this other)
            (placeOf this mine array index)) spot)
          (spotted (compared this other) (placeIn other.mPosition.toNat (compared this other)
            (placeOf other theirs array index)) spot)) this other)
      (memcmp
        (spotted this.remaining.toNat
          (placeIn (this.mOffset.toNat + this.mPosition.toNat) this.remaining.toNat
            (placeOf this mine array index)) spot)
        (spotted other.remaining.toNat
          (placeIn (other.mOffset.toNat + other.mPosition.toNat) other.remaining.toNat
            (placeOf other theirs array index)) spot))
      this.remaining.toNat other.remaining.toNat := by
  have compares := right _ (sizes_spots arrays array index spot)
  obtain ⟨mine', found, bytes⟩ := @spots_present _ array index spot _ _ present
  obtain ⟨theirs', found', bytes'⟩ := @spots_present _ array index spot _ _ present'
  have fits : this.mPosition.toNat + compared this other ≤ mine'.bytes.length := by
    rwa [bytes, length_spotted]
  have fits' : other.mPosition.toNat + compared this other ≤ theirs'.bytes.length := by
    rwa [bytes', length_spotted]
  rw [compares_iff found found' fits fits', orders_iff, content_spots placed present,
    content_spots placed' present', length_spotted, length_spotted,
    atPosition_spots bytes inside] at compares
  have theirBytes := @atPosition_spots other this _ _ _ _ _ bytes'
    (by rwa [compared_comm this other])
  rw [compared_comm this other] at theirBytes
  rwa [theirBytes] at compares

/-- The two comparisons find a spot in the same buffer. -/
def Agree (this other : Buffer) (place place' : Nat) : Prop :=
  (placeIn this.mPosition.toNat (compared this other) place <
          placeIn other.mPosition.toNat (compared this other) place' ∧
        placeIn this.mPosition.toNat (compared this other) place < compared this other ↔
      placeIn (this.mOffset.toNat + this.mPosition.toNat) this.remaining.toNat place <
          placeIn (other.mOffset.toNat + other.mPosition.toNat) other.remaining.toNat place' ∧
        placeIn (this.mOffset.toNat + this.mPosition.toNat) this.remaining.toNat place <
          compared this other) ∧
    (placeIn other.mPosition.toNat (compared this other) place' <
          placeIn this.mPosition.toNat (compared this other) place ∧
        placeIn other.mPosition.toNat (compared this other) place' < compared this other ↔
      placeIn (other.mOffset.toNat + other.mPosition.toNat) other.remaining.toNat place' <
          placeIn (this.mOffset.toNat + this.mPosition.toNat) this.remaining.toNat place ∧
        placeIn (other.mOffset.toNat + other.mPosition.toNat) other.remaining.toNat place' <
          compared this other)

theorem Agree.symm {place place' : Nat} (agree : Agree this other place place') :
    Agree other this place' place := by
  rw [Agree, compared_comm this other]
  exact ⟨agree.2, agree.1⟩

/-- A spot at the position is not seen from the offset on. -/
theorem offset_of_agree {place' : Nat} (positive : 0 < compared this other)
    (agree : Agree this other this.mPosition.toNat place')
    (apart : place' ≠ other.mPosition.toNat) : this.mOffset.toNat = 0 := by
  have read := placeIn_cases this.mPosition.toNat (compared this other) this.mPosition.toNat
  have read' := placeIn_cases other.mPosition.toNat (compared this other) place'
  have real := placeIn_cases (this.mOffset.toNat + this.mPosition.toNat) this.remaining.toNat
    this.mPosition.toNat
  have shorter : compared this other = min this.remaining.toNat other.remaining.toNat := rfl
  obtain ⟨left, right⟩ := agree
  omega

/-- Of two offsets at the same position, none is behind the other. -/
theorem offset_le_of_agree (positive : 0 < compared this other)
    (position : this.mPosition.toNat = other.mPosition.toNat)
    (agree : ∀ place, Agree this other place place) :
    other.mOffset.toNat ≤ this.mOffset.toNat := by
  by_contra behind
  have read := placeIn_cases this.mPosition.toNat (compared this other)
    (this.mOffset.toNat + this.mPosition.toNat)
  have real := placeIn_cases (this.mOffset.toNat + this.mPosition.toNat) this.remaining.toNat
    (this.mOffset.toNat + this.mPosition.toNat)
  have real' := placeIn_cases (other.mOffset.toNat + other.mPosition.toNat) other.remaining.toNat
    (this.mOffset.toNat + this.mPosition.toNat)
  have shorter : compared this other = min this.remaining.toNat other.remaining.toNat := rfl
  obtain ⟨left, right⟩ := agree (this.mOffset.toNat + this.mPosition.toNat)
  rw [← position] at left right real'
  omega

/-- Where the offsets matter, there is a spot that tells. -/
theorem offsets_of_orders
    (right : ∀ arrays', sizes arrays' = sizes arrays → Compares arrays' this other)
    (placed : this.Placed arrays) (placed' : other.Placed arrays)
    (present : arrays[this.mBuffer]? = some mine)
    (present' : arrays[other.mBuffer]? = some theirs)
    (inside : this.mPosition.toNat + compared this other ≤ mine.bytes.length)
    (inside' : other.mPosition.toNat + compared this other ≤ theirs.bytes.length) :
    compared this other = 0 ∨ (this.mOffset = 0 ∧ other.mOffset = 0) ∨
      (this.mBuffer = other.mBuffer ∧ this.mOffset = other.mOffset ∧
        this.mPosition = other.mPosition) := by
  have shorter : compared this other = min this.remaining.toNat other.remaining.toNat := rfl
  have results (comparison : Int) (differs : comparison ≠ 0) :
      returned comparison this other = comparison := if_pos differs
  have agree (array index : Nat) :
      Agree this other (placeOf this mine array index) (placeOf other theirs array index) :=
    first_spot_of_orders shorter results fun spot _ =>
      orders_spots right placed placed' present present' inside inside' array index spot
  rw [← UInt64.toNat_inj, ← UInt64.toNat_inj, ← UInt64.toNat_inj, ← UInt64.toNat_inj,
    UInt64.toNat_zero, or_iff_not_imp_left]
  intro some
  have positive := Nat.pos_of_ne_zero some
  have positive' : 0 < compared other this := by rwa [compared_comm this other]
  by_cases same : this.mBuffer = other.mBuffer
  · have agree (place : Nat) : Agree this other place place := by
      have at_place := agree this.mBuffer place
      rwa [placeOf, if_pos rfl, placeOf, if_pos same.symm] at at_place
    by_cases position : this.mPosition.toNat = other.mPosition.toNat
    · have after := offset_le_of_agree positive position agree
      have before := offset_le_of_agree positive' position.symm fun place => (agree place).symm
      exact .inr ⟨same, Nat.le_antisymm before after, position⟩
    · exact .inl ⟨offset_of_agree positive (agree _) position,
        offset_of_agree positive' (agree _).symm fun equal => position equal.symm⟩
  · have mineOnly := agree this.mBuffer this.mPosition.toNat
    have theirsOnly := agree other.mBuffer other.mPosition.toNat
    rw [placeOf, if_pos rfl, placeOf, if_neg fun equal => same equal.symm] at mineOnly
    rw [placeOf, if_neg same, placeOf, if_pos rfl] at theirsOnly
    refine .inl ⟨offset_of_agree positive mineOnly ?_, offset_of_agree positive' theirsOnly.symm ?_⟩
    · omega
    · omega

end Spots

/-! ## When buffers are compared right -/

section Exact

variable {arrays arrays' : List ByteArray} {this other : Buffer}

theorem present_of_sizes (same : sizes arrays' = sizes arrays) {array : Nat} {found : ByteArray}
    (present : arrays[array]? = some found) :
    ∃ found', arrays'[array]? = some found' ∧ found'.bytes.length = found.bytes.length := by
  have size : (sizes arrays')[array]? = some found.size := by
    rw [same, sizes, List.getElem?_map, present]
    rfl
  rw [sizes, List.getElem?_map, Option.map_eq_some_iff] at size
  obtain ⟨found', present', size⟩ := size
  refine ⟨found', present', ?_⟩
  rw [← found'.toNat_size, size, found.toNat_size]

theorem placed_of_sizes (same : sizes arrays' = sizes arrays) (placed : this.Placed arrays) :
    this.Placed arrays' := by
  obtain ⟨found, present, inside⟩ := placed
  obtain ⟨found', present', length⟩ := present_of_sizes same present
  exact ⟨found', present', by rwa [length]⟩

theorem Comparable.of_sizes (same : sizes arrays' = sizes arrays)
    (comparable : Comparable arrays this other) : Comparable arrays' this other where
  inside := by
    intro found' present'
    obtain ⟨found, present, length⟩ := present_of_sizes same.symm present'
    rw [← length]
    exact comparable.inside found present
  inside' := by
    intro found' present'
    obtain ⟨found, present, length⟩ := present_of_sizes same.symm present'
    rw [← length]
    exact comparable.inside' found present
  difference := comparable.difference
  offsets := comparable.offsets

/-- Buffers that are placed in their arrays are compared right, whatever the bytes are, exactly if
the offsets and the cut of the difference matter for none. -/
theorem compares_iff_comparable (placed : this.Placed arrays) (placed' : other.Placed arrays) :
    (∀ arrays', sizes arrays' = sizes arrays → Compares arrays' this other) ↔
      Comparable arrays this other := by
  constructor
  · intro right
    have defined := (right arrays rfl).compareTo
    have inside : (∃ mine, arrays[this.mBuffer]? = some mine ∧
          this.mPosition.toNat + compared this other ≤ mine.bytes.length) ∧
        ∃ theirs, arrays[other.mBuffer]? = some theirs ∧
          other.mPosition.toNat + compared this other ≤ theirs.bytes.length := by
      by_contra outside
      refine (leads_threw (compareTo_undefined ?_)).mp defined
      rw [not_and_or] at outside
      exact outside.imp (fun none found present fits => none ⟨found, present, fits⟩)
        (fun none found present fits => none ⟨found, present, fits⟩)
    obtain ⟨⟨mine, present, fits⟩, theirs, present', fits'⟩ := inside
    refine ⟨?_, ?_, ?_, offsets_of_orders right placed placed' present present' fits fits'⟩
    · intro found known
      rwa [← Option.some.inj (present.symm.trans known)]
    · intro found known
      rwa [← Option.some.inj (present'.symm.trans known)]
    · have orders := orders_spots right placed placed' present present' fits fits' 0 0 1
      rwa [memcmp_spotted_one, memcmp_spotted_one] at orders
  · intro comparable arrays' same
    exact (comparable.of_sizes same).compares (placed_of_sizes same placed)
      (placed_of_sizes same placed')

/-- Two parts of an array, one byte each. -/
theorem parts_compares_iff_comparable :
    (∀ arrays', sizes arrays' = sizes [{ bytes := [1, 2], bounded := by decide }] →
        Compares arrays'
          { mBuffer := 0, mOffset := 0, mPosition := 0, mLimit := 1, mCapacity := 1 }
          { mBuffer := 0, mOffset := 1, mPosition := 0, mLimit := 1, mCapacity := 1 }) ↔
      Comparable [{ bytes := [1, 2], bounded := by decide }]
        { mBuffer := 0, mOffset := 0, mPosition := 0, mLimit := 1, mCapacity := 1 }
        { mBuffer := 0, mOffset := 1, mPosition := 0, mLimit := 1, mCapacity := 1 } :=
  compares_iff_comparable ⟨_, rfl, by decide⟩ ⟨_, rfl, by decide⟩

/-- They are taken for equal, since the offset of the second one is left out. -/
theorem parts_miscompared :
    wrapRange [{ bytes := [1, 2], bounded := by decide }] 0 1 1 =
        .ok { mBuffer := 0, mOffset := 1, mPosition := 0, mLimit := 1, mCapacity := 1 } ∧
      ¬Compares [{ bytes := [1, 2], bounded := by decide }]
        { mBuffer := 0, mOffset := 0, mPosition := 0, mLimit := 1, mCapacity := 1 }
        { mBuffer := 0, mOffset := 1, mPosition := 0, mLimit := 1, mCapacity := 1 } := by
  refine ⟨by decide, fun compares => ?_⟩
  have equal : [(1 : UInt8)] = [2] := compares.compareTo.equal.mp (by decide)
  exact absurd equal (by decide)

end Exact

end Nio

end Mindroid
