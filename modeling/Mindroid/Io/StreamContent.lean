import Mindroid.Foundation.Bytes
import Mindroid.Foundation.Transition
import Mindroid.Io.ByteArrayOutputStream

/-!
# What a byte array output stream contains

The stream contains the ranges that have been written since the last reset, for the array grows
before it is too small and keeps its bytes then.  Only a range of the array of the stream itself
can be lost, if it is copied onto a part of itself.
-/

set_option autoImplicit false

namespace Mindroid

open Foundation
open Foundation.Throwing
open Method
open Nio (Fault)

namespace ByteArrayOutputStream

/-! ## What the methods do -/

variable {st : Memory ByteArrayOutputStream} {found : Nio.ByteArray} {content : List UInt8}

theorem toByteArray_eq_ok_iff :
    toByteArray st = .ok content ↔
      ∃ found, st.arrays[st.this.mBuffer]? = some found ∧
        st.this.mCount.toNat ≤ found.bytes.length ∧
          found.bytes.take st.this.mCount.toNat = content := by
  unfold toByteArray
  cases isBuffer : st.arrays[st.this.mBuffer]? with
  | none =>
      constructor
      · intro gives
        cases gives
      · rintro ⟨found, isFound, -⟩
        cases isFound
  | some found =>
      simp only
      split
      · rename_i within
        constructor
        · intro gives
          cases gives
          exact ⟨found, rfl, within, rfl⟩
        · rintro ⟨other, isFound, -, taken⟩
          cases isFound
          rw [taken]
      · rename_i beyond
        constructor
        · intro gives
          cases gives
        · rintro ⟨other, isFound, within, -⟩
          cases isFound
          exact absurd within beyond

/-- As many bytes are given as are counted. -/
theorem length_of_toByteArray (gives : toByteArray st = .ok content) :
    st.this.mCount.toNat = content.length := by
  obtain ⟨found, -, within, rfl⟩ := toByteArray_eq_ok_iff.mp gives
  rw [List.length_take, Nat.min_eq_left within]

theorem Session.exact_iff {session : Session} :
    session.Exact ↔ toByteArray session.memory = .ok session.written :=
  ⟨Session.Exact.toByteArray, fun gives => ⟨length_of_toByteArray gives, gives⟩⟩

theorem leads_setCount (count : UInt64) {returns : PUnit → Memory ByteArrayOutputStream → Prop}
    {throws : Fault → Memory ByteArrayOutputStream → Prop} :
    Leads (setCount count) returns throws st ↔
      returns ⟨⟩ { st with this := { st.this with mCount := count } } :=
  Iff.rfl

section Growth

variable {allocates : UInt64 → Bool} {i : UInt64}
variable {returns : PUnit → Memory ByteArrayOutputStream → Prop}
variable {throws : Fault → Memory ByteArrayOutputStream → Prop}

theorem expand_roomy (isBuffer : st.arrays[st.this.mBuffer]? = some found)
    (small : st.this.mCount.toNat + i.toNat < 2 ^ 63)
    (room : st.this.mCount.toNat + i.toNat ≤ found.bytes.length) :
    Leads (expand allocates i) returns throws st ↔ returns ⟨⟩ st := by
  have fits : st.this.mCount + i ≤ found.size := by
    rw [UInt64.le_iff_toNat_le, toNat_add_of_small (by omega), Nio.ByteArray.toNat_size]
    exact room
  rw [expand, leads_bind, leads_self, leads_bind, leads_lookup_some isBuffer, if_pos fits,
    leads_pure]

/-- The stream has been moved to a new array, which starts with the same bytes. -/
def grow (st : Memory ByteArrayOutputStream) (grown : Nio.ByteArray) :
    Memory ByteArrayOutputStream where
  arrays := st.arrays ++ [grown]
  this := { st.this with mBuffer := st.arrays.length }

theorem getElem?_of_present {arrays : List Nio.ByteArray} {array : Nat}
    (present : arrays[array]? = some found) (added : Nio.ByteArray) :
    (arrays ++ [added])[array]? = some found := by
  rw [List.getElem?_append_left (List.getElem?_eq_some_iff.mp present).1, present]

theorem buffer_grow (st : Memory ByteArrayOutputStream) (grown : Nio.ByteArray) :
    (grow st grown).arrays[(grow st grown).this.mBuffer]? = some grown :=
  List.getElem?_concat_length

theorem expand_grows (isBuffer : st.arrays[st.this.mBuffer]? = some found)
    (small : st.this.mCount.toNat + i.toNat < 2 ^ 63)
    (within : st.this.mCount.toNat ≤ found.bytes.length)
    (full : found.bytes.length < st.this.mCount.toNat + i.toNat)
    (returning : ∀ grown : Nio.ByteArray,
      st.this.mCount.toNat + i.toNat ≤ grown.bytes.length →
        grown.bytes.take st.this.mCount.toNat = found.bytes.take st.this.mCount.toNat →
          returns ⟨⟩ (grow st grown))
    (throwing : throws .lengthError st) :
    Leads (expand allocates i) returns throws st := by
  have sum : (st.this.mCount + i).toNat = st.this.mCount.toNat + i.toNat :=
    toNat_add_of_small (by omega)
  have sized : ((st.this.mCount + i) * 2).toNat = 2 * (st.this.mCount.toNat + i.toNat) := by
    have two : (2 : UInt64).toNat = 2 := rfl
    rw [UInt64.toNat_mul, sum, two, Nat.mul_comm]
    exact Nat.mod_eq_of_lt (by omega)
  have more : ¬st.this.mCount + i ≤ found.size := by
    rw [UInt64.le_iff_toNat_le, sum, Nio.ByteArray.toNat_size]
    omega
  rw [expand, leads_bind, leads_self, leads_bind, leads_lookup_some isBuffer, if_neg more,
    leads_bind]
  apply Method.newByteArray_leads
  · intro bounded
    have length : (zeros ((st.this.mCount + i) * 2) bounded).bytes.length =
        2 * (st.this.mCount.toNat + i.toNat) := by
      rw [zeros, List.length_replicate, sized]
    have inBuffer := (List.getElem?_eq_some_iff.mp isBuffer).1
    rw [leads_bind]
    apply Method.arraycopy_copies (getElem?_of_present isBuffer _) List.getElem?_concat_length
    · rw [UInt64.toNat_zero, Nat.zero_add]
      exact within
    · rw [UInt64.toNat_zero, Nat.zero_add, length]
      omega
    · intro same
      exact absurd same.1 (Nat.ne_of_lt inBuffer)
    · intro copied bytes
      have prefixed : (found.bytes.take st.this.mCount.toNat).length = st.this.mCount.toNat := by
        rw [List.length_take, Nat.min_eq_left within]
      rw [UInt64.toNat_zero, List.drop_zero] at bytes
      have filled : (st.arrays ++ [zeros ((st.this.mCount + i) * 2) bounded]).set
          st.arrays.length copied = st.arrays ++ [copied] := by
        rw [List.set_append_right _ _ (Nat.le_refl _), Nat.sub_self]
        rfl
      change returns ⟨⟩ { arrays := (st.arrays ++ _).set st.arrays.length copied
                          this := { st.this with mBuffer := st.arrays.length } }
      rw [filled]
      apply returning copied
      · rw [bytes, length_overwrite (by omega), length]
        omega
      · have taken := @take_overwrite _ _ (found.bytes.take st.this.mCount.toNat) _
          (Nat.zero_le (zeros ((st.this.mCount + i) * 2) bounded).bytes.length)
        rwa [prefixed, Nat.zero_add, List.take_zero, List.nil_append, ← bytes] at taken
  · exact throwing

/-- The stream has room in its array, which has been found there or is new. -/
structure Roomy (before after : Memory ByteArrayOutputStream) (room : Nat)
    (buffer : Nio.ByteArray) : Prop where
  isBuffer : after.arrays[after.this.mBuffer]? = some buffer
  count : after.this.mCount = before.this.mCount
  fits : room ≤ buffer.bytes.length
  content : toByteArray before = .ok (buffer.bytes.take before.this.mCount.toNat)
  keeps : ∀ (array : Nat) (found : Nio.ByteArray), before.arrays[array]? = some found →
    after.arrays[array]? = some found
  place : after.this.mBuffer = before.this.mBuffer ∨
    after.this.mBuffer = before.arrays.length

theorem Roomy.counted {after : Memory ByteArrayOutputStream} {room : Nat}
    {target : Nio.ByteArray} (roomy : Roomy st after room target)
    (gives : toByteArray st = .ok content) : after.this.mCount.toNat = content.length := by
  rw [roomy.count, length_of_toByteArray gives]

theorem Roomy.take_eq {after : Memory ByteArrayOutputStream} {room : Nat}
    {target : Nio.ByteArray} (roomy : Roomy st after room target)
    (gives : toByteArray st = .ok content) :
    target.bytes.take after.this.mCount.toNat = content := by
  rw [roomy.count]
  exact (Except.ok.inj (gives.symm.trans roomy.content)).symm

/-- There is room after `expand`, and what the stream contains is still the same. -/
theorem expand_makesRoom (gives : toByteArray st = .ok content)
    (small : content.length + i.toNat < 2 ^ 63)
    (returning : ∀ after buffer, Roomy st after (content.length + i.toNat) buffer →
      returns ⟨⟩ after)
    (throwing : throws .lengthError st) :
    Leads (expand allocates i) returns throws st := by
  have count := length_of_toByteArray gives
  obtain ⟨found, isBuffer, within, taken⟩ := toByteArray_eq_ok_iff.mp gives
  rw [← count] at small returning
  by_cases room : st.this.mCount.toNat + i.toNat ≤ found.bytes.length
  · apply (expand_roomy isBuffer small room).mpr
    apply returning st found
    exact {
      isBuffer := isBuffer
      count := rfl
      fits := room
      content := by rw [gives, taken]
      keeps := fun _ _ present => present
      place := .inl rfl }
  · apply expand_grows isBuffer small within (Nat.lt_of_not_le room)
    · intro grown fits same
      apply returning (grow st grown) grown
      exact {
        isBuffer := buffer_grow st grown
        count := rfl
        fits := fits
        content := by rw [gives, same, taken]
        keeps := fun _ _ present => getElem?_of_present present grown
        place := .inr rfl }
    · exact throwing

end Growth

/-! ## What a write appends -/

section Writes

variable {allocates : UInt64 → Bool} {buffer : Nat} {offset count : UInt64}

/-- A call returns with this content, or it throws and has changed nothing. -/
def LeadsTo (call : Method ByteArrayOutputStream Unit) (content : List UInt8)
    (st : Memory ByteArrayOutputStream) : Prop :=
  Leads call (fun _ st' => toByteArray st' = .ok content)
    (fun thrown st' => thrown ≠ .undefined ∧ st' = st) st

theorem toByteArray_fill {data : List UInt8} {copied : Nio.ByteArray} {count : UInt64}
    (isBuffer : st.arrays[st.this.mBuffer]? = some found)
    (bytes : copied.bytes = overwrite found.bytes st.this.mCount.toNat data)
    (counts : count.toNat = st.this.mCount.toNat + data.length)
    (fits : st.this.mCount.toNat + data.length ≤ found.bytes.length) :
    toByteArray { st.fill st.this.mBuffer copied with this := { st.this with mCount := count } } =
      .ok (found.bytes.take st.this.mCount.toNat ++ data) := by
  have inside := (List.getElem?_eq_some_iff.mp isBuffer).1
  apply toByteArray_eq_ok_iff.mpr
  refine ⟨copied, List.getElem?_set_self inside, ?_, ?_⟩
  · change count.toNat ≤ _
    rw [counts, bytes, length_overwrite fits]
    exact fits
  · change copied.bytes.take count.toNat = _
    rw [counts, bytes, take_overwrite (by omega)]

/-- A range is appended, unless it is copied onto a part of itself. -/
theorem writeRange_appends (gives : toByteArray st = .ok content)
    (inRange : offset.toNat + count.toNat < 2 ^ 63)
    (small : content.length + count.toNat < 2 ^ 63)
    (apart : ∀ found, st.arrays[buffer]? = some found → buffer = st.this.mBuffer →
      offset.toNat + count.toNat ≤ found.bytes.length →
        content.length + count.toNat ≤ found.bytes.length →
          content.length + count.toNat ≤ offset.toNat ∨
            offset.toNat + count.toNat ≤ content.length) :
    LeadsTo (writeRange allocates buffer offset count)
      (content ++ st.range buffer offset.toNat count.toNat) st := by
  unfold LeadsTo
  rw [writeRange, leads_bind]
  cases isSource : st.arrays[buffer]? with
  | none => exact (leads_lookup_none isSource).mpr ⟨Fault.noConfusion, rfl⟩
  | some source =>
      have range : st.range buffer offset.toNat count.toNat =
          (source.bytes.drop offset.toNat).take count.toNat := by
        rw [Memory.range, isSource]
      rw [leads_lookup_some isSource, range, leads_ite, leads_ite, gt_iff_lt,
        UInt64.lt_iff_toNat_lt, toNat_add_of_small (by omega), Nio.ByteArray.toNat_size]
      refine ⟨fun _ => ⟨Fault.noConfusion, rfl⟩, fun inSource => ⟨?_, fun _ => ?_⟩⟩
      · rintro rfl
        rw [UInt64.toNat_zero, List.take_zero, List.append_nil]
        exact gives
      · rw [leads_bind]
        apply expand_makesRoom gives small
        · intro after target roomy
          have counted := roomy.counted gives
          have prefixed := roomy.take_eq gives
          have room := roomy.fits
          have data : ((source.bytes.drop offset.toNat).take count.toNat).length =
              count.toNat := by
            rw [List.length_take, List.length_drop]
            omega
          rw [leads_bind, leads_self, leads_bind]
          apply Method.arraycopy_copies (roomy.keeps buffer source isSource) roomy.isBuffer (by omega)
            (by omega)
          · rintro ⟨same, overlap⟩
            rw [Overlap, counted] at overlap
            rcases roomy.place with stays | new
            · have isTarget := roomy.keeps buffer source isSource
              rw [same, roomy.isBuffer] at isTarget
              cases isTarget
              have split := apart source isSource (same.trans stays) (by omega) room
              omega
            · have known := (List.getElem?_eq_some_iff.mp isSource).1
              omega
          · intro copied bytes
            rw [leads_setCount]
            refine (toByteArray_fill roomy.isBuffer bytes ?_ (by omega)).trans ?_
            · rw [toNat_add_of_small (by omega), data]
            · rw [prefixed]
        · exact ⟨Fault.noConfusion, rfl⟩

/-- A range that is copied onto a part of itself. -/
theorem writeRange_overlaps (gives : toByteArray st = .ok content)
    (isBuffer : st.arrays[st.this.mBuffer]? = some found)
    (inRange : offset.toNat + count.toNat < 2 ^ 63)
    (inSource : offset.toNat + count.toNat ≤ found.bytes.length)
    (room : content.length + count.toNat ≤ found.bytes.length)
    (overlap : offset.toNat < content.length + count.toNat ∧
      content.length < offset.toNat + count.toNat) :
    Leads (writeRange allocates st.this.mBuffer offset count) (fun _ _ => False)
      (fun thrown _ => thrown = .undefined) st := by
  have counted := length_of_toByteArray gives
  have bounded := found.bounded
  have within : ¬offset + count > found.size := by
    rw [gt_iff_lt, UInt64.lt_iff_toNat_lt, toNat_add_of_small (by omega),
      Nio.ByteArray.toNat_size]
    omega
  have positive : count ≠ 0 := by
    rintro rfl
    rw [UInt64.toNat_zero] at overlap
    omega
  rw [writeRange, leads_bind, leads_lookup_some isBuffer, if_neg within, if_neg positive,
    leads_bind, expand_roomy isBuffer (by omega) (by omega), leads_bind, leads_self, leads_bind,
    Method.arraycopy_overlaps isBuffer inSource (by omega)]
  rw [Overlap, counted]
  exact overlap

/-- There is room for another byte. -/
theorem makeRoom_makesRoom (gives : toByteArray st = .ok content)
    (small : content.length + 1 < 2 ^ 63) {returns : PUnit → Memory ByteArrayOutputStream → Prop}
    {throws : Fault → Memory ByteArrayOutputStream → Prop}
    (returning : ∀ after buffer, Roomy st after (content.length + 1) buffer → returns ⟨⟩ after)
    (throwing : throws .lengthError st) : Leads (makeRoom allocates) returns throws st := by
  have counted := length_of_toByteArray gives
  obtain ⟨found, isBuffer, within, taken⟩ := toByteArray_eq_ok_iff.mp gives
  rw [makeRoom, leads_bind, leads_self, leads_bind, leads_lookup_some isBuffer, leads_ite]
  refine ⟨fun _ => ?_, fun notFull => ?_⟩
  · exact expand_makesRoom gives (i := 1) small returning throwing
  · rw [leads_pure]
    apply returning st found
    have full : st.this.mCount.toNat ≠ found.bytes.length := by
      intro same
      apply notFull
      rw [← UInt64.toNat_inj, Nio.ByteArray.toNat_size, same]
    exact {
      isBuffer := isBuffer
      count := rfl
      fits := by omega
      content := by rw [gives, taken]
      keeps := fun _ _ present => present
      place := .inl rfl }

theorem write_appends (gives : toByteArray st = .ok content)
    (small : content.length + 1 < 2 ^ 63) (b : BitVec 32) :
    LeadsTo (write allocates b) (content ++ [UInt8.ofNat b.toNat]) st := by
  unfold LeadsTo
  rw [write, leads_bind]
  apply makeRoom_makesRoom gives small
  · intro after target roomy
    have counted := roomy.counted gives
    have prefixed := roomy.take_eq gives
    have room := roomy.fits
    have fits : after.this.mCount.toNat + [UInt8.ofNat b.toNat].length ≤ target.bytes.length := by
      rw [counted]
      exact room
    rw [leads_bind, leads_self, leads_bind, leads_setCount]
    refine arraySet_sets roomy.isBuffer fits fun copied bytes => ?_
    refine (toByteArray_fill roomy.isBuffer bytes ?_ fits).trans ?_
    · exact toNat_add_of_small (by change _ + 1 < _; omega)
    · rw [prefixed]
  · exact ⟨Fault.noConfusion, rfl⟩

theorem reset_empties (gives : toByteArray st = .ok content) : LeadsTo reset [] st := by
  obtain ⟨found, isBuffer, -, -⟩ := toByteArray_eq_ok_iff.mp gives
  exact toByteArray_eq_ok_iff.mpr ⟨found, isBuffer, Nat.zero_le _, List.take_zero⟩

end Writes

/-! ## Whole runs -/

section Runs

variable {before : Session} {call : Call × (UInt64 → Bool)}

theorem appends_of_leadsTo (exact : before.Exact)
    (leads : LeadsTo (call.1.method call.2) (call.1.written before) before.memory) :
    Appends before call (before.after call) := by
  unfold LeadsTo Leads at leads
  unfold Session.after
  cases ran : before.calls call with
  | mk reply memory =>
      rw [← Session.calls, ran] at leads
      cases reply with
      | ok result =>
          exact {
            inRange := by rw [ran]; exact fun same => by cases same
            unchanged := fun thrown threw => by rw [ran] at threw; cases threw
            exact := Session.exact_iff.mpr leads }
      | error thrown =>
          obtain ⟨defined, rfl⟩ := leads
          exact {
            inRange := by rw [ran]; exact fun same => defined (Except.error.inj same)
            unchanged := fun _ _ => rfl
            exact := exact }

/-- A single call appends exactly if it does not copy a range onto a part of itself. -/
theorem appends_iff_apart (exact : before.Exact) (bounded : call.1.Bounded before) :
    Appends before call (before.after call) ↔ ApartFromItself before call := by
  obtain ⟨call, allocates⟩ := call
  have gives := exact.toByteArray
  cases call with
  | write b =>
      have appends := @appends_of_leadsTo before (.write b, allocates) exact
        (write_appends gives bounded b)
      exact ⟨fun _ => trivial, fun _ => appends⟩
  | reset =>
      have appends := @appends_of_leadsTo before (.reset, allocates) exact (reset_empties gives)
      exact ⟨fun _ => trivial, fun _ => appends⟩
  | writeRange buffer offset count =>
      constructor
      · intro appends found isFound same inSource room
        subst same
        by_contra overlap
        have ends := @writeRange_overlaps _ _ _ allocates _ _ gives isFound bounded.1 inSource
          room (by omega)
        unfold Leads at ends
        have inRange := appends.inRange
        unfold Session.calls Call.method at inRange
        split at ends
        · exact ends
        · rename_i thrown memory ran
          rw [ran, ends] at inRange
          exact inRange rfl
      · intro apart
        exact appends_of_leadsTo exact (writeRange_appends gives bounded.1 bounded.2 apart)

theorem step_eq_some_iff {after : Session} :
    before.step call = some after ↔ call.1.Bounded before ∧ before.after call = after := by
  rw [Session.step, Option.ite_none_right_eq_some, Option.some_inj]

end Runs

section Starts

variable {allocates : UInt64 → Bool} {arrays : List Nio.ByteArray}
variable {memory : Memory ByteArrayOutputStream}

theorem new_exact {size : UInt64} (constructed : new allocates arrays size = .ok memory) :
    ({ memory := memory, written := [] } : Session).Exact := by
  apply Session.exact_iff.mpr
  unfold new at constructed
  split at constructed
  · split at constructed
    · cases constructed
      exact toByteArray_eq_ok_iff.mpr ⟨_, List.getElem?_concat_length, Nat.zero_le _,
        List.take_zero⟩
    · cases constructed
  · cases constructed

/-- A new stream gives the content of the array that it has been made from. -/
theorem construct_exact {construction : Construction}
    (constructed : construct allocates arrays construction = .ok memory) :
    ({ memory := memory, written := construction.content arrays } : Session).Exact := by
  cases construction with
  | default => exact @new_exact allocates arrays memory 64 constructed
  | sized size => exact @new_exact allocates arrays memory size constructed
  | wrapped buffer =>
      apply Session.exact_iff.mpr
      change wrap arrays buffer = .ok memory at constructed
      unfold wrap at constructed
      cases isBuffer : arrays[buffer]? with
      | none =>
          rw [isBuffer] at constructed
          cases constructed
      | some found =>
          rw [isBuffer] at constructed
          cases constructed
          have whole : found.bytes.take found.size.toNat = found.bytes := by
            rw [Nio.ByteArray.toNat_size, List.take_length]
          rw [Construction.content, isBuffer]
          exact toByteArray_eq_ok_iff.mpr ⟨found, isBuffer, found.toNat_size.le, whole⟩

end Starts

/-- A stream gives in all of a run exactly what has been written to it, with copies that are
within their arrays and with failed writes that change nothing, if and only if no write copies a
range of the array of the stream onto a part of itself. -/
theorem appends_iff_meets {allocates : UInt64 → Bool} {arrays : List Nio.ByteArray}
    {construction : Construction} {memory : Memory ByteArrayOutputStream}
    (constructed : construct allocates arrays construction = .ok memory)
    (calls : List (Call × (UInt64 → Bool))) :
    (({ memory := memory, written := construction.content arrays } : Session).Exact ∧
      Relates Session.step Appends
        { memory := memory, written := construction.content arrays } calls) ↔
      Meets Session.step ApartFromItself
        { memory := memory, written := construction.content arrays } calls := by
  have starts := construct_exact constructed
  rw [and_iff_right starts]
  refine relates_iff_meets_of_keeping ?_ ?_ starts calls
  · intro before call after exact apart taken
    obtain ⟨bounded, rfl⟩ := step_eq_some_iff.mp taken
    exact ((appends_iff_apart exact bounded).mpr apart).exact
  · intro before call after exact taken
    obtain ⟨bounded, rfl⟩ := step_eq_some_iff.mp taken
    exact appends_iff_apart exact bounded

/-- A range of the wrapped array is written onto a part of itself. -/
theorem own_range_not_appended :
    construct (fun _ => true) [⟨[1, 2, 3], by decide⟩] (.wrapped 0) =
        .ok { arrays := [⟨[1, 2, 3], by decide⟩], this := { mBuffer := 0, mCount := 3 } } ∧
      ¬Relates Session.step Appends
        { memory := { arrays := [⟨[1, 2, 3], by decide⟩], this := { mBuffer := 0, mCount := 3 } }
          written := [1, 2, 3] }
        [(.reset, fun _ => true), (.writeRange 0 1 2, fun _ => true)] := by
  refine ⟨rfl, fun relates => ?_⟩
  have writes := (relates _ rfl).2 _ rfl
  exact writes.1.inRange rfl

/-- A stream that has no room at first. -/
theorem full_stream_appends :
    Relates Session.step Appends
      { memory := { arrays := [⟨[1, 2], by decide⟩, ⟨[], by decide⟩]
                    this := { mBuffer := 1, mCount := 0 } }
        written := [] }
      [(.write 7, fun _ => true), (.writeRange 0 0 2, fun _ => true)] := by
  have constructed : construct (fun _ => true) [⟨[1, 2], by decide⟩] (.sized 0) =
      .ok { arrays := [⟨[1, 2], by decide⟩, ⟨[], by decide⟩]
            this := { mBuffer := 1, mCount := 0 } } := rfl
  apply ((appends_iff_meets constructed _).mpr _).2
  intro wrote taken
  obtain ⟨-, rfl⟩ := step_eq_some_iff.mp taken
  refine ⟨trivial, fun appended _ => ⟨?_, trivial⟩⟩
  intro found _ own
  cases own

end ByteArrayOutputStream

end Mindroid
