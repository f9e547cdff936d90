import Mindroid.Util.Logging.LogFraming

/-!
# Which records a log buffer delivers

An abstract log keeps a list of records and drops the oldest ones when a new record
needs their room.  The byte ring behaves like the abstract log as long as no put
fills the ring to the last byte: then its two indices are equal, which the code
takes for an empty ring.
-/

set_option autoImplicit false

namespace Mindroid

open Foundation

/-! ## The abstract log -/

/-- Bytes a record takes in the ring. -/
def LogRecord.needs (record : LogRecord) : Nat :=
  record.encodedSize + 4

/-- Bytes some records take. -/
def used (records : List LogRecord) : Nat :=
  (records.map LogRecord.needs).sum

/-- Drop the oldest records until there is room. -/
def evict (capacity need : Nat) : List LogRecord → List LogRecord
  | [] => []
  | record :: records =>
      if capacity < used (record :: records) + need then
        evict capacity need records
      else
        record :: records

/-- One call of an operation of the log buffer. -/
inductive LogOp where
  | put (timestamp threadId : BitVec 64) (priority : BitVec 32) (tag message : Option (List UInt8))
  | get
  | reset
  deriving DecidableEq

/-- The record a put is about, if it is given a tag and a message. -/
def LogOp.record : LogOp → Option LogRecord
  | put timestamp threadId priority (some tag) (some message) =>
      some { mTimestamp := timestamp, mThreadId := threadId, mPriority := priority
             mTag := tag, mMessage := message }
  | _ => none

/-- What a log buffer is for: the records it still holds, the promise a reader waits
for, the values of all promises handed out and the records accepted so far. -/
structure LogSpec where
  records : List LogRecord := []
  pending : Option Nat := none
  outcomes : List (Option (Option LogRecord)) := []
  accepted : List LogRecord := []
  deriving DecidableEq

namespace LogSpec

/-- A record is accepted when its frame fits the ring and a 32-bit length. -/
def Accepts (capacity : Nat) (record : LogRecord) : Prop :=
  record.needs < 2 ^ 32 ∧ record.needs ≤ capacity

instance (capacity : Nat) (record : LogRecord) : Decidable (Accepts capacity record) :=
  inferInstanceAs (Decidable (_ ∧ _))

/-- Put an accepted record: hand it to the waiting reader, else buffer it. -/
def insert (capacity : Nat) (log : LogSpec) (record : LogRecord) : LogSpec :=
  match log.pending with
  | some promise =>
      { log with
        pending := none
        outcomes := log.outcomes.set promise (some (some record))
        accepted := log.accepted ++ [record] }
  | none =>
      { log with
        records := evict capacity record.needs log.records ++ [record]
        accepted := log.accepted ++ [record] }

/-- Give a reader the oldest record, or make it wait. -/
def take (log : LogSpec) : LogSpec :=
  match log.pending, log.records with
  | some _, _ => log
  | none, record :: records =>
      { log with records := records, outcomes := log.outcomes ++ [some (some record)] }
  | none, [] =>
      { log with pending := some log.outcomes.length, outcomes := log.outcomes ++ [none] }

/-- Forget the records and send a waiting reader away with null. -/
def discard (log : LogSpec) : LogSpec :=
  match log.pending with
  | some promise =>
      { log with
        records := [], pending := none, outcomes := log.outcomes.set promise (some none) }
  | none => { log with records := [] }

def step (capacity : Nat) (log : LogSpec) : LogOp → LogSpec
  | .get => log.take
  | .reset => log.discard
  | op =>
      match op.record with
      | some record => if Accepts capacity record then log.insert capacity record else log
      | none => log

def run (capacity : Nat) (ops : List LogOp) : LogSpec :=
  ops.foldl (step capacity) {}

/-- The records handed to readers, in the order of their promises. -/
def delivered (outcomes : List (Option (Option LogRecord))) : List LogRecord :=
  outcomes.filterMap Option.join

/-- The put does not fill the ring to the last byte, and its length is a positive
`int32_t`, in case the record is buffered. -/
def Safe (capacity : Nat) (log : LogSpec) (op : LogOp) : Prop :=
  ∀ record, op.record = some record → log.pending = none → Accepts capacity record →
    record.encodedSize < 2 ^ 31 ∧
      used (evict capacity record.needs log.records) + record.needs ≠ capacity

/-- Every put of a sequence of operations is safe. -/
def SafeFrom (capacity : Nat) (log : LogSpec) : List LogOp → Prop
  | [] => True
  | op :: ops => log.Safe capacity op ∧ SafeFrom capacity (log.step capacity op) ops

end LogSpec

@[simp] theorem used_nil : used [] = 0 := rfl

@[simp] theorem used_cons (record : LogRecord) (records : List LogRecord) :
    used (record :: records) = record.needs + used records := by
  simp [used]

@[simp] theorem used_append (front back : List LogRecord) :
    used (front ++ back) = used front + used back := by
  simp [used]

/-- Eviction drops the oldest records, and only as many as needed. -/
theorem evict_minimal {capacity need : Nat} (fits : need ≤ capacity) (records : List LogRecord) :
    ∃ gone, records = gone ++ evict capacity need records ∧
      used (evict capacity need records) + need ≤ capacity ∧
      ∀ front last, gone = front ++ [last] →
        capacity < used (last :: evict capacity need records) + need := by
  induction records with
  | nil => exact ⟨[], rfl, by simpa [evict] using fits, by simp⟩
  | cons record records ih =>
      rw [evict]
      by_cases tight : capacity < used (record :: records) + need
      · rw [if_pos tight]
        rcases ih with ⟨gone, split, room, least⟩
        refine ⟨record :: gone, by rw [List.cons_append, ← split], room, ?_⟩
        intro front last isLast
        rcases List.eq_nil_or_concat gone with empty | ⟨gone', last', isConcat⟩
        · subst empty
          have same : record = last := by
            cases front with
            | nil => simpa using isLast
            | cons first front => simp at isLast
          rw [List.nil_append] at split
          rw [← same, ← split]
          exact tight
        · apply least gone' last
          rw [List.concat_eq_append] at isConcat
          rw [isConcat, ← List.cons_append] at isLast
          rw [isConcat, (List.append_inj' isLast rfl).2]
      · rw [if_neg tight]
        exact ⟨[], rfl, Nat.not_lt.mp tight, by simp⟩

theorem evict_sublist (capacity need : Nat) (records : List LogRecord) :
    (evict capacity need records).Sublist records := by
  induction records with
  | nil => exact List.Sublist.slnil
  | cons record records ih =>
      rw [evict]
      split
      · exact ih.trans (List.sublist_cons_self _ _)
      · exact List.Sublist.refl _

/-! ## The abstract log delivers in order -/

namespace LogSpec

/-- A waiting reader has the last promise, and nothing is buffered meanwhile; what
was delivered and what is buffered are accepted records in order. -/
structure Ordered (log : LogSpec) : Prop where
  waiting : ∀ promise, log.pending = some promise →
    log.records = [] ∧ ∃ front, log.outcomes = front ++ [none] ∧ promise = front.length
  delivers : (delivered log.outcomes ++ log.records).Sublist log.accepted

theorem delivered_append (front back : List (Option (Option LogRecord))) :
    delivered (front ++ back) = delivered front ++ delivered back :=
  List.filterMap_append ..

theorem set_last (front : List (Option (Option LogRecord))) (value : Option (Option LogRecord)) :
    (front ++ [none]).set front.length value = front ++ [value] := by
  simp

theorem Ordered.insert {log : LogSpec} (ordered : log.Ordered) (capacity : Nat)
    (record : LogRecord) : (log.insert capacity record).Ordered := by
  have delivers := ordered.delivers
  cases pending : log.pending with
  | some promise =>
      rcases ordered.waiting promise pending with ⟨empty, front, outcomes, last⟩
      rw [outcomes, empty, List.append_nil, delivered_append] at delivers
      simp only [LogSpec.insert, pending]
      constructor
      · intro _ waits
        cases waits
      · rw [outcomes, last, set_last, empty, List.append_nil, delivered_append]
        simpa [delivered] using delivers
  | none =>
      simp only [LogSpec.insert, pending]
      constructor
      · intro _ waits
        cases waits
      · rw [← List.append_assoc]
        apply List.Sublist.append _ (List.Sublist.refl _)
        exact ((List.Sublist.refl _).append (evict_sublist _ _ _)).trans delivers

theorem Ordered.take {log : LogSpec} (ordered : log.Ordered) : log.take.Ordered := by
  have delivers := ordered.delivers
  cases pending : log.pending with
  | some promise => simpa only [LogSpec.take, pending] using ordered
  | none =>
      cases records : log.records with
      | nil =>
          rw [records, List.append_nil] at delivers
          simp only [LogSpec.take, pending, records]
          constructor
          · intro promise waits
            exact ⟨rfl, log.outcomes, rfl, (Option.some.inj waits).symm⟩
          · simpa [delivered] using delivers
      | cons record records' =>
          rw [records] at delivers
          simp only [LogSpec.take, pending, records]
          constructor
          · intro _ waits
            cases waits
          · simpa [delivered] using delivers

theorem Ordered.discard {log : LogSpec} (ordered : log.Ordered) : log.discard.Ordered := by
  have delivers := (List.sublist_append_left _ _).trans ordered.delivers
  cases pending : log.pending with
  | some promise =>
      rcases ordered.waiting promise pending with ⟨_, front, outcomes, last⟩
      simp only [LogSpec.discard, pending]
      constructor
      · intro _ waits
        cases waits
      · rw [outcomes, last, set_last, List.append_nil]
        rw [outcomes] at delivers
        simpa [delivered] using delivers
  | none =>
      simp only [LogSpec.discard, pending]
      constructor
      · intro _ waits
        cases waits
      · simpa using delivers

theorem Ordered.step {log : LogSpec} (ordered : log.Ordered) (capacity : Nat) (op : LogOp) :
    (log.step capacity op).Ordered := by
  cases op with
  | put timestamp threadId priority tag message =>
      simp only [LogSpec.step]
      split
      · split
        · exact ordered.insert capacity _
        · exact ordered
      · exact ordered
  | get => exact ordered.take
  | reset => exact ordered.discard

end LogSpec

/-! ## The ring holds the records of the abstract log -/

/-- The bytes of some records in the ring. -/
def content (records : List LogRecord) : List UInt8 :=
  (records.map LogRecord.frame).flatten

theorem length_content (records : List LogRecord) : (content records).length = used records := by
  induction records with
  | nil => rfl
  | cons record records ih =>
      rw [content, List.map_cons, List.flatten_cons, List.length_append, LogRecord.length_frame,
        used_cons, ← ih]
      rfl

theorem content_cons (record : LogRecord) (records : List LogRecord) :
    content (record :: records) =
      toBytes 4 record.size.toNat ++ (record.chunks.flatten ++ content records) := by
  rw [content, List.map_cons, List.flatten_cons, LogRecord.frame, List.append_assoc]
  rfl

theorem content_append (front back : List LogRecord) :
    content (front ++ back) = content front ++ content back := by
  simp [content]

/-- Every record takes more than one byte. -/
theorem length_le_used (records : List LogRecord) : records.length ≤ used records := by
  induction records with
  | nil => exact Nat.le_refl _
  | cons record records ih =>
      rw [used_cons, LogRecord.needs, List.length_cons]
      omega

namespace LogBuffer

/-- The ring holds exactly these records, oldest first, and is not full to the last
byte. -/
structure Stores (st : LogBuffer) (records : List LogRecord) : Prop where
  length : st.mBuffer.length = st.mSize
  bounded : st.mSize < 2 ^ 63
  inside : 0 < st.mSize → st.mReadIndex < st.mSize
  write : st.mWriteIndex = (st.mReadIndex + used records) % st.mSize
  holds : RingBuffer.Holds st.mBuffer st.mReadIndex (content records)
  notFull : records ≠ [] → used records < st.mSize
  small : ∀ record ∈ records, record.encodedSize < 2 ^ 31

variable {st : LogBuffer} {records : List LogRecord}

/-- The promises have no part in what the ring holds. -/
theorem Stores.with_promises (stores : Stores st records) (pending : Option Nat)
    (promises : List (Option (Option LogRecord))) :
    Stores { st with mPromise := pending, promises := promises } records :=
  ⟨stores.length, stores.bounded, stores.inside, stores.write, stores.holds, stores.notFull,
    stores.small⟩

theorem Stores.used_le (stores : Stores st records) : used records ≤ st.mSize := by
  rw [← length_content, ← stores.length]
  exact stores.holds.fits

theorem Stores.placed (stores : Stores st records) (nonempty : 0 < st.mSize) : Placed st := by
  refine ⟨stores.length, stores.bounded, stores.inside nonempty, ?_⟩
  rw [stores.write]
  exact Nat.mod_lt _ nonempty

theorem Stores.write_nil (stores : Stores st []) : st.mWriteIndex = st.mReadIndex := by
  rw [stores.write, used_nil, Nat.add_zero]
  rcases Nat.eq_zero_or_pos st.mSize with zero | nonempty
  · rw [zero, Nat.mod_zero]
  · exact Nat.mod_eq_of_lt (stores.inside nonempty)

/-- The write index is not the read index as long as records are held. -/
theorem Stores.write_of_ne_nil (stores : Stores st records) (some_ : records ≠ []) :
    0 < used records ∧ used records < st.mSize ∧ st.mReadIndex < st.mSize ∧
      st.mWriteIndex =
        if st.mReadIndex + used records < st.mSize then st.mReadIndex + used records
        else st.mReadIndex + used records - st.mSize := by
  have short := stores.notFull some_
  have inside := stores.inside (Nat.zero_lt_of_lt short)
  have positive := Nat.lt_of_lt_of_le (List.length_pos_iff.mpr some_) (length_le_used records)
  exact ⟨positive, short, inside, stores.write.trans (RingBuffer.add_mod_of_lt inside short)⟩

/-- Equal indices mean that no record is held. -/
theorem Stores.isEmpty_iff (stores : Stores st records) : st.isEmpty = true ↔ records = [] := by
  rw [isEmpty, beq_iff_eq]
  constructor
  · intro same
    by_contra some_
    obtain ⟨positive, short, inside, write⟩ := stores.write_of_ne_nil some_
    rw [write] at same
    split at same <;> omega
  · rintro rfl
    exact stores.write_nil.symm

theorem Stores.remainingCapacity_eq (stores : Stores st records) :
    st.remainingCapacity = st.mSize - used records := by
  rw [remainingCapacity]
  by_cases none_ : records = []
  · subst none_
    rw [stores.write_nil, if_pos (Nat.le_refl _), Nat.sub_self, used_nil]
  · obtain ⟨positive, short, inside, write⟩ := stores.write_of_ne_nil none_
    rw [write]
    split <;> split <;> omega

/-- The length in front of a small record is read back as a positive number. -/
theorem intFromByteArray_size {record : LogRecord} (small : record.encodedSize < 2 ^ 31) :
    intFromByteArray (toBytes 4 record.size.toNat) = record.encodedSize := by
  rw [intFromByteArray, ofBytes_toBytes_of_lt record.size.isLt, BitVec.ofNat_toNat,
    BitVec.setWidth_eq, LogRecord.size, LogRecord.toInt_ofNat small]

theorem toSize_natCast {value : Nat} (fits : value < 2 ^ 64) : toSize value = value := by
  rw [toSize, BitVec.ofInt_natCast, BitVec.toNat_ofNat, Nat.mod_eq_of_lt fits]

/-- Reading the length of the oldest record. -/
theorem Stores.readLength {record : LogRecord} (stores : Stores st (record :: records)) :
    ∃ st', readByteArray 4 st = .ok (toBytes 4 record.size.toNat) st' ∧
      st' = { st with mReadIndex := (st.mReadIndex + 4) % st.mSize } ∧
      RingBuffer.Holds st'.mBuffer st'.mReadIndex (record.chunks.flatten ++ content records) ∧
      st'.mReadIndex < st'.mSize := by
  have short := stores.used_le
  rw [used_cons, LogRecord.needs] at short
  have nonempty : 0 < st.mSize := by omega
  have inside := stores.inside nonempty
  have holds := stores.holds
  rw [content_cons] at holds
  have read := holds.read (by rw [stores.length]; exact inside)
  have behind := holds.dropFront
  rw [length_toBytes] at read behind
  rw [stores.length] at behind
  refine ⟨_, ?_, rfl, behind, Nat.mod_lt _ nonempty⟩
  rw [readByteArray_eq (stores.placed nonempty) (by omega), read]

/-- The ring behind its oldest record. -/
theorem Stores.skip {record : LogRecord} (stores : Stores st (record :: records)) :
    Stores
      { st with
        mReadIndex := ((st.mReadIndex + 4) % st.mSize + record.encodedSize) % st.mSize }
      records := by
  rcases stores.readLength with ⟨st', _, same, holds, _⟩
  have behind := holds.dropFront
  rw [LogRecord.length_chunks, same] at behind
  simp only [stores.length] at behind
  have write := stores.write
  rw [used_cons, LogRecord.needs] at write
  constructor
  · exact stores.length
  · exact stores.bounded
  · exact fun nonempty => Nat.mod_lt _ nonempty
  · simp only
    rw [write, Nat.mod_add_mod, Nat.add_assoc _ record.encodedSize, Nat.mod_add_mod]
    congr 1
    omega
  · exact behind
  · intro nonempty
    have short := stores.notFull (by simp)
    rw [used_cons] at short
    exact Nat.lt_of_le_of_lt (Nat.le_add_left _ _) short
  · exact fun record member => stores.small record (by simp [member])

/-- The eviction loop drops what the abstract log drops. -/
theorem Stores.makeRoom {need fuel : Nat} (stores : Stores st records) (fits : need ≤ st.mSize)
    (enough : records.length < fuel) :
    ∃ index, LogBuffer.makeRoom need fuel (st.mSize - used records) st =
        .ok ⟨⟩ { st with mReadIndex := index } ∧
      Stores { st with mReadIndex := index } (evict st.mSize need records) := by
  induction records generalizing st fuel with
  | nil =>
      cases fuel with
      | zero => exact absurd enough (by simp)
      | succ fuel =>
          refine ⟨st.mReadIndex, ?_, stores⟩
          rw [LogBuffer.makeRoom, used_nil, Nat.sub_zero, if_neg (Nat.not_lt.mpr fits)]
          rfl
  | cons record records ih =>
      cases fuel with
      | zero => exact absurd enough (by simp)
      | succ fuel =>
          have within := stores.used_le
          have bounded := stores.bounded
          rw [LogBuffer.makeRoom, evict]
          by_cases tight : st.mSize < used (record :: records) + need
          · rw [if_pos tight, if_pos (by omega)]
            rcases stores.readLength with ⟨st', read, same, _, inside⟩
            have small := stores.small record (by simp)
            subst same
            simp only at inside
            rw [LogM.bind_ok read, LogM.bind_modify, intFromByteArray_size small]
            rw [used_cons, LogRecord.needs] at within
            have index : toSize (((st.mReadIndex + 4) % st.mSize : Nat) +
                (record.encodedSize : Int)) =
                (st.mReadIndex + 4) % st.mSize + record.encodedSize := by
              rw [← Int.natCast_add, toSize_natCast (by omega)]
            have free : toSize (((st.mSize - used (record :: records) : Nat) : Int) +
                ((record.encodedSize : Int) + 4)) = st.mSize - used records := by
              have sum : ((st.mSize - used (record :: records) : Nat) : Int) +
                  ((record.encodedSize : Int) + 4) = ((st.mSize - used records : Nat) : Int) := by
                rw [used_cons, LogRecord.needs]
                omega
              rw [sum, toSize_natCast (by omega)]
            rw [index, free]
            exact ih stores.skip fits (by simpa using enough)
          · rw [if_neg tight, if_neg (by omega)]
            exact ⟨st.mReadIndex, rfl, stores⟩

/-- Copying a frame into a ring with room for it, and one byte to spare. -/
theorem Stores.copyIn {record : LogRecord} (stores : Stores st records)
    (small : record.encodedSize < 2 ^ 31) (room : used records + record.needs < st.mSize) :
    ∃ st', LogBuffer.copyIn record.frame st = .ok ⟨⟩ st' ∧ Stores st' (records ++ [record]) ∧
      st'.mSize = st.mSize ∧ st'.mPromise = st.mPromise ∧ st'.promises = st.promises := by
  have nonempty : 0 < st.mSize := by omega
  have length : record.frame.length = record.needs := LogRecord.length_frame record
  have last : content [record] = record.frame := by simp [content]
  have written : RingBuffer.Holds (RingBuffer.write st.mBuffer st.mWriteIndex record.frame) st.mReadIndex
      (content records ++ record.frame) := by
    rw [stores.write, ← length_content, ← stores.length]
    apply stores.holds.write
    · rw [stores.length]
      exact nonempty
    · rw [length_content, length, stores.length]
      omega
  refine ⟨_, copyIn_eq (stores.placed nonempty) (by rw [length]; omega), ?_, rfl, rfl, rfl⟩
  constructor
  · simp only
    rw [RingBuffer.length_write, stores.length]
    · rw [stores.length]
      exact (stores.placed nonempty).writeInside
    · rw [length, stores.length]
      omega
  · exact stores.bounded
  · exact stores.inside
  · simp only
    rw [stores.write, length, used_append, used_cons, used_nil, Nat.mod_add_mod, Nat.add_assoc]
    rfl
  · rw [content_append, last]
    exact written
  · intro _
    simpa using room
  · intro other member
    rcases List.mem_append.mp member with old | new
    · exact stores.small other old
    · rw [List.mem_singleton.mp new]
      exact small

/-! ## Each operation follows the abstract log -/

/-- The log buffer is in the state the abstract log describes. -/
structure Refines (st : LogBuffer) (log : LogSpec) : Prop where
  stores : Stores st log.records
  promise : st.mPromise = log.pending
  promises : st.promises = log.outcomes

variable {log : LogSpec}

theorem writeByteArray_eq {record : LogRecord} (stores : Stores st records)
    (fits : record.needs ≤ st.mSize) (small : record.encodedSize < 2 ^ 31)
    (spare : used (evict st.mSize record.needs records) + record.needs ≠ st.mSize) :
    ∃ st', writeByteArray record.frame st = .ok ⟨⟩ st' ∧
      Stores st' (evict st.mSize record.needs records ++ [record]) ∧
      st'.mSize = st.mSize ∧ st'.mPromise = st.mPromise ∧ st'.promises = st.promises := by
  have length : record.frame.length = record.needs := LogRecord.length_frame record
  rcases evict_minimal fits records with ⟨_, _, room, _⟩
  have enough : records.length < st.mSize + 1 :=
    Nat.lt_succ_of_le (Nat.le_trans (length_le_used records) stores.used_le)
  rcases stores.makeRoom fits enough with ⟨index, evicted, stores'⟩
  rcases stores'.copyIn small (Nat.lt_of_le_of_ne room spare) with
    ⟨st', copied, stores'', rest⟩
  refine ⟨st', ?_, stores'', rest⟩
  rw [writeByteArray, LogM.bind_get, stores.remainingCapacity_eq, length, LogM.bind_ok evicted]
  exact copied

/-- The comparison of `put` before it encodes the record. -/
theorem size_add_four (record : LogRecord) :
    (record.size + 4).toNat = record.needs % 2 ^ 32 := by
  rw [LogRecord.size, BitVec.toNat_add, BitVec.toNat_ofNat, LogRecord.needs]
  simp

/-- A record that is not accepted leaves the log buffer as it is. -/
theorem put_rejected {timestamp threadId : BitVec 64} {priority : BitVec 32}
    {tag message : List UInt8} {record : LogRecord}
    (about : record = ⟨timestamp, threadId, priority, tag, message⟩)
    (rejected : ¬LogSpec.Accepts st.mSize record) :
    put timestamp threadId priority (some tag) (some message) st = .ok false st ∨
      ∃ thrown, put timestamp threadId priority (some tag) (some message) st =
        .error thrown st := by
  rw [put]
  simp only [← about]
  rw [LogM.bind_get, size_add_four]
  by_cases large : record.needs % 2 ^ 32 > st.mSize
  · left
    rw [if_pos large]
    rfl
  · right
    have long : 2 ^ 32 ≤ record.encodedSize + 4 := by
      apply Classical.byContradiction
      intro short
      apply rejected
      have fits : record.needs < 2 ^ 32 := Nat.not_le.mp short
      rw [Nat.mod_eq_of_lt fits] at large
      exact ⟨fits, Nat.not_lt.mp large⟩
    rcases LogRecord.encode_error long with ⟨thrown, failed⟩
    refine ⟨thrown, ?_⟩
    rw [if_neg large, failed]
    rfl

/-- Completing the promise a reader waits for. -/
theorem complete_waiting {front : List (Option (Option LogRecord))}
    (outcomes : st.promises = front ++ [none]) (value : Option LogRecord) :
    (st.complete front.length value).promises = front ++ [some value] := by
  rw [complete, outcomes, List.modify_eq_set]
  simp

/-- A put whose record is accepted encodes it, and hands it to the reader that waits or writes it to
the ring. -/
theorem put_eq {timestamp threadId : BitVec 64} {priority : BitVec 32}
    {tag message : List UInt8} {record : LogRecord}
    (about : record = ⟨timestamp, threadId, priority, tag, message⟩)
    (accepts : LogSpec.Accepts st.mSize record) :
    put timestamp threadId priority (some tag) (some message) st =
      (match st.mPromise with
        | some promise =>
            .ok true { st.complete promise (some record) with mPromise := none }
        | none =>
            match writeByteArray record.frame st with
            | .ok _ st' => .ok true st'
            | .error thrown st' => .error thrown st') := by
  rcases LogRecord.encode_eq accepts.1 with ⟨buffer, encoded, isFrame⟩
  rw [put]
  simp only [← about]
  rw [LogM.bind_get, size_add_four, Nat.mod_eq_of_lt accepts.1,
    if_neg (Nat.not_lt.mpr accepts.2), LogM.bind_lift encoded, isFrame, LogM.bind_get]
  cases st.mPromise with
  | some promise => rfl
  | none =>
      change EStateM.bind (writeByteArray record.frame) _ st = _
      rw [EStateM.bind]
      cases writeByteArray record.frame st with
      | ok => rfl
      | error => rfl

/-- An accepted record goes where the abstract log puts it. -/
theorem put_accepted {timestamp threadId : BitVec 64} {priority : BitVec 32}
    {tag message : List UInt8} {record : LogRecord}
    (about : record = ⟨timestamp, threadId, priority, tag, message⟩)
    (refines : Refines st log) (ordered : log.Ordered) (accepts : LogSpec.Accepts st.mSize record)
    (safe : log.pending = none → record.encodedSize < 2 ^ 31 ∧
      used (evict st.mSize record.needs log.records) + record.needs ≠ st.mSize) :
    ∃ st', put timestamp threadId priority (some tag) (some message) st = .ok true st' ∧
      Refines st' (log.insert st.mSize record) ∧ st'.mSize = st.mSize := by
  have returned := put_eq about accepts
  rw [refines.promise] at returned
  cases pending : log.pending with
  | some promise =>
      rw [pending] at returned
      rcases ordered.waiting promise pending with ⟨empty, front, outcomes, last⟩
      refine ⟨_, returned, ?_, rfl⟩
      simp only [LogSpec.insert, pending]
      refine ⟨refines.stores.with_promises _ _, rfl, ?_⟩
      rw [outcomes, last, LogSpec.set_last]
      exact complete_waiting (refines.promises.trans outcomes) (some record)
  | none =>
      rcases safe pending with ⟨small, spare⟩
      rcases writeByteArray_eq refines.stores accepts.2 small spare with
        ⟨st', written, stores, size, promise, promises⟩
      rw [pending] at returned
      simp only [written] at returned
      refine ⟨st', returned, ?_, size⟩
      simp only [LogSpec.insert, pending]
      exact ⟨stores, promise.trans (refines.promise.trans pending),
        promises.trans refines.promises⟩

/-- A reader gets the promise that it waits for, or a new one, with what the abstract log gives
it. -/
theorem get_returns (refines : Refines st log) :
    ∃ st', LogBuffer.get st = .ok (st.mPromise.getD st.promises.length) st' ∧
      Refines st' log.take ∧ st'.mSize = st.mSize := by
  have stores := refines.stores
  rw [LogBuffer.get, LogM.bind_get, refines.promise]
  cases pending : log.pending with
  | some promise =>
      refine ⟨st, rfl, ?_, rfl⟩
      simpa only [LogSpec.take, pending] using refines
  | none =>
      cases records : log.records with
      | nil =>
          rw [records] at stores
          refine ⟨
            { st with mPromise := some st.promises.length, promises := st.promises ++ [none] },
            ?_, ?_, rfl⟩
          · simp only
            rw [if_neg (by simp [stores.isEmpty_iff.mpr rfl])]
            rfl
          · simp only [LogSpec.take, pending, records]
            refine ⟨stores.with_promises _ _, ?_, ?_⟩
            · simp only [refines.promises]
            · simp only [refines.promises]
      | cons record rest =>
          rw [records] at stores
          have small := stores.small record (by simp)
          have within := stores.used_le
          rw [used_cons, LogRecord.needs] at within
          have nonempty : st.isEmpty = false := by
            rw [← Bool.not_eq_true, stores.isEmpty_iff]
            simp
          rcases stores.readLength with ⟨st', readLength, same, holds, inside⟩
          have placed : Placed st' := by
            refine ⟨?_, ?_, inside, ?_⟩ <;> rw [same]
            · exact stores.length
            · exact stores.bounded
            · exact (stores.placed (by omega)).writeInside
          have fits : record.encodedSize ≤ st'.mSize := by
            rw [same]
            simp only
            omega
          have read := readByteArray_eq placed fits
          have front := holds.read (by rw [placed.length]; exact inside)
          rw [LogRecord.length_chunks] at front
          rw [front] at read
          simp only
          rw [if_pos (by simp [nonempty]), LogM.bind_ok readLength, intFromByteArray_size small,
            toSize_natCast (by omega), LogM.bind_ok read,
            LogM.bind_lift (LogRecord.decode_chunks small), LogM.bind_modify]
          refine ⟨_, rfl, ?_, by rw [same]⟩
          have skipped := stores.skip
          simp only [LogSpec.take, pending, records, same]
          refine ⟨skipped.with_promises _ _, ?_, ?_⟩
          · exact refines.promise.trans pending
          · simp only [refines.promises]

/-- A reader gets what the abstract log gives it. -/
theorem get_eq (refines : Refines st log) :
    ∃ promise st', LogBuffer.get st = .ok promise st' ∧ Refines st' log.take ∧
      st'.mSize = st.mSize :=
  ⟨_, get_returns refines⟩

theorem Stores.discard (stores : Stores st records) :
    Stores { st with mReadIndex := 0, mWriteIndex := 0 } [] where
  length := stores.length
  bounded := stores.bounded
  inside nonempty := nonempty
  write := by simp
  holds := RingBuffer.Holds.empty _ _
  notFull nonempty := absurd rfl nonempty
  small := by simp

/-- `reset` forgets what the abstract log forgets. -/
theorem reset_eq (refines : Refines st log) (ordered : log.Ordered) :
    ∃ st', reset st = .ok ⟨⟩ st' ∧ Refines st' log.discard ∧ st'.mSize = st.mSize := by
  have stores := refines.stores.discard
  rw [reset, LogM.bind_modify, LogM.bind_get]
  simp only [refines.promise]
  cases pending : log.pending with
  | some promise =>
      rcases ordered.waiting promise pending with ⟨_, front, outcomes, last⟩
      refine ⟨_, rfl, ?_, rfl⟩
      simp only [LogSpec.discard, pending]
      refine ⟨stores.with_promises _ _, rfl, ?_⟩
      rw [outcomes, last, LogSpec.set_last]
      exact complete_waiting (refines.promises.trans outcomes) none
  | none =>
      refine ⟨_, rfl, ?_, rfl⟩
      simp only [LogSpec.discard, pending]
      exact ⟨stores.with_promises _ _, rfl, refines.promises⟩

end LogBuffer

/-! ## Runs -/

/-- A log buffer and the records its puts have accepted. -/
structure LogRun where
  buffer : LogBuffer
  accepted : List LogRecord := []
  deriving DecidableEq

namespace LogRun

/-- One operation; an exception leaves the buffer as it is at the throw. -/
def step (run : LogRun) : LogOp → LogRun
  | op@(.put timestamp threadId priority tag message) =>
      match LogBuffer.put timestamp threadId priority tag message run.buffer with
      | .ok true st => { buffer := st, accepted := run.accepted ++ op.record.toList }
      | .ok false st => { run with buffer := st }
      | .error _ st => { run with buffer := st }
  | .get =>
      match LogBuffer.get run.buffer with
      | .ok _ st => { run with buffer := st }
      | .error _ st => { run with buffer := st }
  | .reset =>
      match LogBuffer.reset run.buffer with
      | .ok _ st => { run with buffer := st }
      | .error _ st => { run with buffer := st }

/-- Run operations on a new log buffer. -/
def run (size : Nat) (ops : List LogOp) : Except Thrown LogRun :=
  (LogBuffer.new size).map fun st => ops.foldl step { buffer := st }

/-- The run is where the abstract log says. -/
structure Follows (size : Nat) (run : LogRun) (log : LogSpec) : Prop where
  refines : run.buffer.Refines log
  ordered : log.Ordered
  size : run.buffer.mSize = size
  accepted : run.accepted = log.accepted

/-- A safe operation keeps run and abstract log together. -/
theorem Follows.step {size : Nat} {run : LogRun} {log : LogSpec} (follows : Follows size run log)
    {op : LogOp} (safe : log.Safe size op) : Follows size (run.step op) (log.step size op) := by
  have refines := follows.refines
  have sameSize := follows.size
  have ordered := follows.ordered.step size op
  cases op with
  | put timestamp threadId priority tag message =>
      cases about : (LogOp.put timestamp threadId priority tag message).record with
      | none =>
          have rejected : LogBuffer.put timestamp threadId priority tag message run.buffer =
              .ok false run.buffer := by
            cases tag with
            | none => rfl
            | some tag =>
                cases message with
                | none => rfl
                | some message => cases about
          have stays : log.step size (.put timestamp threadId priority tag message) = log := by
            simp only [LogSpec.step, about]
          rw [stays, LogRun.step]
          simp only [rejected]
          exact ⟨refines, follows.ordered, sameSize, follows.accepted⟩
      | some record =>
          cases tag with
          | none => cases about
          | some tag =>
              cases message with
              | none => cases about
              | some message =>
                  have isRecord : record = ⟨timestamp, threadId, priority, tag, message⟩ :=
                    (Option.some.inj about).symm
                  by_cases accepts : LogSpec.Accepts size record
                  · rcases LogBuffer.put_accepted isRecord refines follows.ordered
                      (by rw [sameSize]; exact accepts)
                      (by rw [sameSize]; exact fun open_ => safe record about open_ accepts) with
                      ⟨st', returned, refines', size'⟩
                    have inserts : log.step size
                        (.put timestamp threadId priority (some tag) (some message)) =
                        log.insert size record := by
                      simp only [LogSpec.step, about, if_pos accepts]
                    rw [inserts] at ordered ⊢
                    rw [sameSize] at refines' size'
                    rw [LogRun.step]
                    simp only [returned, about]
                    refine ⟨refines', ordered, size', ?_⟩
                    rw [follows.accepted, LogSpec.insert]
                    split <;> rfl
                  · have stays : log.step size
                        (.put timestamp threadId priority (some tag) (some message)) = log := by
                      simp only [LogSpec.step, about, if_neg accepts]
                    rw [stays, LogRun.step]
                    rcases LogBuffer.put_rejected isRecord (by rw [sameSize]; exact accepts) with
                      returned | ⟨thrown, returned⟩
                    · simp only [returned]
                      exact ⟨refines, follows.ordered, sameSize, follows.accepted⟩
                    · simp only [returned]
                      exact ⟨refines, follows.ordered, sameSize, follows.accepted⟩
  | get =>
      rcases LogBuffer.get_eq refines with ⟨promise, st', returned, refines', size'⟩
      rw [LogRun.step]
      simp only [returned]
      refine ⟨refines', ordered, size'.trans sameSize, ?_⟩
      rw [follows.accepted, LogSpec.step, LogSpec.take]
      split <;> rfl
  | reset =>
      rcases LogBuffer.reset_eq refines follows.ordered with ⟨st', returned, refines', size'⟩
      rw [LogRun.step]
      simp only [returned]
      refine ⟨refines', ordered, size'.trans sameSize, ?_⟩
      rw [follows.accepted, LogSpec.step, LogSpec.discard]
      split <;> rfl

/-- Safe operations keep run and abstract log together. -/
theorem Follows.steps {size : Nat} {run : LogRun} {log : LogSpec} (follows : Follows size run log)
    {ops : List LogOp} (safe : log.SafeFrom size ops) :
    Follows size (ops.foldl LogRun.step run) (ops.foldl (LogSpec.step size) log) := by
  induction ops generalizing run log with
  | nil => exact follows
  | cons op ops ih => exact ih (follows.step safe.1) safe.2

/-- A new log buffer is empty. -/
theorem new_follows {size : Nat} (bounded : size < 2 ^ 63) :
    ∃ st, LogBuffer.new size = .ok st ∧ Follows size { buffer := st } {} := by
  refine ⟨{ mSize := size, mBuffer := List.replicate size 0 }, ?_, ?_⟩
  · rw [LogBuffer.new, newByteArray_ok bounded]
    rfl
  · refine ⟨⟨⟨?_, bounded, fun nonempty => nonempty, ?_, RingBuffer.Holds.empty _ _, ?_, ?_⟩, rfl, rfl⟩,
      ⟨fun _ waits => (by cases waits), List.Sublist.slnil⟩, rfl, rfl⟩
    · simp
    · simp
    · simp
    · simp

/-- What readers of a log buffer may rely on after some operations: every promise
has the value the abstract log gives it, the records among these values are
accepted ones in the order they were put, and the abstract log evicts the oldest
records only, and no more than a new record needs. -/
structure Delivers (size : Nat) (ops : List LogOp) (run : LogRun) : Prop where
  promises : run.buffer.promises = (LogSpec.run size ops).outcomes
  accepted : run.accepted = (LogSpec.run size ops).accepted
  inOrder : (LogSpec.delivered run.buffer.promises).Sublist run.accepted
  evicts : ∀ need ≤ size, ∃ gone,
    (LogSpec.run size ops).records = gone ++ evict size need (LogSpec.run size ops).records ∧
      used (evict size need (LogSpec.run size ops).records) + need ≤ size ∧
      ∀ front last, gone = front ++ [last] →
        size < used (last :: evict size need (LogSpec.run size ops).records) + need

/-- A record without tag and message text; it takes 32 bytes. -/
def emptyRecord : LogOp :=
  .put 1 2 3 (some []) (some [])

end LogRun

end Mindroid
