import Mindroid.Util.HashMap

/-!
# Hash maps are finite maps

What keys stand for is what the comparison of keys finds out.  Every operation does to a hash map
what it does to the finite map from what the keys stand for to the values, as long as it is not one
of those that use a null pointer or change the map by reading it.
-/

set_option autoImplicit false

namespace Mindroid

open Foundation

/-- A finite map in the mathematical sense. -/
abbrev FiniteMap (γ ν : Type) := Finmap fun _ : γ => ν

namespace HashMap

variable {κ α ν γ : Type} {kind : Kind κ α ν} {stands : α → γ}

def finite (stands_same : KeyedList.Stands kind.same stands) (map : HashMap kind) :
    FiniteMap γ ν :=
  KeyedList.finite stands_same map.entries map.apart

variable [DecidableEq γ]

/-- What an operation returns for a finite map, and the finite map afterwards. -/
def Agrees (stands_same : KeyedList.Stands kind.same stands) (before : FiniteMap γ ν) :
    Operation kind → Returned α ν → FiniteMap γ ν → Prop
  | .clear, .nothing, after => after = ∅
  | .containsKey key, .flag flag, after =>
      (flag = true ↔ ∃ object, kind.deref key = some object ∧ stands object ∈ before) ∧
        after = before
  | .containsValue value, .flag flag, after =>
      (flag = true ↔ ∃ entry ∈ before.entries, kind.sameValue entry.2 value = true) ∧
        after = before
  | .get key, .value value, after =>
      ∃ object, kind.deref key = some object ∧
        value = (before.lookup (stands object)).getD kind.default ∧ after = before
  | .isEmpty, .flag flag, after => (flag = true ↔ before = ∅) ∧ after = before
  | .keySet, .keys keys, after => ↑(keys.map stands) = before.keys.val ∧ after = before
  | .put key value, .value old, after =>
      ∃ object, kind.deref key = some object ∧
        old = (before.lookup (stands object)).getD kind.default ∧
          after = before.insert (stands object) value
  | .putAll other, .nothing, after => after = other.finite stands_same ∪ before
  | .remove key, .value old, after =>
      ∃ object, kind.deref key = some object ∧
        old = (before.lookup (stands object)).getD kind.default ∧
          after = before.erase (stands object)
  | .size, .count count, after => count = before.keys.card ∧ after = before
  | .values, .values values, after =>
      ↑values = before.entries.map (fun entry => entry.2) ∧ after = before
  | _, _, _ => False

/-- The hash map, or none after the use of a null pointer. -/
def step : Option (HashMap kind) → Operation kind → Option (Option (HashMap kind))
  | none, _ => none
  | some map, operation => some ((map.call operation).map Prod.fst)

/-- The call returns, and returns and does what it does for the finite map. -/
def Refines (stands_same : KeyedList.Stands kind.same stands) (before : Option (HashMap kind))
    (operation : Operation kind) (after : Option (HashMap kind)) : Prop :=
  ∀ map, before = some map → ∃ map' returned,
    map.call operation = some (map', returned) ∧ after = some map' ∧
      Agrees stands_same (map.finite stands_same) operation returned (map'.finite stands_same)

/-- The loop of `containsValue` finds the value in front of the first null pointer. -/
def FoundFirst (kind : Kind κ α ν) (value : ν) (values : List ν) : Prop :=
  ∀ front stored back, values = front ++ stored :: back → kind.isNull stored = true →
    ∃ earlier ∈ front, kind.isNull earlier = false ∧ kind.sameValue earlier value = true

/-- The operations that can be relied on.  Only `containsKey` tests whether a key is null, plain
values are only read for keys that are there, and no null pointer is among the values that
`containsValue` looks at. -/
def Reliable (map : HashMap kind) : Operation kind → Prop
  | .containsValue value =>
      if kind.isNull value then
        ∀ stored ∈ map.values, kind.isNull stored = false
      else
        FoundFirst kind value map.values
  | .get key =>
      ∃ object, kind.deref key = some object ∧ (kind.inserts = true → map.find object ≠ none)
  | .put key _ => kind.deref key ≠ none
  | .remove key => kind.deref key ≠ none
  | _ => True

/-- A null pointer is the same as null pointers only. -/
def Kind.Lawful (kind : Kind κ α ν) : Prop :=
  ∀ stored value, kind.isNull value = true →
    (kind.sameValue stored value = true ↔ kind.isNull stored = true)

section Single

variable {stands_same : KeyedList.Stands kind.same stands} {map : HashMap kind} {object : α}

theorem lookup_finite (stands_same : KeyedList.Stands kind.same stands) (map : HashMap kind)
    (object : α) : (map.finite stands_same).lookup (stands object) = map.find object :=
  KeyedList.lookup_finite stands_same map.apart object

theorem mem_finite_iff (stands_same : KeyedList.Stands kind.same stands) (map : HashMap kind)
    (object : α) : stands object ∈ map.finite stands_same ↔ (map.find object).isSome = true := by
  rw [← lookup_finite stands_same, Finmap.lookup_isSome]

theorem finite_assign (stands_same : KeyedList.Stands kind.same stands) (map : HashMap kind)
    (object : α) (value : ν) :
    (map.assign object value).finite stands_same =
      (map.finite stands_same).insert (stands object) value :=
  KeyedList.finite_assign stands_same map.apart object value

theorem finite_erase (stands_same : KeyedList.Stands kind.same stands) (map : HashMap kind)
    (object : α) :
    (map.erase object).finite stands_same = (map.finite stands_same).erase (stands object) :=
  KeyedList.finite_erase stands_same map.apart object

theorem find_assign (stands_same : KeyedList.Stands kind.same stands) (map : HashMap kind)
    (object : α) (value : ν) : (map.assign object value).find object = some value := by
  rw [← lookup_finite stands_same, finite_assign, Finmap.lookup_insert]

omit [DecidableEq γ] in
theorem values_finite (stands_same : KeyedList.Stands kind.same stands) (map : HashMap kind) :
    (map.finite stands_same).entries.map (fun entry => entry.2) = ↑map.values := by
  have values : (KeyedList.sigmas stands map.entries).map (fun entry => entry.2) = map.values :=
    List.map_map
  rw [← values]
  rfl

omit [DecidableEq γ] in
theorem keys_finite (stands_same : KeyedList.Stands kind.same stands) (map : HashMap kind) :
    (map.finite stands_same).keys.val = ↑(map.entries.map fun entry => stands entry.1) := by
  rw [finite, KeyedList.finite, Finmap.keys_val, AList.keys, KeyedList.keys_sigmas]

/-- What `put` and `remove` start with: the old value, and perhaps a new entry of the key. -/
theorem oldValue_spec (stands_same : KeyedList.Stands kind.same stands) (map : HashMap kind)
    (object : α) :
    (map.oldValue object).2 =
        ((map.finite stands_same).lookup (stands object)).getD kind.default ∧
      ((map.oldValue object).1 = map ∨
        map.find object = none ∧ (map.oldValue object).1 = map.assign object kind.default) := by
  rw [lookup_finite, oldValue]
  cases inserts : kind.inserts with
  | false => exact ⟨rfl, .inl rfl⟩
  | true =>
      rw [if_pos rfl, access]
      cases found : map.find object with
      | some value =>
          dsimp only
          rw [found]
          exact ⟨rfl, .inl rfl⟩
      | none =>
          dsimp only
          rw [find_assign stands_same]
          exact ⟨rfl, .inr ⟨rfl, rfl⟩⟩

theorem putObject_spec (stands_same : KeyedList.Stands kind.same stands) (map : HashMap kind)
    (object : α) (value : ν) :
    (map.putObject object value).2 =
        ((map.finite stands_same).lookup (stands object)).getD kind.default ∧
      (map.putObject object value).1.finite stands_same =
        (map.finite stands_same).insert (stands object) value := by
  rcases oldValue_spec stands_same map object with ⟨old, shape⟩
  refine ⟨old, ?_⟩
  rw [putObject, finite_assign]
  cases shape with
  | inl same => rw [same]
  | inr added => rw [added.2, finite_assign, Finmap.insert_insert]

theorem removeObject_spec (stands_same : KeyedList.Stands kind.same stands) (map : HashMap kind)
    (object : α) :
    ((map.oldValue object).1.erase object).finite stands_same =
      (map.finite stands_same).erase (stands object) := by
  rw [finite_erase]
  cases (oldValue_spec stands_same map object).2 with
  | inl same => rw [same]
  | inr added =>
      rw [added.2, finite_assign]
      apply Finmap.ext_lookup
      intro image
      by_cases isKey : image = stands object
      · rw [isKey, Finmap.lookup_erase, Finmap.lookup_erase]
      · rw [Finmap.lookup_erase_ne isKey, Finmap.lookup_erase_ne isKey,
          Finmap.lookup_insert_of_ne _ isKey]

omit [DecidableEq γ] in
theorem finite_new (stands_same : KeyedList.Stands kind.same stands) :
    (new kind).finite stands_same = ∅ :=
  rfl

omit [DecidableEq γ] in
theorem finite_empty_iff (stands_same : KeyedList.Stands kind.same stands) (map : HashMap kind) :
    map.isEmpty = true ↔ map.finite stands_same = ∅ := by
  rw [isEmpty, List.isEmpty_iff]
  constructor
  · intro empty
    rcases map with ⟨entries, apart⟩
    cases empty
    rfl
  · intro empty
    have keys := keys_finite stands_same map
    rw [empty] at keys
    exact List.map_eq_nil_iff.mp (Multiset.coe_eq_zero _ |>.mp keys.symm)

omit [DecidableEq γ] in
theorem size_eq (stands_same : KeyedList.Stands kind.same stands) (map : HashMap kind) :
    map.size = (map.finite stands_same).keys.card := by
  rw [Finset.card, keys_finite, Multiset.coe_card, List.length_map, size]

/-- Keys that are apart are all added to a `HashSet`. -/
theorem addKeys_eq {entries : List (α × ν)} (apart : KeyedList.Apart kind.same entries)
    {keys : List α} (absent : ∀ key ∈ keys, ∀ entry ∈ entries, kind.same key entry.1 = false) :
    entries.foldl (fun keys entry => addKey kind keys entry.1) keys =
      keys ++ entries.map Prod.fst := by
  induction entries generalizing keys with
  | nil => exact (List.append_nil keys).symm
  | cons first rest ih =>
      have parts := List.pairwise_cons.mp apart
      have added : addKey kind keys first.1 = keys ++ [first.1] := by
        rw [addKey, if_neg]
        rw [Bool.not_eq_true, List.any_eq_false]
        intro key member
        rw [absent key member first List.mem_cons_self]
        exact Bool.false_ne_true
      rw [List.foldl_cons, added, ih parts.2, List.append_assoc]
      · rfl
      · intro key member entry inRest
        cases List.mem_append.mp member with
        | inl before => exact absent key before entry (List.mem_cons_of_mem _ inRest)
        | inr isFirst =>
            rw [List.mem_singleton.mp isFirst]
            exact parts.1 entry inRest

theorem keySet_eq (map : HashMap kind) : map.keySet = map.entries.map Prod.fst :=
  (addKeys_eq map.apart fun _ member => absurd member List.not_mem_nil).trans
    (List.nil_append _)

/-- `putAll` puts one entry after the other; which one first does not matter. -/
theorem putEach_finite (stands_same : KeyedList.Stands kind.same stands)
    {entries : List (α × ν)} (apart : KeyedList.Apart kind.same entries) (map : HashMap kind) :
    (entries.foldl (fun map entry => (map.putObject entry.1 entry.2).1) map).finite stands_same =
      KeyedList.finite stands_same entries apart ∪ map.finite stands_same := by
  induction entries generalizing map with
  | nil => exact Finmap.empty_union.symm
  | cons first rest ih =>
      have parts := List.pairwise_cons.mp apart
      have fresh : stands first.1 ∉ KeyedList.finite stands_same rest parts.2 := by
        intro member
        rw [Finmap.mem_def] at member
        have inKeys : stands first.1 ∈ (KeyedList.sigmas stands rest).keys := member
        rw [KeyedList.keys_sigmas] at inKeys
        rcases List.mem_map.mp inKeys with ⟨entry, inRest, equal⟩
        have different := parts.1 entry inRest
        rw [(stands_same first.1 entry.1).mpr equal.symm] at different
        cases different
      have whole : KeyedList.finite stands_same (first :: rest) apart =
          (KeyedList.finite stands_same rest parts.2).insert (stands first.1) first.2 := by
        apply Finmap.ext
        rw [Finmap.entries_insert_of_notMem fresh]
        rfl
      rw [List.foldl_cons, ih parts.2, (putObject_spec stands_same map first.1 first.2).2, whole,
        ← Finmap.insert_union]
      apply Finmap.ext_lookup
      intro image
      by_cases isKey : image = stands first.1
      · rw [isKey, Finmap.lookup_insert, Finmap.lookup_union_right fresh, Finmap.lookup_insert]
      · rw [Finmap.lookup_insert_of_ne _ isKey]
        by_cases inRest : image ∈ KeyedList.finite stands_same rest parts.2
        · rw [Finmap.lookup_union_left inRest, Finmap.lookup_union_left inRest]
        · rw [Finmap.lookup_union_right inRest, Finmap.lookup_union_right inRest,
            Finmap.lookup_insert_of_ne _ isKey]

theorem putAll_finite (stands_same : KeyedList.Stands kind.same stands) (map other : HashMap kind) :
    (map.putAll other).finite stands_same =
      other.finite stands_same ∪ map.finite stands_same :=
  putEach_finite stands_same other.apart map

omit [DecidableEq γ] in
/-- A map of objects is read without a change. -/
theorem get_eq {key : κ} (reads : kind.inserts = false) (isKey : kind.deref key = some object) :
    map.get key = some (map, (map.find object).getD kind.default) := by
  rw [get, isKey]
  dsimp only
  cases map.find object with
  | none =>
      rw [reads]
      rfl
  | some value => rfl

/-- What is found after an entry was put. -/
theorem find_putObject (stands_same : KeyedList.Stands kind.same stands) (map : HashMap kind)
    (object other : α) (value : ν) :
    (map.putObject object value).1.find other =
      if stands other = stands object then some value else map.find other := by
  rw [← lookup_finite stands_same, (putObject_spec stands_same map object value).2]
  split
  case isTrue same => rw [same, Finmap.lookup_insert]
  case isFalse different => rw [Finmap.lookup_insert_of_ne _ different, lookup_finite stands_same]

/-- What is found after an entry was removed. -/
theorem find_removeObject (stands_same : KeyedList.Stands kind.same stands) (map : HashMap kind)
    (object other : α) :
    ((map.oldValue object).1.erase object).find other =
      if stands other = stands object then none else map.find other := by
  rw [← lookup_finite stands_same, removeObject_spec]
  split
  case isTrue same => rw [same, Finmap.lookup_erase]
  case isFalse different => rw [Finmap.lookup_erase_ne different, lookup_finite stands_same]

theorem find_putAll (stands_same : KeyedList.Stands kind.same stands) (map others : HashMap kind)
    (object : α) : (map.putAll others).find object = (others.find object).or (map.find object) := by
  rw [← lookup_finite stands_same (map.putAll others), putAll_finite]
  cases found : others.find object with
  | none =>
      have absent : stands object ∉ others.finite stands_same := by
        rw [mem_finite_iff, found]
        exact Bool.false_ne_true
      rw [Finmap.lookup_union_right absent, lookup_finite, Option.none_or]
  | some value =>
      have present : stands object ∈ others.finite stands_same := by
        rw [mem_finite_iff, found]
        rfl
      rw [Finmap.lookup_union_left present, lookup_finite, found, Option.some_or]

/-! ## Values that are looked for -/

theorem foundFirst_cons {value stored : ν} {rest : List ν} (notNull : kind.isNull stored = false)
    (different : kind.sameValue stored value = false) :
    FoundFirst kind value (stored :: rest) ↔ FoundFirst kind value rest := by
  constructor
  · intro first front null back split isNull
    rcases first (stored :: front) null back (congrArg (stored :: ·) split) isNull with
      ⟨earlier, member, known, found⟩
    cases List.mem_cons.mp member with
    | inl isStored =>
        rw [isStored, different] at found
        cases found
    | inr inFront => exact ⟨earlier, inFront, known, found⟩
  · intro first front null back split isNull
    cases front with
    | nil =>
        cases split
        rw [isNull] at notNull
        cases notNull
    | cons other front =>
        cases split
        rcases first front null back rfl isNull with ⟨earlier, member, known, found⟩
        exact ⟨earlier, List.mem_cons_of_mem _ member, known, found⟩

/-- The loop of `containsValue` uses no null pointer if it finds the value first, and then finds
out whether the value is there. -/
theorem anyEquals_spec (value : ν) (values : List ν) :
    (FoundFirst kind value values → ∃ flag, anyEquals kind value values = some flag ∧
      (flag = true ↔ ∃ stored ∈ values, kind.sameValue stored value = true)) ∧
      (anyEquals kind value values ≠ none → FoundFirst kind value values) := by
  induction values with
  | nil =>
      refine ⟨fun _ => ⟨false, rfl, fun found => (by cases found), ?_⟩, fun _ => ?_⟩
      · rintro ⟨stored, member, _⟩
        exact absurd member List.not_mem_nil
      · intro front stored back split
        exact absurd split.symm (List.append_ne_nil_of_right_ne_nil _ (List.cons_ne_nil _ _))
  | cons stored rest ih =>
      rw [anyEquals]
      cases isNull : kind.isNull stored with
      | true =>
          rw [if_pos rfl]
          refine ⟨fun first => ?_, fun read => absurd rfl read⟩
          rcases first [] stored rest rfl isNull with ⟨_, member, _⟩
          exact absurd member List.not_mem_nil
      | false =>
          rw [if_neg Bool.false_ne_true]
          cases found : kind.sameValue stored value with
          | true =>
              rw [if_pos rfl]
              refine ⟨fun _ => ⟨true, rfl, fun _ => ⟨stored, List.mem_cons_self, found⟩,
                fun _ => rfl⟩, fun _ front null back split nullStored => ?_⟩
              cases front with
              | nil =>
                  cases split
                  rw [isNull] at nullStored
                  cases nullStored
              | cons other front =>
                  cases split
                  exact ⟨stored, List.mem_cons_self, isNull, found⟩
          | false =>
              rw [if_neg Bool.false_ne_true, foundFirst_cons isNull found]
              refine ⟨fun first => ?_, ih.2⟩
              rcases ih.1 first with ⟨flag, returns, flag_iff⟩
              refine ⟨flag, returns, flag_iff.trans ⟨?_, ?_⟩⟩
              · rintro ⟨other, member, same⟩
                exact ⟨other, List.mem_cons_of_mem _ member, same⟩
              · rintro ⟨other, member, same⟩
                cases List.mem_cons.mp member with
                | inl isStored =>
                    rw [isStored, found] at same
                    cases same
                | inr inRest => exact ⟨other, inRest, same⟩

omit [DecidableEq γ] in
theorem exists_value_iff (stands_same : KeyedList.Stands kind.same stands) (map : HashMap kind)
    (value : ν) :
    (∃ entry ∈ (map.finite stands_same).entries, kind.sameValue entry.2 value = true) ↔
      ∃ stored ∈ map.values, kind.sameValue stored value = true := by
  have members : ∀ stored, stored ∈ map.values ↔
      ∃ entry ∈ (map.finite stands_same).entries, entry.2 = stored := by
    intro stored
    rw [← Multiset.mem_coe, ← values_finite stands_same, Multiset.mem_map]
  constructor
  · rintro ⟨entry, member, same⟩
    exact ⟨entry.2, (members entry.2).mpr ⟨entry, member, rfl⟩, same⟩
  · rintro ⟨stored, member, same⟩
    rcases (members stored).mp member with ⟨entry, inside, rfl⟩
    exact ⟨entry, inside, same⟩

/-! ## One call -/

/-- An operation refines the one on the finite map if it returns and agrees with it. -/
theorem refines_some_iff {operation : Operation kind} :
    Refines stands_same (some map) operation ((map.call operation).map Prod.fst) ↔
      ∃ map' returned, map.call operation = some (map', returned) ∧
        Agrees stands_same (map.finite stands_same) operation returned
          (map'.finite stands_same) := by
  constructor
  · intro refines
    rcases refines map rfl with ⟨map', returned, calls, _, agrees⟩
    exact ⟨map', returned, calls, agrees⟩
  · rintro ⟨map', returned, calls, agrees⟩ _ isMap
    cases isMap
    exact ⟨map', returned, calls, by rw [calls]; rfl, agrees⟩

theorem refines_of_call {operation : Operation kind} {map' : HashMap kind} {returned : Returned α ν}
    (calls : map.call operation = some (map', returned)) :
    Refines stands_same (some map) operation ((map.call operation).map Prod.fst) ↔
      Agrees stands_same (map.finite stands_same) operation returned
        (map'.finite stands_same) := by
  rw [refines_some_iff, calls]
  constructor
  · rintro ⟨_, _, same, agrees⟩
    cases same
    exact agrees
  · intro agrees
    exact ⟨map', returned, rfl, agrees⟩

theorem not_refines_of_null {operation : Operation kind} (calls : map.call operation = none) :
    ¬ Refines stands_same (some map) operation ((map.call operation).map Prod.fst) := by
  rw [refines_some_iff, calls]
  rintro ⟨_, _, returns, _⟩
  cases returns

theorem containsKey_refines (stands_same : KeyedList.Stands kind.same stands)
    (map : HashMap kind) (key : κ) :
    Refines stands_same (some map) (.containsKey key)
      ((map.call (.containsKey key)).map Prod.fst) := by
  refine refines_some_iff.mpr ⟨_, _, rfl, ?_, rfl⟩
  rw [containsKey]
  cases kind.deref key with
  | none =>
      refine ⟨fun found => (by cases found), ?_⟩
      rintro ⟨_, isObject, _⟩
      cases isObject
  | some object =>
      dsimp only
      rw [← mem_finite_iff stands_same]
      exact ⟨fun member => ⟨object, rfl, member⟩, fun ⟨_, isObject, member⟩ => by
        cases isObject
        exact member⟩

theorem containsValue_refines_iff (lawful : kind.Lawful)
    (stands_same : KeyedList.Stands kind.same stands) (map : HashMap kind) (value : ν) :
    Refines stands_same (some map) (.containsValue value)
        ((map.call (.containsValue value)).map Prod.fst) ↔
      map.Reliable (.containsValue value) := by
  rw [Reliable]
  cases isNull : kind.isNull value with
  | true =>
      have calls : map.call (.containsValue value) = some (map, .flag false) := by
        rw [call, containsValue, isNull]
        rfl
      rw [refines_of_call calls, if_pos rfl]
      constructor
      · intro agrees stored member
        rw [← Bool.not_eq_true]
        intro storedNull
        have found := agrees.1.mpr ((exists_value_iff stands_same map value).mpr
          ⟨stored, member, (lawful stored value isNull).mpr storedNull⟩)
        cases found
      · intro noNull
        refine ⟨⟨fun found => (by cases found), fun found => ?_⟩, rfl⟩
        rcases (exists_value_iff stands_same map value).mp found with ⟨stored, member, same⟩
        have storedNull := (lawful stored value isNull).mp same
        rw [noNull stored member] at storedNull
        exact storedNull
  | false =>
      have start : map.call (.containsValue value) =
          (anyEquals kind value map.values).map fun flag => (map, .flag flag) := by
        rw [call, containsValue, isNull]
        rfl
      rw [if_neg Bool.false_ne_true]
      have spec := @anyEquals_spec _ _ _ kind value map.values
      cases result : anyEquals kind value map.values with
      | none =>
          rw [result] at start
          refine ⟨fun refines => absurd refines (not_refines_of_null start), fun first => ?_⟩
          rcases spec.1 first with ⟨_, returns, _⟩
          rw [result] at returns
          cases returns
      | some flag =>
          rw [result] at start
          rw [refines_of_call start]
          have first := spec.2 (by rw [result]; exact Option.some_ne_none flag)
          rcases spec.1 first with ⟨_, returns, flag_iff⟩
          rw [result] at returns
          cases returns
          exact ⟨fun _ => first,
            fun _ => ⟨flag_iff.trans (exists_value_iff stands_same map value).symm, rfl⟩⟩

theorem get_refines_iff (stands_same : KeyedList.Stands kind.same stands) (map : HashMap kind)
    (key : κ) :
    Refines stands_same (some map) (.get key) ((map.call (.get key)).map Prod.fst) ↔
      map.Reliable (.get key) := by
  rw [Reliable]
  cases isKey : kind.deref key with
  | none =>
      have calls : map.call (.get key) = none := by
        rw [call, get, isKey]
        rfl
      refine ⟨fun refines => absurd refines (not_refines_of_null calls), ?_⟩
      rintro ⟨_, isObject, _⟩
      cases isObject
  | some object =>
      have old := lookup_finite stands_same map object
      cases found : map.find object with
      | some value =>
          have calls : map.call (.get key) = some (map, .value value) := by
            rw [call, get, isKey]
            dsimp only
            rw [found]
            rfl
          rw [refines_of_call calls]
          refine ⟨fun _ => ⟨object, rfl, fun _ => ?_⟩, fun _ => ⟨object, isKey, ?_, rfl⟩⟩
          · rw [found]
            exact Option.some_ne_none value
          · rw [old, found]
            rfl
      | none =>
          cases inserts : kind.inserts with
          | false =>
              have calls : map.call (.get key) = some (map, .value kind.default) := by
                rw [call, get, isKey]
                dsimp only
                rw [found, inserts]
                rfl
              rw [refines_of_call calls]
              refine ⟨fun _ => ⟨object, rfl, fun isTrue => (by cases isTrue)⟩,
                fun _ => ⟨object, isKey, ?_, rfl⟩⟩
              rw [old, found]
              rfl
          | true =>
              have calls : map.call (.get key) =
                  some (map.assign object kind.default, .value kind.default) := by
                rw [call, get, isKey]
                dsimp only
                rw [found, inserts, if_pos rfl, access, found]
                rfl
              rw [refines_of_call calls]
              constructor
              · -- the new entry is in the finite map now
                rintro ⟨_, _, _, same⟩
                rw [finite_assign] at same
                rw [← same, Finmap.lookup_insert, found] at old
                cases old
              · rintro ⟨other, isObject, present⟩
                cases isObject
                exact absurd found (present rfl)

theorem put_refines_iff (stands_same : KeyedList.Stands kind.same stands) (map : HashMap kind)
    (key : κ) (value : ν) :
    Refines stands_same (some map) (.put key value) ((map.call (.put key value)).map Prod.fst) ↔
      map.Reliable (.put key value) := by
  rw [Reliable]
  cases isKey : kind.deref key with
  | none =>
      have calls : map.call (.put key value) = none := by
        rw [call, put, isKey]
        rfl
      exact ⟨fun refines => absurd refines (not_refines_of_null calls),
        fun notNull => absurd rfl notNull⟩
  | some object =>
      have calls : map.call (.put key value) =
          some ((map.putObject object value).1, .value (map.putObject object value).2) := by
        rw [call, put, isKey]
        rfl
      rw [refines_of_call calls]
      have spec := putObject_spec stands_same map object value
      exact ⟨fun _ => Option.some_ne_none object, fun _ => ⟨object, isKey, spec.1, spec.2⟩⟩

theorem remove_refines_iff (stands_same : KeyedList.Stands kind.same stands) (map : HashMap kind)
    (key : κ) :
    Refines stands_same (some map) (.remove key) ((map.call (.remove key)).map Prod.fst) ↔
      map.Reliable (.remove key) := by
  rw [Reliable]
  cases isKey : kind.deref key with
  | none =>
      have calls : map.call (.remove key) = none := by
        rw [call, remove, isKey]
        rfl
      exact ⟨fun refines => absurd refines (not_refines_of_null calls),
        fun notNull => absurd rfl notNull⟩
  | some object =>
      have calls : map.call (.remove key) = some ((map.oldValue object).1.erase object,
          .value (map.oldValue object).2) := by
        rw [call, remove, isKey]
        rfl
      rw [refines_of_call calls]
      exact ⟨fun _ => Option.some_ne_none object, fun _ => ⟨object, isKey,
        (oldValue_spec stands_same map object).1, removeObject_spec stands_same map object⟩⟩

theorem keySet_refines (stands_same : KeyedList.Stands kind.same stands) (map : HashMap kind) :
    Refines stands_same (some map) .keySet ((map.call .keySet).map Prod.fst) := by
  refine refines_some_iff.mpr ⟨_, _, rfl, ?_, rfl⟩
  rw [keySet_eq, keys_finite, List.map_map]
  rfl

/-- Exactly the reliable calls do what they do for the finite map. -/
theorem call_refines_iff (lawful : kind.Lawful) (stands_same : KeyedList.Stands kind.same stands)
    (map : HashMap kind) (operation : Operation kind) :
    Refines stands_same (some map) operation ((map.call operation).map Prod.fst) ↔
      map.Reliable operation := by
  cases operation with
  | clear => exact iff_of_true (refines_some_iff.mpr ⟨_, _, rfl, finite_new stands_same⟩) trivial
  | containsKey key => exact iff_of_true (containsKey_refines stands_same map key) trivial
  | containsValue value => exact containsValue_refines_iff lawful stands_same map value
  | get key => exact get_refines_iff stands_same map key
  | isEmpty =>
      exact iff_of_true
        (refines_some_iff.mpr ⟨_, _, rfl, finite_empty_iff stands_same map, rfl⟩) trivial
  | keySet => exact iff_of_true (keySet_refines stands_same map) trivial
  | put key value => exact put_refines_iff stands_same map key value
  | putAll other =>
      exact iff_of_true
        (refines_some_iff.mpr ⟨_, _, rfl, putAll_finite stands_same map other⟩) trivial
  | remove key => exact remove_refines_iff stands_same map key
  | size =>
      exact iff_of_true
        (refines_some_iff.mpr ⟨_, _, rfl, size_eq stands_same map, rfl⟩) trivial
  | values =>
      exact iff_of_true
        (refines_some_iff.mpr ⟨_, _, rfl, (values_finite stands_same map).symm, rfl⟩) trivial

end Single

/-! ## Any calls -/

/-- The calls up to the first use of a null pointer return and do what they do for the finite
map. -/
def RefineAll (stands_same : KeyedList.Stands kind.same stands)
    (operations : List (Operation kind)) : Prop :=
  Relates step (Refines stands_same) (some (new kind)) operations

/-- All calls can be relied on. -/
def AllReliable (operations : List (Operation kind)) : Prop :=
  Meets step (fun st operation => ∀ map, st = some map → map.Reliable operation)
    (some (new kind)) operations

theorem refineAll_iff (lawful : kind.Lawful) (stands_same : KeyedList.Stands kind.same stands)
    (operations : List (Operation kind)) :
    RefineAll stands_same operations ↔ AllReliable operations := by
  refine @relates_iff_meets _ _ step (fun _ => True) _ _ (fun _ _ _ _ _ => trivial) ?_ _ trivial
    operations
  intro st operation next _ taken
  cases st with
  | none => cases taken
  | some map =>
      cases taken
      rw [call_refines_iff lawful stands_same map operation]
      exact ⟨fun reliable other isMap => by cases isMap; exact reliable,
        fun reliable => reliable map rfl⟩

/-- The comparison of keys is an equivalence, and null pointers are the same as null pointers. -/
class Kind.Sound (kind : Kind κ α ν) : Prop where
  equivalence : Equivalence fun left right => kind.same left right = true
  lawful : kind.Lawful

namespace Kind

variable (kind : Kind κ α ν) [sound : kind.Sound]

/-- Keys that are the same are one key of the finite map. -/
def setoid : Setoid α where
  r := fun left right => kind.same left right = true
  iseqv := sound.equivalence

abbrev Key : Type :=
  Quotient kind.setoid

def toKey (object : α) : kind.Key :=
  Quotient.mk kind.setoid object

theorem toKey_same : KeyedList.Stands kind.same kind.toKey :=
  fun left right => (@Quotient.eq α kind.setoid left right).symm

instance : DecidableEq kind.Key :=
  @Quotient.decidableEq α kind.setoid fun left right =>
    inferInstanceAs (Decidable (kind.same left right = true))

/-- The calls do what they do for the finite map from the classes of keys that are the same. -/
def Refine (operations : List (Operation kind)) : Prop :=
  RefineAll kind.toKey_same operations

theorem refine_iff (operations : List (Operation kind)) :
    kind.Refine operations ↔ AllReliable operations :=
  refineAll_iff sound.lawful kind.toKey_same operations

end Kind

section Specialisations

variable {K V K' V' : Type} [Hashable K] [BEq K] [EquivBEq K] [LawfulHashable K] [BEq V]
  [Inhabited V] [ObjectType K'] [ConsistentObject K'] [ObjectType V']

/-- Keys that are equal have the same hash code, so that hash codes do not matter. -/
theorem sameKey_iff {hashCode : α → UInt64} {equals : α → α → Bool} {left right : α}
    (consistent : equals left right = true → hashCode left = hashCode right) :
    sameKey hashCode equals left right = true ↔ equals left right = true := by
  rw [sameKey, Bool.and_eq_true, beq_iff_eq]
  exact and_iff_right_of_imp consistent

/-- Keys with the hash codes of what they stand for, if they are equal when they stand for the
same. -/
theorem stands_of_hash {γ : Type} {hashCode : α → UInt64} {equals : α → α → Bool} {stands : α → γ}
    {hash : γ → UInt64}
    (equal_iff : ∀ left right, equals left right = true ↔ stands left = stands right)
    (hashes : ∀ key, hashCode key = hash (stands key)) :
    KeyedList.Stands (sameKey hashCode equals) stands := by
  intro left right
  refine (sameKey_iff fun equal => ?_).trans (equal_iff left right)
  rw [hashes, hashes, (equal_iff left right).mp equal]

theorem sameKey_equivalence {hashCode : α → UInt64} {equals : α → α → Bool}
    (equivalence : Equivalence fun left right => equals left right = true)
    (consistent : ∀ left right, equals left right = true → hashCode left = hashCode right) :
    Equivalence fun left right => sameKey hashCode equals left right = true := by
  have same : ∀ left right, sameKey hashCode equals left right = true ↔
      equals left right = true := fun left right => sameKey_iff (consistent left right)
  simpa only [same] using equivalence

theorem plain_equivalence :
    Equivalence fun left right : K => sameKey hash (· == ·) left right = true :=
  sameKey_equivalence ⟨fun _ => BEq.rfl, BEq.symm, BEq.trans⟩ fun _ _ => hash_eq

theorem object_equivalence : Equivalence fun left right : K' =>
    sameKey ObjectType.hashCode ObjectType.equals left right = true :=
  sameKey_equivalence ConsistentObject.equivalence ConsistentObject.hashCode

theorem equalPointers_none (stored value : Option V') (isNull : value.isNone = true) :
    ObjectType.equalPointers stored value = true ↔ stored.isNone = true := by
  cases Option.isNone_iff_eq_none.mp isNull
  cases stored <;> exact Iff.rfl

instance : (plainPlain K V).Sound where
  equivalence := plain_equivalence
  lawful := fun _ _ isNull => (by cases isNull)

instance : (plainObject K V').Sound where
  equivalence := plain_equivalence
  lawful := equalPointers_none

instance : (objectPlain K' V).Sound where
  equivalence := object_equivalence
  lawful := fun _ _ isNull => (by cases isNull)

instance : (objectObject K' V').Sound where
  equivalence := object_equivalence
  lawful := equalPointers_none

variable (K V K' V')

end Specialisations

end HashMap

end Mindroid
