import Mindroid.Os.Bundle

/-!
# The values of bundles

What was put last under each key of each bundle is kept in a ledger.  The getters return it, but
for the types that the methods mix up and for null pointers.
-/

set_option autoImplicit false

namespace Mindroid

open Foundation

namespace Bundle

open Mindroid.String (Buffer)

section Bundles

variable [ObjectType Variant]

/-! ## What bundles are for -/

/-- A key as maps see it.  Null is a key, too. -/
abbrev KeySeen : Type :=
  Option (UInt64 × Option (List UInt8))

def Key.seen (key : Key) : KeySeen :=
  key.object.map Buffer.key

/-- The value that is put, with its type. -/
def Put.value : Put → Variant
  | .binder value => ⟨.binder, value⟩
  | .boolean value => ⟨.bool, value⟩
  | .bundle value => ⟨.bundle, value⟩
  | .byte value => ⟨.byte, value⟩
  | .char value => ⟨.char, value⟩
  | .double value => ⟨.double, value⟩
  | .float value => ⟨.float, value⟩
  | .int value => ⟨.int, value⟩
  | .unsignedInt value => ⟨.unsignedInt, value⟩
  | .integerArrayList value => ⟨.integerArrayList, value⟩
  | .long value => ⟨.long, value⟩
  | .unsignedLong value => ⟨.unsignedLong, value⟩
  | .object value => ⟨.object, value⟩
  | .short value => ⟨.short, value⟩
  | .unsignedShort value => ⟨.unsignedShort, value⟩
  | .string value => ⟨.string, value⟩
  | .stringArrayList value => ⟨.stringArrayList, value⟩

/-- The last values that were put and not removed, and the bundles that have a table. -/
structure Ledger where
  present : Identity → Bool
  last : Identity → KeySeen → Option Variant

namespace Ledger

def start : Ledger where
  present := fun _ => false
  last := fun _ _ => none

/-- One bundle has other values. -/
def write (ledger : Ledger) (bundle : Identity) (last : KeySeen → Option Variant) : Ledger where
  present := ledger.present
  last := Function.update ledger.last bundle last

omit [ObjectType Variant] in
@[simp] theorem last_write (ledger : Ledger) (bundle : Identity)
    (last : KeySeen → Option Variant) : (ledger.write bundle last).last bundle = last := by
  simp [write]

def act (ledger : Ledger) : Operation → Ledger
  | .new bundle => {
      present := Function.update ledger.present bundle true
      last := Function.update ledger.last bundle fun _ => none }
  | .clear bundle => {
      present := Function.update ledger.present bundle false
      last := Function.update ledger.last bundle fun _ => none }
  | .put bundle key put =>
      ledger.write bundle (Function.update (ledger.last bundle) key.seen (some put.value))
  | .remove bundle key =>
      ledger.write bundle (Function.update (ledger.last bundle) key.seen none)
  | .putAll bundle other =>
      ledger.write bundle fun key => (ledger.last other key).or (ledger.last bundle key)

/-- The ledger after a list of operations. -/
def after (operations : List Operation) : Ledger :=
  operations.foldl act start

/-- The operation uses no null pointer. -/
def Permits (ledger : Ledger) : Operation → Prop
  | .new _ => True
  | .clear _ => True
  | .put bundle key _ => ledger.present bundle = true ∧ key.object ≠ none
  | .remove bundle key => ledger.present bundle = true ∧ key.object ≠ none
  | .putAll bundle other => ledger.present bundle = true ∧ ledger.present other = true

end Ledger

/-- The last value that was put if it has the type of the getter, and the default value if not. -/
def Getter.expected (getter : Getter) (last : Option Variant) : getter.type.Member :=
  seenOr getter.type getter.defaultValue last

/-- A getter answers after a list of operations, and does not change the bundles. -/
def Answers (operations : List Operation) (bundle : Identity) (key : Key) (getter : Getter) :
    Prop :=
  ∃ bundles, runAll step (fun _ => none) operations = some bundles ∧
    getter.call bundles bundle key =
      some (bundles, getter.expected ((Ledger.after operations).last bundle key.seen))

/-- The types are not mixed up: bundles are put as objects, the default value of an object has no
use, and the `unsigned short` of a pointer is read as a `short`. -/
def Getter.Suits (key : Key) (last : Option Variant) : Getter → Prop
  | .bundle => ∀ value, last ≠ some ⟨.object, some value⟩
  | .object => ∀ value, last ≠ some ⟨.bundle, some value⟩
  | .objectOr defaultValue =>
      match last with
      | some ⟨.object, _⟩ => True
      | some ⟨.bundle, value⟩ => value = defaultValue
      | _ => defaultValue = none
  | .unsignedShort defaultValue =>
      match key, last with
      | .pointer _, some ⟨.short, value⟩ => value.toUInt16 = defaultValue
      | .pointer _, some ⟨.unsignedShort, value⟩ => value = defaultValue
      | _, _ => True
  | _ => True

/-! ## What the tables hold -/

/-- A value as it is in the table. -/
def stored : Variant → Variant
  | ⟨.bundle, bundle⟩ => ⟨.object, bundle⟩
  | value => value

/-- A table holds the last values, and without a table there are none. -/
def Holds (table : Option Table) (present : Bool) (last : KeySeen → Option Variant) : Prop :=
  match table with
  | none => present = false ∧ ∀ key, last key = none
  | some mMap => present = true ∧ ∀ key : Buffer,
      mMap.find key = (last (some key.key)).map fun value => some (stored value)

def Represents (bundles : Bundles) (ledger : Ledger) : Prop :=
  ∀ bundle, Holds (bundles bundle) (ledger.present bundle) (ledger.last bundle)

/-- A table tells what the values are stored as. -/
theorem Holds.agree {table : Option Table} {present present' : Bool}
    {last last' : KeySeen → Option Variant} (holds : Holds table present last)
    (others : Holds table present' last') (key : Buffer) :
    (last (some key.key)).map stored = (last' (some key.key)).map stored := by
  cases table with
  | none => rw [holds.2, others.2]
  | some mMap =>
      have same := (holds.2 key).symm.trans (others.2 key)
      exact Option.map_injective (Option.some_injective _)
        ((Option.map_map _ _ _).trans (same.trans (Option.map_map _ _ _).symm))

section Tables

variable {bundles : Bundles} {ledger : Ledger} {bundle : Identity}

theorem Put.call_eq (put : Put) (key : Option Buffer) :
    put.call bundles bundle key = putVariant bundles bundle key (stored put.value) := by
  cases put <;> rfl

theorem Represents.table (represents : Represents bundles ledger)
    (present : ledger.present bundle = true) :
    ∃ mMap, bundles bundle = some mMap ∧ ∀ key : Buffer,
      mMap.find key =
        (ledger.last bundle (some key.key)).map fun value => some (stored value) := by
  have here := represents bundle
  cases table : bundles bundle with
  | none =>
      rw [table, present] at here
      cases here.1
  | some mMap =>
      rw [table] at here
      exact ⟨mMap, rfl, here.2⟩

theorem Represents.absent (represents : Represents bundles ledger)
    (absent : ¬ledger.present bundle = true) : bundles bundle = none := by
  have here := represents bundle
  cases table : bundles bundle with
  | none => rfl
  | some mMap =>
      rw [table] at here
      exact absurd here.1 absent

/-- One of the pointers that a method uses is null. -/
theorem Represents.null (represents : Represents bundles ledger) {key : Option Buffer}
    (refused : ¬(ledger.present bundle = true ∧ key ≠ none)) :
    bundles bundle = none ∨ key = none := by
  rw [not_and_or, not_ne_iff] at refused
  exact refused.imp represents.absent id

/-- A bundle is given another table. -/
theorem Represents.update (represents : Represents bundles ledger) {table : Option Table}
    {present : Bool} {last : KeySeen → Option Variant} (holds : Holds table present last) :
    Represents (Function.update bundles bundle table)
      ⟨Function.update ledger.present bundle present,
        Function.update ledger.last bundle last⟩ := by
  intro other
  dsimp only
  by_cases same : other = bundle
  · rw [same, Function.update_self, Function.update_self, Function.update_self]
    exact holds
  · rw [Function.update_of_ne same, Function.update_of_ne same, Function.update_of_ne same]
    exact represents other

/-- A bundle is given other values. -/
theorem Represents.write (represents : Represents bundles ledger) {table : Option Table}
    {last : KeySeen → Option Variant} (holds : Holds table (ledger.present bundle) last) :
    Represents (Function.update bundles bundle table) (ledger.write bundle last) := by
  have changed := @Represents.update _ _ _ bundle represents table _ _ holds
  rwa [Function.update_eq_self] at changed

/-- A table that is there is changed. -/
theorem Represents.change (represents : Represents bundles ledger)
    (present : ledger.present bundle = true) {mMap : Table} {last : KeySeen → Option Variant}
    (holds : ∀ key : Buffer,
      mMap.find key = (last (some key.key)).map fun value => some (stored value)) :
    Represents (Function.update bundles bundle (some mMap)) (ledger.write bundle last) :=
  @Represents.write _ _ _ bundle represents (some mMap) last ⟨present, holds⟩

theorem putVariant_follows (represents : Represents bundles ledger)
    (present : ledger.present bundle = true) (key : Buffer) (value : Variant) :
    ∃ next, putVariant bundles bundle (some key) (stored value) = some next ∧
      Represents next (ledger.write bundle
        (Function.update (ledger.last bundle) (some key.key) (some value))) := by
  obtain ⟨mMap, table, holds⟩ := represents.table present
  refine ⟨_, by rw [putVariant, table]; rfl, represents.change present fun other => ?_⟩
  refine (HashMap.find_putObject Buffer.key_same mMap key other _).trans ?_
  rw [Function.update_apply, holds]
  by_cases same : other.key = key.key
  · rw [if_pos same, if_pos (congrArg some same)]
    rfl
  · rw [if_neg same, if_neg fun equal => same (Option.some.inj equal)]

theorem remove_follows (represents : Represents bundles ledger)
    (present : ledger.present bundle = true) (key : Buffer) :
    ∃ next, remove bundles bundle (some key) = some next ∧
      Represents next (ledger.write bundle
        (Function.update (ledger.last bundle) (some key.key) none)) := by
  obtain ⟨mMap, table, holds⟩ := represents.table present
  refine ⟨_, by rw [remove, table]; rfl, represents.change present fun other => ?_⟩
  refine (HashMap.find_removeObject Buffer.key_same mMap key other).trans ?_
  rw [Function.update_apply, holds]
  by_cases same : other.key = key.key
  · rw [if_pos same, if_pos (congrArg some same)]
    rfl
  · rw [if_neg same, if_neg fun equal => same (Option.some.inj equal)]

theorem putAll_follows (represents : Represents bundles ledger) {other : Identity}
    (present : ledger.present bundle = true) (otherPresent : ledger.present other = true) :
    ∃ next, putAll bundles bundle other = some next ∧
      Represents next (ledger.write bundle fun key =>
        (ledger.last other key).or (ledger.last bundle key)) := by
  obtain ⟨mMap, table, holds⟩ := represents.table present
  obtain ⟨others, otherTable, otherHolds⟩ := represents.table otherPresent
  refine ⟨_, by rw [putAll, table, otherTable]; rfl, represents.change present fun key => ?_⟩
  rw [HashMap.find_putAll Buffer.key_same, holds, otherHolds]
  cases ledger.last other (some key.key) <;> rfl

/-- Every operation that uses no null pointer writes into the ledger. -/
theorem step_realizes : Realizes step Ledger.act Ledger.Permits Represents := by
  intro bundles ledger operation represents
  cases operation with
  | new bundle =>
      exact ⟨fun _ => ⟨_, rfl, represents.update ⟨rfl, fun _ => rfl⟩⟩, absurd trivial⟩
  | clear bundle =>
      exact ⟨fun _ => ⟨_, rfl, represents.update ⟨rfl, fun _ => rfl⟩⟩, absurd trivial⟩
  | put bundle key put =>
      constructor
      · rintro ⟨present, isKey⟩
        obtain ⟨object, isObject⟩ := Option.ne_none_iff_exists'.mp isKey
        rw [step, Put.call_eq, Ledger.act, Key.seen, isObject]
        exact putVariant_follows represents present object put.value
      · intro refused
        rw [step, Put.call_eq, putVariant]
        rcases represents.null refused with table | isNull
        · rw [table]
          rfl
        · rw [isNull]
          cases bundles bundle <;> rfl
  | remove bundle key =>
      constructor
      · rintro ⟨present, isKey⟩
        obtain ⟨object, isObject⟩ := Option.ne_none_iff_exists'.mp isKey
        rw [step, Ledger.act, Key.seen, isObject]
        exact remove_follows represents present object
      · intro refused
        rw [step, remove]
        rcases represents.null refused with table | isNull
        · rw [table]
          rfl
        · rw [isNull]
          cases bundles bundle <;> rfl
  | putAll bundle other =>
      constructor
      · rintro ⟨present, otherPresent⟩
        exact putAll_follows represents present otherPresent
      · intro refused
        rw [step, putAll]
        by_cases present : ledger.present bundle = true
        · obtain ⟨mMap, table, -⟩ := represents.table present
          rw [table, represents.absent fun otherPresent => refused ⟨present, otherPresent⟩]
          rfl
        · rw [represents.absent present]
          rfl

/-! ## What the getters see -/

/-- A table that is read is not changed. -/
theorem get_eq (represents : Represents bundles ledger)
    (present : ledger.present bundle = true) (key : Buffer) :
    get bundles bundle (some key) =
      some (bundles, (ledger.last bundle (some key.key)).map stored) := by
  obtain ⟨mMap, table, holds⟩ := represents.table present
  have kept : Function.update bundles bundle (some mMap) = bundles := by
    rw [← table, Function.update_eq_self]
  have found := holds key
  have read : mMap.get (some key) =
      some (mMap, (ledger.last bundle (some key.key)).map stored) := by
    refine (HashMap.get_eq rfl rfl).trans ?_
    rw [found]
    cases ledger.last bundle (some key.key) <;> rfl
  rw [get, table]
  change (mMap.get (some key)).bind _ = _
  rw [read]
  change some (Function.update bundles bundle (some mMap), _) = _
  rw [kept]

theorem get_null {key : Option Buffer} (null : bundles bundle = none ∨ key = none) :
    get bundles bundle key = none := by
  rw [get]
  rcases null with table | isNull
  · rw [table]
    rfl
  · rw [isNull]
    cases bundles bundle <;> rfl

end Tables

/-- What a getter makes of the variant that it found. -/
def Getter.seen (key : Key) (found : Option Variant) : (getter : Getter) → getter.type.Member
  | .bundle => seenOr .object none found
  | .objectOr _ => seenOr .object none found
  | .unsignedShort defaultValue =>
      match key with
      | .string _ => seenOr .unsignedShort defaultValue found
      | .pointer _ => Int16.toUInt16 (seenOr .short defaultValue.toInt16 found)
  | getter => seenOr getter.type getter.defaultValue found

theorem Getter.call_eq (bundles : Bundles) (bundle : Identity) (key : Key) (getter : Getter) :
    getter.call bundles bundle key =
      (get bundles bundle key.object).map fun got => (got.1, getter.seen key got.2) := by
  cases getter with
  | unsignedShort defaultValue =>
      cases key with
      | string key => rfl
      | pointer key => exact Option.map_map _ _ _
  | _ => rfl

omit [ObjectType Variant] in
theorem stored_eq {value : Variant} (notBundle : value.mType ≠ .bundle) :
    stored value = value := by
  rcases value with ⟨type, value⟩
  cases type <;> first | rfl | contradiction

omit [ObjectType Variant] in
/-- Only bundles and objects are mixed up in the table. -/
theorem seenOr_stored {type : VariantType} (notBundle : type ≠ .bundle)
    (notObject : type ≠ .object) (defaultValue : type.Member) (last : Option Variant) :
    seenOr type defaultValue (last.map stored) = seenOr type defaultValue last := by
  cases last with
  | none => rfl
  | some value =>
      change (stored value).valueOr type defaultValue = value.valueOr type defaultValue
      by_cases isBundle : value.mType = .bundle
      · rcases value with ⟨_, value⟩
        cases isBundle
        refine (Variant.valueOr_of_ne notObject.symm defaultValue).trans ?_
        exact (Variant.valueOr_of_ne notBundle.symm defaultValue).symm
      · rw [stored_eq isBundle]

omit [ObjectType Variant] in
/-- A getter sees what is expected if and only if the types are not mixed up. -/
theorem Getter.seen_eq_iff (key : Key) (last : Option Variant) (getter : Getter) :
    getter.seen key (last.map stored) = getter.expected last ↔ getter.Suits key last := by
  cases getter with
  | bundle =>
      rcases last with _ | ⟨type, value⟩
      · exact iff_of_true rfl nofun
      · cases type with
        | object =>
            cases value with
            | none => exact iff_of_true rfl nofun
            | some object => exact iff_of_false nofun fun suits => suits object rfl
        | _ => exact iff_of_true rfl nofun
  | object =>
      rcases last with _ | ⟨type, value⟩
      · exact iff_of_true rfl nofun
      · cases type with
        | bundle =>
            cases value with
            | none => exact iff_of_true rfl nofun
            | some object => exact iff_of_false nofun fun suits => suits object rfl
        | _ => exact iff_of_true rfl nofun
  | objectOr defaultValue =>
      rcases last with _ | ⟨type, value⟩
      · exact eq_comm
      · cases type with
        | object => exact iff_of_true rfl trivial
        | bundle => exact Iff.rfl
        | _ => exact eq_comm
  | unsignedShort defaultValue =>
      cases key with
      | string key => exact iff_of_true (seenOr_stored (by nofun) (by nofun) _ _) trivial
      | pointer key =>
          have same := @seenOr_stored .short nofun nofun defaultValue.toInt16 last
          refine Eq.congr_left (congrArg Int16.toUInt16 same) |>.trans ?_
          rcases last with _ | ⟨type, value⟩
          · exact iff_of_true rfl trivial
          · cases type with
            | short => exact Iff.rfl
            | unsignedShort => exact eq_comm
            | _ => exact iff_of_true rfl trivial
  | _ => exact iff_of_true (seenOr_stored (by nofun) (by nofun) _ _) trivial

/-- What the ledger says of bundles that are there. -/
theorem represents_of_run {operations : List Operation} {bundles : Bundles}
    (run : runAll step (fun _ => none) operations = some bundles) :
    AllAllowed Ledger.act Ledger.Permits Ledger.start operations ∧
      Represents bundles (Ledger.after operations) := by
  have starts : Represents (fun _ => none) Ledger.start := fun _ => ⟨rfl, fun _ => rfl⟩
  have runs := step_realizes.runAll starts operations
  by_cases allowed : AllAllowed Ledger.act Ledger.Permits Ledger.start operations
  · obtain ⟨final, runsTo, represents⟩ := runs.1 allowed
    cases runsTo.symm.trans run
    exact ⟨allowed, represents⟩
  · rw [runs.2 allowed] at run
    cases run

/-- A getter answers after a list of operations if and only if no null pointer was used, and the
types are not mixed up. -/
theorem answers_iff (operations : List Operation) (bundle : Identity) (key : Key)
    (getter : Getter) :
    Answers operations bundle key getter ↔
      AllAllowed Ledger.act Ledger.Permits Ledger.start operations ∧
        ((Ledger.after operations).present bundle = true ∧ key.object ≠ none) ∧
        getter.Suits key ((Ledger.after operations).last bundle key.seen) := by
  rw [← Getter.seen_eq_iff]
  constructor
  · rintro ⟨bundles, run, answered⟩
    obtain ⟨allowed, represents⟩ := represents_of_run run
    rw [Getter.call_eq] at answered
    have used : (Ledger.after operations).present bundle = true ∧ key.object ≠ none := by
      by_contra refused
      rw [get_null (represents.null refused)] at answered
      cases answered
    obtain ⟨object, isObject⟩ := Option.ne_none_iff_exists'.mp used.2
    have isSeen : key.seen = some object.key := congrArg (Option.map Buffer.key) isObject
    rw [isObject, get_eq represents used.1] at answered
    refine ⟨allowed, used, ?_⟩
    rw [isSeen] at answered ⊢
    exact congrArg Prod.snd (Option.some.inj answered)
  · rintro ⟨allowed, used, same⟩
    have starts : Represents (fun _ => none) Ledger.start := fun _ => ⟨rfl, fun _ => rfl⟩
    obtain ⟨bundles, run, represents⟩ := (step_realizes.runAll starts operations).1 allowed
    obtain ⟨object, isObject⟩ := Option.ne_none_iff_exists'.mp used.2
    have isSeen : key.seen = some object.key := congrArg (Option.map Buffer.key) isObject
    refine ⟨bundles, run, ?_⟩
    rw [Getter.call_eq, isObject, get_eq represents used.1, ← same, isSeen]
    rfl

end Bundles

/-- For bundles, which compare no variants. -/
abbrev uncompared : ObjectType Variant where
  equals := fun _ _ => false
  hashCode := fun _ => 0

/-- The default value of an object is not returned, and neither is an `unsigned short` under the
pointer "a".  A bundle that was cleared and a null key are null pointers. -/
theorem values_missed :
    let _ : ObjectType Variant := uncompared
    let bundle : Identity := ⟨0⟩
    let object : Identity := ⟨1⟩
    let key := Key.pointer (some [97])
    ¬Answers [.new bundle] bundle key (.objectOr (some object)) ∧
      ¬Answers [.new bundle, .put bundle key (.unsignedShort 40000)] bundle key
        (.unsignedShort 7) ∧
      ¬Answers [.new bundle, .put bundle key (.object (some object))] bundle
        key .bundle ∧
      ¬Answers [.new bundle, .clear bundle] bundle key (.int 0) ∧
      ¬Answers [.new bundle, .put bundle (.string none) (.int 1)] bundle key
        (.int 0) := by
  intro _ bundle object key
  refine ⟨?_, ?_, ?_, ?_, ?_⟩
  · rintro ⟨bundles, run, answered⟩
    cases run
    have same : (none : Option Identity) = some object :=
      congrArg (fun got => (got.map Prod.snd).getD none) answered
    cases same
  · rintro ⟨bundles, run, answered⟩
    cases run
    have same : (7 : UInt16) = 40000 :=
      congrArg (fun got => (got.map Prod.snd).getD (0 : UInt16)) answered
    cases same
  · rintro ⟨bundles, run, answered⟩
    cases run
    have same : some object = none :=
      congrArg (fun got => (got.map Prod.snd).getD none) answered
    cases same
  · rintro ⟨bundles, run, answered⟩
    cases run
    cases answered
  · rintro ⟨bundles, run, answered⟩
    cases run

end Bundle

end Mindroid
