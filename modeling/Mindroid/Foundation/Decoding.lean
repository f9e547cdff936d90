import Mathlib.Algebra.GroupWithZero.Nat
import Mathlib.Data.List.Basic

/-!
# Encoders and decoders that fail at the end of their input

A decoder takes its input from a state of which only the content counts.  It decodes a
code if it reads exactly that code, whatever comes after it, and throws `atEnd` when the
input ends before the code does.
-/

set_option autoImplicit false

namespace Foundation

variable {τ ε α β δ : Type}

/-- Where the input of a decoder or the output of an encoder is in its state. -/
structure Port (τ β : Type) where
  valid : τ → Prop
  content : τ → List β

/-- The decoder reads exactly the code and returns the value. -/
structure Decodes (port : Port τ β) (atEnd : ε) (decode : StateT τ (Except ε) α)
    (code : List β) (value : α) : Prop where
  whole : ∀ {st rest}, port.valid st → port.content st = code ++ rest →
    ∃ st', decode st = .ok (value, st') ∧ port.valid st' ∧ port.content st' = rest
  cut : ∀ {st}, port.valid st → port.content st <+: code → port.content st ≠ code →
    decode st = .error atEnd

/-- The decoder reads exactly the code and returns the value; how it meets the end of its
input is left open. -/
structure Takes (port : Port τ β) (decode : StateT τ (Except ε) α) (code : List β) (value : α) :
    Prop where
  whole : ∀ {st rest}, port.valid st → port.content st = code ++ rest →
    ∃ st', decode st = .ok (value, st') ∧ port.valid st' ∧ port.content st' = rest

/-- A decoder that returns has read as much as its value costs. -/
structure Spends (port : Port τ β) (decode : StateT τ (Except ε) α) (cost : α → Nat)
    (returns : α → Prop) : Prop where
  spent : ∀ {st value st'}, port.valid st → decode st = .ok (value, st') →
    port.valid st' ∧ (port.content st).length = cost value + (port.content st').length ∧
      returns value

/-- The encoder appends the code. -/
structure Encodes (port : Port τ β) (encode : StateT τ (Except ε) Unit) (code : List β) :
    Prop where
  writes : ∀ {st}, port.valid st →
    ∃ st', encode st = .ok ((), st') ∧ port.valid st' ∧
      port.content st' = port.content st ++ code

/-- Whatever its input is, the decoder returns such a value or throws such an exception. -/
structure Answers (port : Port τ β) (decode : StateT τ (Except ε) α) (returns : α → Prop)
    (throws : ε → Prop) : Prop where
  outcome : ∀ {st}, port.valid st →
    (∃ value st', decode st = .ok (value, st') ∧ port.valid st' ∧ returns value) ∨
      ∃ thrown, decode st = .error thrown ∧ throws thrown

variable {port : Port τ β} {atEnd : ε}

theorem run_bind {first : StateT τ (Except ε) α} {next : α → StateT τ (Except ε) δ}
    {st st' : τ} {value : α} (runs : first st = .ok (value, st')) :
    (first >>= next) st = next value st' := by
  change (first st >>= fun pair => next pair.1 pair.2) = _
  rw [runs]
  rfl

theorem run_bind_error {first : StateT τ (Except ε) α} {next : α → StateT τ (Except ε) δ}
    {st : τ} {thrown : ε} (throws : first st = .error thrown) :
    (first >>= next) st = .error thrown := by
  change (first st >>= fun pair => next pair.1 pair.2) = _
  rw [throws]
  rfl

namespace Encodes

theorem nothing : Encodes port (pure () : StateT τ (Except ε) Unit) [] where
  writes := by
    intro st valid
    exact ⟨st, rfl, valid, (List.append_nil _).symm⟩

/-- Encoders write one after the other. -/
theorem andThen {first next : StateT τ (Except ε) Unit} {code code' : List β}
    (writes : Encodes port first code) (writesNext : Encodes port next code') :
    Encodes port (first >>= fun _ => next) (code ++ code') where
  writes := by
    intro st valid
    rcases writes.writes valid with ⟨middle, runs, kept, content⟩
    rcases writesNext.writes kept with ⟨last, runsNext, keptNext, contentNext⟩
    refine ⟨last, ?_, keptNext, ?_⟩
    · rw [run_bind runs]
      exact runsNext
    · rw [contentNext, content, List.append_assoc]

/-- Items are encoded one after the other. -/
theorem each {encode : δ → StateT τ (Except ε) Unit} {code : δ → List β} (items : List δ)
    (writes : ∀ item ∈ items, Encodes port (encode item) (code item)) :
    Encodes port (items.forM encode) (items.flatMap code) := by
  induction items with
  | nil => exact nothing
  | cons item items ih =>
      have later := ih fun item member => writes item (List.mem_cons_of_mem _ member)
      rw [List.flatMap_cons]
      exact (writes item List.mem_cons_self).andThen later

end Encodes

namespace Decodes

/-- A decoder of nothing returns its value. -/
theorem nothing (value : α) : Decodes port atEnd (pure value) [] value where
  whole := by
    intro st rest valid content
    exact ⟨st, rfl, valid, content⟩
  cut := by
    intro st _ before different
    exact absurd (List.prefix_nil.mp before) different

/-- Decoders read one after the other. -/
theorem andThen {first : StateT τ (Except ε) α} {next : α → StateT τ (Except ε) δ}
    {code code' : List β} {value : α} {value' : δ}
    (reads : Decodes port atEnd first code value)
    (readsNext : Decodes port atEnd (next value) code' value') :
    Decodes port atEnd (first >>= next) (code ++ code') value' where
  whole := by
    intro st rest valid content
    rw [List.append_assoc] at content
    rcases reads.whole valid content with ⟨middle, runs, kept, remains⟩
    rcases readsNext.whole kept remains with ⟨last, runsNext, keptNext, remainsNext⟩
    refine ⟨last, ?_, keptNext, remainsNext⟩
    rw [run_bind runs]
    exact runsNext
  cut := by
    intro st valid before different
    -- the input ends before the first code does, or the second decoder meets its end
    rcases List.prefix_or_prefix_of_prefix before (List.prefix_append code code') with
      inFirst | ⟨rest, content⟩
    · by_cases all : port.content st = code
      · rcases reads.whole valid (all.trans (List.append_nil _).symm) with
          ⟨middle, runs, kept, remains⟩
        rw [run_bind runs]
        apply readsNext.cut kept
        · rw [remains]
          exact List.nil_prefix
        · intro same
          rw [remains] at same
          apply different
          rw [all, ← same, List.append_nil]
      · exact run_bind_error (reads.cut valid inFirst all)
    · rcases reads.whole valid content.symm with ⟨middle, runs, kept, remains⟩
      rw [run_bind runs]
      apply readsNext.cut kept
      · rw [← content, List.prefix_append_right_inj] at before
        rw [remains]
        exact before
      · intro same
        apply different
        rw [← content, ← remains, same]

/-- The value may be changed afterwards. -/
theorem map {decode : StateT τ (Except ε) α} {code : List β} {value : α} (change : α → δ)
    (reads : Decodes port atEnd decode code value) :
    Decodes port atEnd (decode >>= fun value => pure (change value)) code (change value) := by
  let returns : α → StateT τ (Except ε) δ := fun value => pure (change value)
  have returned : Decodes port atEnd (returns value) [] (change value) := nothing (change value)
  rw [← List.append_nil code]
  exact reads.andThen returned

/-- A decoder that is repeated decodes one code after the other. -/
theorem repeated {decode : StateT τ (Except ε) α} {code : δ → List β} {value : δ → α}
    (items : List δ) (reads : ∀ item ∈ items, Decodes port atEnd decode (code item) (value item)) :
    Decodes port atEnd ((List.replicate items.length decode).mapM id)
      (items.flatMap code) (items.map value) := by
  induction items with
  | nil => exact nothing []
  | cons item items ih =>
      have later := ih fun item member => reads item (List.mem_cons_of_mem _ member)
      rw [List.length_cons, List.replicate_succ, List.mapM_cons, List.flatMap_cons, List.map_cons]
      exact (reads item List.mem_cons_self).andThen (later.map (value item :: ·))

end Decodes

theorem Decodes.takes {decode : StateT τ (Except ε) α} {code : List β} {value : α}
    (decodes : Decodes port atEnd decode code value) : Takes port decode code value where
  whole := decodes.whole

namespace Takes

theorem andThen {first : StateT τ (Except ε) α} {next : α → StateT τ (Except ε) δ}
    {code code' : List β} {value : α} {value' : δ} (takes : Takes port first code value)
    (takesNext : Takes port (next value) code' value') :
    Takes port (first >>= next) (code ++ code') value' where
  whole := by
    intro st rest valid content
    rw [List.append_assoc] at content
    rcases takes.whole valid content with ⟨middle, runs, kept, remains⟩
    rcases takesNext.whole kept remains with ⟨last, runsNext, keptNext, remainsNext⟩
    exact ⟨last, (run_bind runs).trans runsNext, keptNext, remainsNext⟩

theorem map {decode : StateT τ (Except ε) α} {code : List β} {value : α} (change : α → δ)
    (takes : Takes port decode code value) :
    Takes port (decode >>= fun value => pure (change value)) code (change value) where
  whole := by
    intro st rest valid content
    rcases takes.whole valid content with ⟨last, runs, kept, remains⟩
    exact ⟨last, run_bind runs, kept, remains⟩

/-- Items are decoded one after the other. -/
theorem each {decode : δ → StateT τ (Except ε) α} {code : δ → List β} {value : δ → α}
    (items : List δ) (takes : ∀ item ∈ items, Takes port (decode item) (code item) (value item)) :
    Takes port (items.mapM decode) (items.flatMap code) (items.map value) := by
  induction items with
  | nil => exact ⟨fun valid content => ⟨_, rfl, valid, content⟩⟩
  | cons item items ih =>
      have later := ih fun item member => takes item (List.mem_cons_of_mem _ member)
      rw [List.mapM_cons, List.flatMap_cons, List.map_cons]
      exact (takes item List.mem_cons_self).andThen (later.map (value item :: ·))

end Takes

/-- The first of two computations returns if both do. -/
theorem run_bind_ok {first : StateT τ (Except ε) α} {next : α → StateT τ (Except ε) δ}
    {st st' : τ} {value' : δ} (runs : (first >>= next) st = .ok (value', st')) :
    ∃ value middle, first st = .ok (value, middle) ∧ next value middle = .ok (value', st') := by
  cases result : first st with
  | error thrown =>
      rw [run_bind_error result] at runs
      cases runs
  | ok pair =>
      rw [run_bind result] at runs
      exact ⟨pair.1, pair.2, rfl, runs⟩

namespace Spends

variable {cost : α → Nat} {returns : α → Prop}

theorem map {decode : StateT τ (Except ε) α} {change : α → δ} {cost : δ → Nat}
    {returns : δ → Prop}
    (spends : Spends port decode (fun value => cost (change value))
      fun value => returns (change value)) :
    Spends port (decode >>= fun value => pure (change value)) cost returns where
  spent := by
    intro st value st' valid runs
    rcases run_bind_ok runs with ⟨value, middle, first, changed⟩
    cases changed
    exact spends.spent valid first

/-- What items cost together. -/
theorem each {decode : δ → StateT τ (Except ε) α}
    (spends : ∀ item, Spends port (decode item) cost returns) (items : List δ) :
    Spends port (items.mapM decode) (fun values => (values.map cost).sum)
      fun values => ∀ value ∈ values, returns value := by
  induction items with
  | nil =>
      refine ⟨fun valid runs => ?_⟩
      cases runs
      exact ⟨valid, (Nat.zero_add _).symm, List.forall_mem_nil _⟩
  | cons item items ih =>
      refine ⟨fun valid runs => ?_⟩
      rw [List.mapM_cons] at runs
      rcases run_bind_ok runs with ⟨value, middle, first, runs⟩
      rcases run_bind_ok runs with ⟨values, last, later, returned⟩
      cases returned
      rcases (spends item).spent valid first with ⟨kept, length, holds⟩
      rcases ih.spent kept later with ⟨keptLast, lengthLast, holdsLater⟩
      refine ⟨keptLast, ?_, List.forall_mem_cons.mpr ⟨holds, holdsLater⟩⟩
      rw [List.map_cons, List.sum_cons, length, lengthLast, Nat.add_assoc]

end Spends

namespace Answers

variable {throws : ε → Prop}

theorem pure {returns : α → Prop} {value : α} (holds : returns value) :
    Answers port (Pure.pure value) returns throws where
  outcome := by
    intro st valid
    exact .inl ⟨value, st, rfl, valid, holds⟩

theorem throw {returns : α → Prop} {thrown : ε} (allowed : throws thrown) :
    Answers port (MonadExcept.throw thrown) returns throws where
  outcome := by
    intro st _
    exact .inr ⟨thrown, rfl, allowed⟩

/-- The second decoder may rely on what the first one returns. -/
theorem andThen {first : StateT τ (Except ε) α} {next : α → StateT τ (Except ε) δ}
    {returns : α → Prop} {returnsNext : δ → Prop} (answers : Answers port first returns throws)
    (answersNext : ∀ value, returns value → Answers port (next value) returnsNext throws) :
    Answers port (first >>= next) returnsNext throws where
  outcome := by
    intro st valid
    rcases answers.outcome valid with ⟨value, middle, runs, kept, holds⟩ | ⟨thrown, fails, allowed⟩
    · rcases (answersNext value holds).outcome kept with
        ⟨value', last, runsNext, keptNext, holdsNext⟩ | ⟨thrown, fails, allowed⟩
      · exact .inl ⟨value', last, (run_bind runs).trans runsNext, keptNext, holdsNext⟩
      · exact .inr ⟨thrown, (run_bind runs).trans fails, allowed⟩
    · exact .inr ⟨thrown, run_bind_error fails, allowed⟩

end Answers

end Foundation
