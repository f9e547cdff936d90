import Mindroid.Lang.StringSearch

/-!
# Splitting a string

The loop of `split` goes from one occurrence of the separator to the first one behind it.
-/

set_option autoImplicit false

namespace Mindroid

open Foundation

namespace String

/-- `split(const sp<String>&)`, which passes on what is before the first NUL of the separator. -/
def splitString (string separator : List UInt8) : Except Failure (List (List UInt8)) :=
  split string (cStr separator)

/-- The occurrences of a separator that are found from left to right, each one behind the one
before. -/
inductive Scan (separator text : List UInt8) : Nat → List Nat → Prop where
  | done {fromIndex : Nat} (absent : ∀ p, fromIndex ≤ p → ¬OccursAt separator text p) :
      Scan separator text fromIndex []
  | found {fromIndex p : Nat} {later : List Nat} (first : FirstAt separator text fromIndex p)
      (rest : Scan separator text (p + separator.length) later) :
      Scan separator text fromIndex (p :: later)

/-- The last occurrence that is found ends where the text ends. -/
def EndsWithFound (separator text : List UInt8) (found : List Nat) : Prop :=
  ∃ p ∈ found, p + separator.length = text.length

instance (separator text : List UInt8) (found : List Nat) :
    Decidable (EndsWithFound separator text found) :=
  inferInstanceAs (Decidable (∃ p ∈ found, p + separator.length = text.length))

/-- The parts of a text between the occurrences from an index on; there is none behind an
occurrence at the end. -/
def parts (separator text : List UInt8) : Nat → List Nat → List (List UInt8)
  | fromIndex, [] => if fromIndex < text.length then [text.drop fromIndex] else []
  | fromIndex, p :: later =>
      (text.drop fromIndex).take (p - fromIndex) ::
        parts separator text (p + separator.length) later

/-- No piece contains the separator, and joined with it the pieces are the text, but for a
separator that a scan from left to right finds at the end. -/
structure PiecesOf (separator text : List UInt8) (found : List Nat)
    (pieces : List (List UInt8)) : Prop where
  scan : Scan separator text 0 found
  lack : ∀ piece ∈ pieces, ∀ p, ¬OccursAt separator piece p
  join : separator.intercalate pieces ++
    (if EndsWithFound separator text found then separator else []) = text

section Parts

variable {separator text : List UInt8} {fromIndex : Nat} {found : List Nat}

/-- A scan comes to an end, for every occurrence takes some of the text. -/
theorem Scan.exists (nonempty : separator ≠ []) (fromIndex : Nat) :
    ∃ found, Scan separator text fromIndex found := by
  have positive : 0 < separator.length := List.length_pos_iff.mpr nonempty
  generalize left : text.length - fromIndex = size
  induction size using Nat.strongRecOn generalizing fromIndex with
  | ind size ih =>
      by_cases some : ∃ p, fromIndex ≤ p ∧ OccursAt separator text p
      · obtain ⟨q, behind, occurs⟩ := some
        obtain ⟨p, first⟩ := exists_firstAt behind occurs
        have fits := first.occurs.fits
        have later := first.behind
        obtain ⟨found, rest⟩ := ih (text.length - (p + separator.length)) (by omega)
          (p + separator.length) rfl
        exact ⟨p :: found, .found first rest⟩
      · exact ⟨[], .done fun p behind occurs => some ⟨p, behind, occurs⟩⟩

/-- No part contains the separator. -/
theorem Scan.parts_lack (nonempty : separator ≠ []) (scan : Scan separator text fromIndex found) :
    ∀ part ∈ parts separator text fromIndex found, ∀ p, ¬OccursAt separator part p := by
  induction scan with
  | done absent =>
      intro part member p occurs
      rw [parts] at member
      split at member
      · rename_i inside
        rw [List.mem_singleton.mp member, occursAt_drop (Nat.le_of_lt inside)] at occurs
        exact absent _ (Nat.le_add_right _ _) occurs
      · cases member
  | found first _ ih =>
      intro part member p
      rw [parts] at member
      cases member with
      | head => exact first.lacks nonempty
      | tail _ later => exact ih part later p

theorem parts_ne_nil (inside : fromIndex < text.length) :
    parts separator text fromIndex found ≠ [] := by
  cases found with
  | nil =>
      rw [parts, if_pos inside]
      exact List.cons_ne_nil _ _
  | cons p later => exact List.cons_ne_nil _ _

/-- Nothing is found at the end of a text. -/
theorem Scan.nil_of_end (nonempty : separator ≠ [])
    (scan : Scan separator text text.length found) : found = [] := by
  cases scan with
  | done _ => rfl
  | found first _ =>
      have fits := first.occurs.fits
      have behind := first.behind
      have positive : 0 < separator.length := List.length_pos_iff.mpr nonempty
      omega

/-- The parts and the separators between them make up the rest of the text, but for a separator
at its end. -/
theorem Scan.join (nonempty : separator ≠ []) (scan : Scan separator text fromIndex found)
    (inside : fromIndex ≤ text.length) :
    separator.intercalate (parts separator text fromIndex found) ++
        (if EndsWithFound separator text found then separator else []) =
      text.drop fromIndex := by
  induction scan with
  | @done fromIndex absent =>
      have notFound : ¬EndsWithFound separator text [] := by simp [EndsWithFound]
      rw [if_neg notFound, List.append_nil, parts]
      split
      · exact List.intercalate_singleton
      · rename_i atEnd
        rw [List.drop_of_length_le (Nat.not_lt.mp atEnd)]
        rfl
  | @found fromIndex p later first rest ih =>
      have fits := first.occurs.fits
      have split := first.occurs.split first.behind
      by_cases last : p + separator.length = text.length
      · have none : later = [] := (last ▸ rest).nil_of_end nonempty
        subst none
        have ends : EndsWithFound separator text [p] := ⟨p, List.mem_singleton_self p, last⟩
        rw [if_pos ends, parts, parts, if_neg (by omega), List.intercalate_singleton]
        rw [last, List.drop_length, List.append_nil] at split
        exact split.symm
      · have same : EndsWithFound separator text (p :: later) ↔
            EndsWithFound separator text later := by
          simp [EndsWithFound, last]
        rw [parts, List.intercalate_cons_of_ne_nil (parts_ne_nil (by omega)), List.append_assoc,
          List.append_assoc]
        simp only [same]
        rw [ih fits]
        exact split.symm

end Parts

/-! ## What the loop finds -/

section Loop

variable {string separator : List UInt8}

/-- The loop looks for the first occurrence, if there is no NUL. -/
theorem indexOfStringFrom_findsFirst (nonzero : ∀ c ∈ string, c ≠ 0)
    (visible : ∀ c ∈ separator, c ≠ 0) (nonempty : separator ≠ []) (fromIndex : Nat) :
    FindsFirst separator string fromIndex (indexOfStringFrom string separator fromIndex) := by
  apply (findsFirst_from_iff visible fromIndex).mpr
  intro p first
  have positive : 0 < separator.length := List.length_pos_iff.mpr nonempty
  have fits := first.occurs.fits
  have behind := first.behind
  refine ⟨by omega, fun c member => ?_⟩
  exact nonzero c (List.mem_of_mem_drop (List.mem_of_mem_take member))

/-- The last iteration goes to the end of the string. -/
theorem splitNext_absent {fromIndex : Nat} {strings : List (List UInt8)}
    (inside : fromIndex < string.length)
    (absent : indexOfStringFrom string separator fromIndex = none) :
    splitNext string separator ⟨some fromIndex, strings⟩ =
      .ok (.inr ⟨none, strings ++ [string.drop fromIndex]⟩) := by
  rw [splitNext]
  simp only [inside, if_true, absent]
  rw [substring_ok (Nat.le_of_lt inside) (Nat.le_refl _), ← List.length_drop, List.take_length]
  rfl

theorem splitNext_found {fromIndex p : Nat} {strings : List (List UInt8)}
    (inside : fromIndex < string.length)
    (found : indexOfStringFrom string separator fromIndex = some p) :
    splitNext string separator ⟨some fromIndex, strings⟩ =
      .ok (.inr ⟨some (p + separator.length),
        strings ++ [(string.drop fromIndex).take (p - fromIndex)]⟩) := by
  obtain ⟨behind, fits⟩ := indexOfStringFrom_inside found
  rw [splitNext]
  simp only [inside, if_true, found]
  rw [substring_ok behind (Nat.le_trans (Nat.le_add_right _ _) fits)]
  rfl

theorem splitNext_end {fromIndex : Nat} {strings : List (List UInt8)}
    (atEnd : ¬fromIndex < string.length) :
    splitNext string separator ⟨some fromIndex, strings⟩ = .ok (.inl strings) := by
  rw [splitNext]
  simp only [atEnd, if_false]

/-- From an index on, the loop adds the parts that a scan from there finds. -/
theorem loop_adds_parts (nonzero : ∀ c ∈ string, c ≠ 0) (visible : ∀ c ∈ separator, c ≠ 0)
    (nonempty : separator ≠ []) {fromIndex fuel : Nat} {found : List Nat}
    (scan : Scan separator string fromIndex found) (strings : List (List UInt8))
    (enough : string.length + 1 < fuel + fromIndex) (some : 0 < fuel) :
    loop (splitNext string separator) .endless fuel ⟨.some fromIndex, strings⟩ =
      .ok (strings ++ parts separator string fromIndex found) := by
  have finds := indexOfStringFrom_findsFirst nonzero visible nonempty
  induction scan generalizing strings fuel with
  | @done fromIndex absent =>
      cases fuel with
      | zero => exact absurd some (Nat.lt_irrefl 0)
      | succ fuel =>
          rw [loop, parts]
          by_cases inside : fromIndex < string.length
          · cases fuel with
            | zero => omega
            | succ fuel =>
                rw [splitNext_absent inside (FindsFirst.unique (finds fromIndex) absent),
                  if_pos inside]
                rfl
          · rw [splitNext_end inside, if_neg inside, List.append_nil]
  | @found fromIndex p later first rest ih =>
      cases fuel with
      | zero => exact absurd some (Nat.lt_irrefl 0)
      | succ fuel =>
          have positive : 0 < separator.length := List.length_pos_iff.mpr nonempty
          have fits := first.occurs.fits
          have behind := first.behind
          have inside : fromIndex < string.length := by omega
          have isFound := @FindsFirst.unique _ _ _ _ _ (.some p) (finds fromIndex) first
          rw [loop, splitNext_found inside isFound, parts]
          simp only
          rw [ih _ (by omega) (by omega), List.append_assoc, List.singleton_append]

end Loop

/-- Every string without NUL is split into its pieces between the separators, where a separator
is what is before its first NUL. -/
theorem splitString_pieces (string : Text) {separator : List UInt8}
    (nonempty : cStr separator ≠ []) :
    ∃ pieces found, splitString string.bytes separator = .ok pieces ∧
      PiecesOf (cStr separator) string.bytes found pieces := by
  obtain ⟨found, scan⟩ := Scan.exists nonempty 0
  have splits : splitString string.bytes separator =
      .ok ([] ++ parts (cStr separator) string.bytes 0 found) :=
    loop_adds_parts string.nonzero (nonzero_cStr separator) nonempty scan []
      (Nat.lt_succ_self _) (Nat.succ_pos _)
  exact ⟨_, found, splits, {
    scan := scan
    lack := scan.parts_lack nonempty
    join := scan.join nonempty (Nat.zero_le _) }⟩

/-- The string "a,b," and its commas. -/
theorem splitString_pieces_commas :
    ∃ pieces found, splitString [97, 44, 98, 44] [44] = .ok pieces ∧
      PiecesOf [44] [97, 44, 98, 44] found pieces :=
  splitString_pieces ⟨[97, 44, 98, 44], forall_of_all rfl⟩ (List.cons_ne_nil _ _)

/-- The string "xay" is split at "a", if the separator is "a" with a NUL and a "b" behind it. -/
theorem separator_with_nul :
    splitString [120, 97, 121] [97, 0, 98] = .ok [[120], [121]] ∧
      [97, 0, 98].intercalate [[120], [121]] ≠ ([120, 97, 121] : List UInt8) ∧
        [97, 0, 98].intercalate [[120], [121]] ++ [97, 0, 98] ≠ ([120, 97, 121] : List UInt8) :=
  ⟨rfl, by decide, by decide⟩

/-! ## The end of the loop -/

namespace Buffer

/-- One iteration of the loop in `split(const char*)`.  `indexOf` throws for a null pointer. -/
def splitNext (string : Buffer) (separator : Option (List UInt8)) (st : Splitting) :
    Except Failure (List (List UInt8) ⊕ Splitting) :=
  match separator, st.curIndex with
  | some separator, _ => String.splitNext string.bytes (cStr separator) st
  | none, none => .ok (.inl st.strings)
  | none, some curIndex =>
      if curIndex < string.bytes.length then .error .nullPointer else .ok (.inl st.strings)

end Buffer

/-- An iteration gets on: it increases the index, or makes it -1, with which the loop ends. -/
def Progresses (st next : Splitting) : Prop :=
  match st.curIndex, next.curIndex with
  | some curIndex, some nextIndex => curIndex < nextIndex
  | _, none => True
  | none, some _ => False

/-- Every iteration gets on, and `split` returns after finitely many of them. -/
structure SplitEnds (string : Buffer) (separator : Option (List UInt8)) : Prop where
  progresses : ∀ st next, Visits (string.splitNext separator) ⟨some 0, []⟩ st →
    string.splitNext separator st = .ok (.inr next) → Progresses st next
  returns : ∃ fuel pieces,
    loop (string.splitNext separator) .endless fuel ⟨some 0, []⟩ = .ok pieces

/-- There is a character before the NUL of a C string. -/
def HasCharacters (string : Option (List UInt8)) : Prop :=
  ∃ c rest, string = some (c :: rest) ∧ c ≠ 0

theorem cStr_ne_nil {c : UInt8} (nonzero : c ≠ 0) (rest : List UInt8) :
    cStr (c :: rest) ≠ [] := by
  rw [cStr_cons, if_neg nonzero]
  exact List.cons_ne_nil _ _

theorem cStr_eq_nil_of_not_hasCharacters {string : List UInt8}
    (empty : ¬HasCharacters (some string)) : cStr string = [] := by
  cases string with
  | nil => rfl
  | cons c rest =>
      rw [cStr_cons, if_pos]
      by_contra nonzero
      exact empty ⟨c, rest, rfl, nonzero⟩

section Ends

variable {string : List UInt8} {separator : List UInt8}

/-- Every iteration gets past a separator that is not empty. -/
theorem splitNext_progresses (nonempty : separator ≠ []) {st next : Splitting}
    (iterates : splitNext string separator st = .ok (.inr next)) : Progresses st next := by
  have positive : 0 < separator.length := List.length_pos_iff.mpr nonempty
  rcases st with ⟨_ | curIndex, strings⟩
  · cases iterates
  · by_cases inside : curIndex < string.length
    · cases found : indexOfStringFrom string separator curIndex with
      | none =>
          rw [splitNext_absent inside found] at iterates
          cases iterates
          exact trivial
      | some p =>
          have behind := (indexOfStringFrom_inside found).1
          rw [splitNext_found inside found] at iterates
          cases iterates
          change curIndex < p + separator.length
          omega
    · rw [splitNext_end inside] at iterates
      cases iterates

/-- An empty separator is found where the search for it begins. -/
theorem indexOfStringFrom_nil {fromIndex : Nat} (inside : fromIndex < string.length) :
    indexOfStringFrom string [] fromIndex = some fromIndex := by
  have atOnce : strstr [] (cStr (string.drop fromIndex)) = some 0 := by
    cases cStr (string.drop fromIndex) with
    | nil => rfl
    | cons c rest => exact if_pos rfl
  rw [indexOfStringFrom, if_pos inside, atOnce]
  rfl

/-- With an empty separator, the loop adds empty strings for ever. -/
theorem splitNext_endless (inside : 0 < string.length) (fuel : Nat) :
    loop (splitNext string []) .endless fuel ⟨some 0, []⟩ = .error .endless := by
  apply loop_endless fun st => st.curIndex = some 0
  · rintro ⟨curIndex, strings⟩ starts
    subst starts
    exact ⟨⟨some 0, _⟩, splitNext_found inside (indexOfStringFrom_nil inside), rfl⟩
  · rfl

end Ends

theorem SplitEnds.of_empty {string : Buffer} (empty : string.bytes = [])
    (separator : Option (List UInt8)) : SplitEnds string separator := by
  have outside : ¬0 < string.bytes.length := by simp [empty]
  have ended : string.splitNext separator ⟨some 0, []⟩ = .ok (.inl []) := by
    cases separator with
    | none => exact if_neg outside
    | some separator => exact splitNext_end outside
  constructor
  · intro st next visits goesOn
    have first : st = ⟨some 0, []⟩ := by
      refine visits.keeps (· = ⟨some 0, []⟩) (fun st next starts goesOn => ?_) rfl
      rw [starts, ended] at goesOn
      cases goesOn
    rw [first, ended] at goesOn
    cases goesOn
  · exact ⟨1, [], by rw [loop, ended]⟩

theorem SplitEnds.of_nonempty (string : Buffer) {separator : List UInt8}
    (nonempty : cStr separator ≠ []) : SplitEnds string (some separator) where
  progresses _ _ _ iterates := splitNext_progresses nonempty iterates
  returns := ⟨_, split_returns nonempty string.bytes⟩

/-- The loop of `split` ends if and only if there is nothing to split, or something to split at. -/
theorem splitEnds_iff (string : Buffer) (separator : Option (List UInt8)) :
    SplitEnds string separator ↔ string.bytes = [] ∨ HasCharacters separator := by
  constructor
  · intro ends
    by_contra neither
    obtain ⟨filled, noCharacters⟩ := not_or.mp neither
    have inside : 0 < string.bytes.length := List.length_pos_iff.mpr filled
    obtain ⟨fuel, pieces, returns⟩ := ends.returns
    cases separator with
    | none =>
        have throws : string.splitNext none ⟨some 0, []⟩ = .error .nullPointer := if_pos inside
        cases fuel with
        | zero => cases returns
        | succ fuel =>
            rw [loop, throws] at returns
            cases returns
    | some separator =>
        have endless := splitNext_endless inside fuel
        rw [← cStr_eq_nil_of_not_hasCharacters noCharacters] at endless
        cases endless.symm.trans returns
  · rintro (empty | ⟨c, rest, rfl, nonzero⟩)
    · exact .of_empty empty separator
    · exact .of_nonempty string (cStr_ne_nil nonzero rest)

/-- The string "a" is split at the empty string for ever. -/
theorem split_at_nothing_is_endless :
    (∀ fuel, loop (Buffer.splitNext ⟨some [97]⟩ (some [])) .endless fuel ⟨some 0, []⟩ =
        .error .endless) ∧
      ¬SplitEnds ⟨some [97]⟩ (some []) := by
  have endless := @splitNext_endless [97] (Nat.succ_pos 0)
  refine ⟨endless, fun ends => ?_⟩
  obtain ⟨fuel, pieces, returns⟩ := ends.returns
  cases (endless fuel).symm.trans returns

end String

end Mindroid
