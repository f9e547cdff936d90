import Mindroid.Foundation.Templates
import Mindroid.Io.FilePaths
import Mindroid.Lang.Integer

/-!
# The names of the log files

`parseFileName` makes the name of a generation from a pattern.  Its loop gets on as long as a
character follows every percent sign that it finds.
-/

set_option autoImplicit false

namespace Mindroid

open Foundation

/-- `String::replace`. -/
def String.replace (string : List UInt8) (oldChar newChar : UInt8) : List UInt8 :=
  string.map fun c => if c == oldChar then newChar else c

namespace FileHandler

def percent : UInt8 := 37

/-- The local variables of `parseFileName` that its loop changes. -/
@[ext] structure NameScan where
  curChar : UInt32
  s : List UInt8
  hasGeneration : Bool
  deriving DecidableEq

/-- One iteration of the loop in `parseFileName`, for the home directory of the user. -/
def parseNext (homePath mPattern : List UInt8) (gen : UInt32) (st : NameScan) :
    Except Failure (NameScan ⊕ NameScan) :=
  match String.indexOfFrom mPattern percent st.curChar.toNat with
  | none => .ok (.inl st)
  | some index =>
      let curChar := st.curChar.toNat
      let nextChar := index + 1
      if nextChar < mPattern.length then do
        let c ← String.charAt mPattern nextChar
        if c = 103 then
          let s ← String.appendPart st.s mPattern curChar (nextChar - curChar - 1)
          return .inr { curChar := UInt32.ofNat (nextChar + 1)
                        s := String.append s (Integer.decimal gen.toNat)
                        hasGeneration := true }
        else if c = 104 then
          let s ← String.appendPart st.s mPattern curChar (nextChar - curChar - 1)
          let s := String.append s homePath
          let homePathHasSeparatorEnd := String.endsWith homePath File.separator
          let s := if !homePathHasSeparatorEnd then String.append s File.separator else s
          let nextChar ←
            if nextChar + 1 < mPattern.length then do
              let next ← String.charAt mPattern (nextChar + 1)
              pure (if next = File.separatorChar then nextChar + 1 else nextChar)
            else
              pure nextChar
          return .inr { st with curChar := UInt32.ofNat (nextChar + 1), s := s }
        else if c = percent then
          let s ← String.appendPart st.s mPattern curChar (nextChar - curChar - 1)
          return .inr { st with
            curChar := UInt32.ofNat (nextChar + 1)
            s := String.append s [percent] }
        else
          let s ← String.appendPart st.s mPattern curChar (nextChar - curChar)
          return .inr { st with curChar := UInt32.ofNat (nextChar + 1), s := s }
      else
        .ok (.inr st)

/-- What the loop in `parseFileName` begins with. -/
def NameScan.start : NameScan where
  curChar := 0
  s := []
  hasGeneration := false

/-- `parseFileName`, with so many iterations of its loop. -/
def parseFileName (homePath pattern : List UInt8) (mCount : Int32) (fuel : Nat) (gen : UInt32) :
    Except Failure (List UInt8) := do
  let mPattern := String.replace pattern File.separatorChar File.separatorChar
  let st ← loop (parseNext homePath mPattern gen) .endless fuel .start
  let s ← String.appendPart st.s mPattern st.curChar.toNat
    (mPattern.length - st.curChar.toNat)
  return if !st.hasGeneration && mCount > 1 then
    String.append (String.append s [46]) (Integer.decimal gen.toNat)
  else
    s

/-! ## One iteration -/

/-- How many characters are skipped behind an escape. -/
def skipped (c : UInt8) (behind : List UInt8) : Nat :=
  if c = 104 ∧ behind.head? = some File.separatorChar then 1 else 0

/-- What is added to the name for an escape and the characters before it. -/
def pieces (homePath before : List UInt8) (c : UInt8) : List (Piece UInt8) :=
  if c = 103 then
    [.text before, .hole]
  else if c = 104 then
    [.text before, .text (String.cStr homePath),
      .text (if String.endsWith homePath File.separator then [] else File.separator)]
  else if c = percent then
    [.text before, .text [percent]]
  else
    [.text (before ++ [percent])]

/-- There is no percent sign before the end of a C string. -/
def Plain (text : List UInt8) : Prop :=
  ∀ c ∈ text, c ≠ percent ∧ c ≠ 0

theorem replace_self (string : List UInt8) (c : UInt8) : String.replace string c c = string := by
  have same : (fun other => if other == c then c else other) = id := by
    funext other
    by_cases equal : other = c
    · simp [equal]
    · simp [equal]
  rw [String.replace, same, List.map_id]

section Iterations

variable {homePath mPattern before behind : List UInt8} {c : UInt8} {gen : UInt32} {st : NameScan}

/-- What is behind a position has no visible percent sign, or one behind plain characters. -/
theorem plain_or_found (text : List UInt8) :
    percent ∉ String.cStr text ∨
      ∃ before behind, text = before ++ percent :: behind ∧ Plain before := by
  by_cases found : percent ∈ String.cStr text
  · right
    rcases List.eq_append_cons_of_mem found with ⟨before, later, split, lacks⟩
    rcases String.cStr_is_front text with ⟨rest, whole⟩
    rw [split, List.append_assoc, List.cons_append] at whole
    refine ⟨before, later ++ rest, whole.symm, fun c member => ⟨?_, ?_⟩⟩
    · rintro rfl
      exact lacks member
    · apply String.nonzero_cStr text
      rw [split]
      exact List.mem_append_left _ member
  · exact .inl found

theorem indexOfFrom_absent {fromIndex : Nat}
    (absent : percent ∉ String.cStr (mPattern.drop fromIndex)) :
    String.indexOfFrom mPattern percent fromIndex = none := by
  rw [String.indexOfFrom]
  split
  · have lacks : String.indexOf (mPattern.drop fromIndex) percent = none := by
      rw [String.indexOf, List.findIdx?_eq_none_iff]
      intro other member
      rcases List.mem_append.mp member with inText | isZero
      · exact beq_false_of_ne fun same => absent (same ▸ inText)
      · rw [List.mem_singleton.mp isZero]
        rfl
    rw [lacks]
    rfl
  · rfl

theorem indexOfFrom_found {fromIndex : Nat}
    (split : mPattern.drop fromIndex = before ++ percent :: behind) (plain : Plain before) :
    String.indexOfFrom mPattern percent fromIndex = some (fromIndex + before.length) := by
  have size := congrArg List.length split
  rw [List.length_drop, List.length_append, List.length_cons] at size
  have found : String.indexOf (mPattern.drop fromIndex) percent = some before.length := by
    have nonzero : (percent != 0) = true := rfl
    rw [split, String.indexOf, String.cStr, List.takeWhile_append_of_pos fun other member =>
      bne_iff_ne.mpr (plain other member).2, List.takeWhile_cons_of_pos (by exact nonzero),
      List.append_assoc, List.findIdx?_append]
    have absent : before.findIdx? (· == percent) = none := by
      rw [List.findIdx?_eq_none_iff]
      exact fun other member => beq_false_of_ne (plain other member).1
    rw [absent, List.cons_append, List.findIdx?_cons, beq_self_eq_true]
    simp
  rw [String.indexOfFrom, if_pos (by omega), found]
  rfl

/-- The loop ends where there are no more percent signs. -/
theorem parseNext_ends (absent : percent ∉ String.cStr (mPattern.drop st.curChar.toNat)) :
    parseNext homePath mPattern gen st = .ok (.inl st) := by
  rw [parseNext, indexOfFrom_absent absent]

/-- Nothing changes when the last character is a percent sign. -/
theorem parseNext_stuck (split : mPattern.drop st.curChar.toNat = before ++ [percent])
    (plain : Plain before) : parseNext homePath mPattern gen st = .ok (.inr st) := by
  have size := congrArg List.length split
  rw [List.length_drop, List.length_append, List.length_singleton] at size
  rw [parseNext, indexOfFrom_found split plain]
  exact if_neg (by omega)

theorem charAt_split (split : mPattern.drop st.curChar.toNat = before ++ percent :: c :: behind)
    (i : Nat) :
    String.charAt mPattern (st.curChar.toNat + (before.length + 1 + i)) =
      String.charAt (c :: behind) i := by
  rw [String.charAt, String.charAt, ← List.getElem?_drop, split, Nat.add_assoc,
    List.getElem?_append_right (Nat.le_add_right _ _), Nat.add_sub_cancel_left, Nat.add_comm 1 i,
    List.getElem?_cons_succ]

/-- The characters up to the percent sign. -/
theorem appendPart_before
    (split : mPattern.drop st.curChar.toNat = before ++ percent :: c :: behind) :
    String.appendPart st.s mPattern st.curChar.toNat
      (st.curChar.toNat + before.length + 1 - st.curChar.toNat - 1) = .ok (st.s ++ before) := by
  have size := congrArg List.length split
  rw [List.length_drop, List.length_append, List.length_cons, List.length_cons] at size
  have upTo : st.curChar.toNat + before.length + 1 - st.curChar.toNat - 1 = before.length := by
    omega
  rw [upTo, String.appendPart, if_neg (by omega), split, List.take_left]

/-- The characters up to the percent sign, and this sign. -/
theorem appendPart_percent
    (split : mPattern.drop st.curChar.toNat = before ++ percent :: c :: behind) :
    String.appendPart st.s mPattern st.curChar.toNat
        (st.curChar.toNat + before.length + 1 - st.curChar.toNat) =
      .ok (st.s ++ (before ++ [percent])) := by
  have size := congrArg List.length split
  rw [List.length_drop, List.length_append, List.length_cons, List.length_cons] at size
  have upTo : st.curChar.toNat + before.length + 1 - st.curChar.toNat = before.length + 1 := by
    omega
  have withPercent : (before ++ percent :: c :: behind).take (before.length + 1) =
      before ++ [percent] := by
    rw [List.take_append, List.take_of_length_le (Nat.le_succ _), Nat.add_sub_cancel_left]
    rfl
  rw [upTo, String.appendPart, if_neg (by omega), split, withPercent]

/-- A separator behind the escape for the home directory is skipped. -/
theorem skips_separator {α : Type}
    (split : mPattern.drop st.curChar.toNat = before ++ percent :: 104 :: behind)
    (goOn : Nat → Except Failure α) :
    (if st.curChar.toNat + before.length + 1 + 1 < mPattern.length then
        String.charAt mPattern (st.curChar.toNat + before.length + 1 + 1) >>= fun next =>
          goOn (if next = File.separatorChar then st.curChar.toNat + before.length + 1 + 1
            else st.curChar.toNat + before.length + 1)
      else
        goOn (st.curChar.toNat + before.length + 1)) =
      goOn (st.curChar.toNat + before.length + 1 + skipped 104 behind) := by
  have size := congrArg List.length split
  rw [List.length_drop, List.length_append, List.length_cons, List.length_cons] at size
  have following := charAt_split split 1
  rw [← Nat.add_assoc, ← Nat.add_assoc] at following
  cases behind with
  | nil =>
      rw [List.length_nil] at size
      rw [if_neg (by omega)]
      rfl
  | cons next behind =>
      rw [List.length_cons] at size
      rw [if_pos (by omega), following]
      by_cases isSeparator : next = File.separatorChar
      · have skips : skipped 104 (next :: behind) = 1 := if_pos ⟨rfl, congrArg some isSeparator⟩
        rw [skips]
        exact congrArg goOn (if_pos isSeparator)
      · have skips : skipped 104 (next :: behind) = 0 :=
          if_neg fun both => isSeparator (Option.some.inj both.2)
        rw [skips]
        exact congrArg goOn (if_neg isSeparator)

/-- What is added for the home directory. -/
theorem home_added (s homePath before text : List UInt8) :
    (if !String.endsWith homePath File.separator then
      String.append (String.append (s ++ before) homePath) File.separator
      else String.append (s ++ before) homePath) =
        s ++ fill (pieces homePath before 104) text := by
  by_cases separated : String.endsWith homePath File.separator = true
  · simp [String.append, separated, pieces, Piece.fill]
  · simp [String.append, separated, pieces, File.cStr_separator, Piece.fill]

/-- An iteration that finds an escape gets behind it. -/
theorem parseNext_escape
    (split : mPattern.drop st.curChar.toNat = before ++ percent :: c :: behind)
    (plain : Plain before) :
    parseNext homePath mPattern gen st =
      .ok (.inr {
        curChar := UInt32.ofNat (st.curChar.toNat + before.length + 2 + skipped c behind)
        s := st.s ++ fill (pieces homePath before c) (Integer.decimal gen.toNat)
        hasGeneration := st.hasGeneration || c == 103 }) := by
  have size := congrArg List.length split
  rw [List.length_drop, List.length_append, List.length_cons, List.length_cons] at size
  have escaped : String.charAt mPattern (st.curChar.toNat + before.length + 1) = .ok c :=
    charAt_split split 0
  rw [parseNext, indexOfFrom_found split plain]
  dsimp only
  rw [if_pos (by omega), escaped]
  have goesOn : ∀ {next next' : NameScan}, next = next' →
      (.ok (.inr next) : Except Failure (NameScan ⊕ NameScan)) = .ok (.inr next') :=
    fun same => same ▸ rfl
  by_cases g : c = 103
  · subst g
    change (String.appendPart _ _ _ _ >>= _) = _
    rw [appendPart_before split]
    refine goesOn (NameScan.ext rfl ?_ (Bool.or_true _).symm)
    have decimal := String.cStr_of_nonzero (Integer.nonzero_decimal gen.toNat)
    simp [String.append, decimal, pieces, Piece.fill]
  have unchanged : (c == 103) = false := beq_false_of_ne g
  rw [unchanged]
  by_cases h : c = 104
  · subst h
    change (String.appendPart _ _ _ _ >>= _) = _
    rw [appendPart_before split]
    let next (nextChar : Nat) : NameScan :=
      { curChar := UInt32.ofNat (nextChar + 1)
        s := if !String.endsWith homePath File.separator then
            String.append (String.append (st.s ++ before) homePath) File.separator
          else
            String.append (st.s ++ before) homePath
        hasGeneration := st.hasGeneration }
    refine (skips_separator split fun nextChar =>
      (.ok (.inr (next nextChar)) : Except Failure (NameScan ⊕ NameScan))).trans ?_
    refine goesOn (NameScan.ext ?_ (home_added _ _ _ _) (Bool.or_false _).symm)
    exact congrArg UInt32.ofNat (by omega)
  · have notSkipped : skipped c behind = 0 := if_neg fun both => h both.1
    rw [notSkipped]
    by_cases isPercent : c = percent
    · subst isPercent
      change (String.appendPart _ _ _ _ >>= _) = _
      rw [appendPart_before split]
      refine goesOn (NameScan.ext rfl ?_ (Bool.or_false _).symm)
      have visible : String.cStr [percent] = [percent] := by decide
      simp [String.append, visible, pieces, g, h, Piece.fill]
    · change (if c = 103 then _ else if c = 104 then _ else if c = percent then _ else _) = _
      rw [if_neg g, if_neg h, if_neg isPercent, appendPart_percent split]
      refine goesOn (NameScan.ext rfl ?_ (Bool.or_false _).symm)
      simp [pieces, g, h, isPercent, Piece.fill]

end Iterations

/-! ## Getting to the end -/

/-- Behind every percent sign that is found from an index on there is a character, and the loop can
count up to what is behind both. -/
inductive Readable : Nat → List UInt8 → Prop where
  | ends {i : Nat} {text : List UInt8} (absent : percent ∉ String.cStr text) : Readable i text
  | escape {i : Nat} {before behind : List UInt8} {c : UInt8} (plain : Plain before)
      (fits : i + before.length + 2 + skipped c behind < 2 ^ 32)
      (rest : Readable (i + before.length + 2 + skipped c behind)
        (behind.drop (skipped c behind))) :
      Readable i (before ++ percent :: c :: behind)

/-- An iteration ends the loop, or gets past a character. -/
def GetsOn (homePath mPattern : List UInt8) (gen : UInt32) (st : NameScan) : Prop :=
  parseNext homePath mPattern gen st = .ok (.inl st) ∨
    ∃ next, parseNext homePath mPattern gen st = .ok (.inr next) ∧
      st.curChar.toNat < next.curChar.toNat

/-- Every iteration gets on, and the name is returned. -/
structure Terminates (homePath pattern : List UInt8) (mCount : Int32) (gen : UInt32) : Prop where
  progress : ∀ st,
    Visits (parseNext homePath (String.replace pattern File.separatorChar File.separatorChar) gen)
      .start st →
    GetsOn homePath (String.replace pattern File.separatorChar File.separatorChar) gen st
  returns : ∃ fuel name, parseFileName homePath pattern mCount fuel gen = .ok name

section Termination

variable {homePath mPattern before behind : List UInt8} {c : UInt8} {gen : UInt32} {st : NameScan}

theorem skipped_le (c : UInt8) (behind : List UInt8) : skipped c behind ≤ behind.length := by
  rw [skipped]
  split
  case isTrue skips =>
    cases behind with
    | nil => cases skips.2
    | cons => exact Nat.succ_le_succ (Nat.zero_le _)
  case isFalse => exact Nat.zero_le _

/-- What is behind an escape and before the end of the pattern. -/
theorem drop_escape {i : Nat} (split : mPattern.drop i = before ++ percent :: c :: behind) :
    mPattern.drop (i + before.length + 2 + skipped c behind) = behind.drop (skipped c behind) ∧
      i + before.length + 2 + skipped c behind ≤ mPattern.length := by
  have size := congrArg List.length split
  rw [List.length_drop, List.length_append, List.length_cons, List.length_cons] at size
  have skips := skipped_le c behind
  refine ⟨?_, by omega⟩
  rw [Nat.add_assoc, Nat.add_assoc, ← List.drop_drop, split, List.drop_append,
    List.drop_of_length_le (Nat.le_add_right _ _), Nat.add_sub_cancel_left, Nat.add_comm 2,
    List.nil_append]
  rfl

/-- Where the next iteration begins. -/
theorem parseNext_further (homePath : List UInt8) (gen : UInt32)
    (split : mPattern.drop st.curChar.toNat = before ++ percent :: c :: behind)
    (plain : Plain before) :
    ∃ next, parseNext homePath mPattern gen st = .ok (.inr next) ∧ next.curChar =
      UInt32.ofNat (st.curChar.toNat + before.length + 2 + skipped c behind) :=
  ⟨_, parseNext_escape split plain, rfl⟩

/-- Every iteration gets on from a position from which the pattern is readable. -/
theorem runs_of_readable (homePath : List UInt8) (gen : UInt32) {i : Nat} {text : List UInt8}
    (readable : Readable i text)
    (at_position : st.curChar.toNat = i) (text_at : mPattern.drop i = text)
    (inside : i ≤ mPattern.length) :
    (∀ st', Visits (parseNext homePath mPattern gen) st st' → GetsOn homePath mPattern gen st') ∧
      ∃ fuel last, loop (parseNext homePath mPattern gen) .endless fuel st = .ok last ∧
        last.curChar.toNat ≤ mPattern.length := by
  induction readable generalizing st with
  | ends absent =>
      subst at_position text_at
      have ends : parseNext homePath mPattern gen st = .ok (.inl st) := parseNext_ends absent
      refine ⟨fun st' visits => ?_, 1, st, ?_, inside⟩
      · rcases visits.first with rfl | ⟨next, goesOn, _⟩
        · exact .inl ends
        · rw [ends] at goesOn
          cases goesOn
      · rw [loop, ends]
  | @escape i before behind c plain fits rest ih =>
      subst at_position
      rcases parseNext_further homePath gen text_at plain with ⟨next, goesOn, position⟩
      rcases drop_escape text_at with ⟨rest_at, still_inside⟩
      have behindEscape := congrArg UInt32.toNat position
      rw [UInt32.toNat_ofNat_of_lt' fits] at behindEscape
      rcases ih behindEscape rest_at still_inside with
        ⟨progress, fuel, last, returns, lastInside⟩
      refine ⟨fun st' visits => ?_, fuel + 1, last, ?_, lastInside⟩
      · rcases visits.first with rfl | ⟨_, first, later⟩
        · exact .inr ⟨next, goesOn, by omega⟩
        · rw [goesOn] at first
          cases first
          exact progress st' later
      · rw [loop, goesOn]
        exact returns

/-- A pattern is readable from every position at which an iteration begins if all of them get on:
an escape behind which `curChar` starts again is found twice, from the same position. -/
theorem readable_of_progress
    (progress : ∀ st', Visits (parseNext homePath mPattern gen) st st' →
      GetsOn homePath mPattern gen st') :
    Readable st.curChar.toNat (mPattern.drop st.curChar.toNat) := by
  generalize left : mPattern.length - st.curChar.toNat = size
  induction size using Nat.strongRecOn generalizing st with
  | ind size ih =>
      have moves : ∀ {st' next : NameScan}, Visits (parseNext homePath mPattern gen) st st' →
          parseNext homePath mPattern gen st' = .ok (.inr next) →
          st'.curChar.toNat < next.curChar.toNat := by
        intro st' next visits goesOn
        rcases progress st' visits with ends | ⟨_, alsoGoesOn, further⟩
        · rw [goesOn] at ends
          cases ends
        · rw [goesOn] at alsoGoesOn
          cases alsoGoesOn
          exact further
      rcases plain_or_found (mPattern.drop st.curChar.toNat) with
        absent | ⟨before, behind, split, plain⟩
      · exact .ends absent
      cases behind with
      | nil => exact absurd (moves .start (parseNext_stuck split plain)) (Nat.lt_irrefl _)
      | cons c behind =>
          rcases parseNext_further homePath gen split plain with ⟨next, goesOn, position⟩
          have further := moves .start goesOn
          rcases drop_escape split with ⟨rest_at, inside⟩
          have behindEscape := congrArg UInt32.toNat position
          rw [UInt32.toNat_ofNat'] at behindEscape
          by_cases fits : st.curChar.toNat + before.length + 2 + skipped c behind < 2 ^ 32
          · rw [Nat.mod_eq_of_lt fits] at behindEscape
            have rest := ih _ (by omega)
              (fun st' visits => progress st' (visits.head goesOn)) rfl
            rw [behindEscape, rest_at] at rest
            rw [split]
            exact .escape plain fits rest
          · have oneChar : skipped c behind ≤ 1 := by
              rw [skipped]
              split <;> decide
            have back : next.curChar.toNat ≤ st.curChar.toNat + before.length := by omega
            have again : mPattern.drop next.curChar.toNat =
                before.drop (next.curChar.toNat - st.curChar.toNat) ++ percent :: c :: behind := by
              rw [← List.drop_append_of_le_length (by omega), ← split, List.drop_drop]
              congr 1
              omega
            rcases parseNext_further homePath gen again
              (fun c member => plain c (List.mem_of_mem_drop member)) with ⟨next', stays, position'⟩
            have further' := moves (.next .start goesOn) stays
            have same : next.curChar.toNat +
                (before.length - (next.curChar.toNat - st.curChar.toNat)) =
                st.curChar.toNat + before.length := by
              omega
            rw [position', List.length_drop, same, ← position] at further'
            exact absurd further' (Nat.lt_irrefl _)

/-- The name when the loop has ended. -/
theorem parseFileName_of_loop {pattern : List UInt8} {mCount : Int32} {fuel : Nat} {last : NameScan}
    (returns : loop (parseNext homePath pattern gen) .endless fuel .start = .ok last)
    (inside : last.curChar.toNat ≤ pattern.length) :
    parseFileName homePath pattern mCount fuel gen =
      .ok (if !last.hasGeneration && mCount > 1 then
        String.append (String.append (last.s ++ pattern.drop last.curChar.toNat) [46])
          (Integer.decimal gen.toNat)
      else
        last.s ++ pattern.drop last.curChar.toNat) := by
  have rest : String.appendPart last.s pattern last.curChar.toNat
      (pattern.length - last.curChar.toNat) =
        .ok (last.s ++ pattern.drop last.curChar.toNat) := by
    rw [String.appendPart, if_neg (by omega), ← List.length_drop, List.take_length]
  rw [parseFileName, replace_self, returns]
  change String.appendPart _ _ _ _ >>= _ = _
  rw [rest]
  rfl

end Termination

/-- A file name is made of every pattern but one with a percent sign behind which there is nothing,
or behind which `curChar` starts again. -/
theorem terminates_iff (homePath pattern : List UInt8) (mCount : Int32) (gen : UInt32) :
    Terminates homePath pattern mCount gen ↔ Readable 0 pattern := by
  have same : String.replace pattern File.separatorChar File.separatorChar = pattern :=
    replace_self pattern _
  constructor
  · intro terminates
    have progress := terminates.progress
    rw [same] at progress
    exact readable_of_progress progress
  · intro readable
    have starts : NameScan.start.curChar.toNat = 0 := rfl
    rcases runs_of_readable homePath gen readable starts rfl (Nat.zero_le _) with
      ⟨progress, fuel, last, returns, inside⟩
    refine ⟨?_, fuel, _, parseFileName_of_loop returns inside⟩
    rw [same]
    exact progress

/-- The loop does not get past a percent sign at the end. -/
theorem lastPercent_endless : ¬Terminates [47] (String.valueOf "/tmp/app%") 1 0 ∧
    ∀ fuel, parseFileName [47] (String.valueOf "/tmp/app%") 1 fuel 0 = .error .endless := by
  have stays : parseNext [47] (String.valueOf "/tmp/app%") 0 .start = .ok (.inr .start) := by
    decide +kernel
  have same : String.replace (String.valueOf "/tmp/app%") File.separatorChar File.separatorChar =
      String.valueOf "/tmp/app%" := replace_self _ _
  constructor
  · intro terminates
    have progress := terminates.progress
    rw [same] at progress
    rcases progress _ .start with ends | ⟨next, goesOn, further⟩
    · rw [stays] at ends
      cases ends
    · rw [stays] at goesOn
      cases goesOn
      exact Nat.lt_irrefl _ further
  · intro fuel
    have endless : loop (parseNext [47] (String.valueOf "/tmp/app%") 0) .endless fuel .start =
        .error Failure.endless :=
      loop_endless (· = NameScan.start) (fun st isStart => ⟨.start, isStart ▸ stays, rfl⟩) rfl fuel
    rw [parseFileName, same, endless]
    rfl

end FileHandler

end Mindroid
