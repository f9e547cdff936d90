import Mindroid.Os.QueueRuns

/-!
# Removals as filters

When nothing that happens on recycling re-enters the queue, a removal leaves the messages that do
not match in their order, recycles those that match one after the other, and agrees with what
`hasMessages` tells.
-/

set_option autoImplicit false

namespace Mindroid

namespace QueueState

open Foundation

/-- Whatever happens when a result is cancelled, it leaves the queue and its messages alone. -/
def Calm (onCancel : OnCancel) : Prop :=
  ∀ result st, Elsewhere st (onCancel result st)

/-! ## Recording what is recycled -/

/-- The first loop of the removals, with the messages that it recycles. -/
def removeFrontTraced (onCancel : OnCancel) (accepts : Message → Bool) :
    Nat → QueueState → Option MessageId → Bool →
      Except Raised ((QueueState × Option MessageId × Bool) × List MessageId)
  | 0, _, _, _ => .error .outOfFuel
  | _ + 1, st, none, foundMessage => .ok ((st, none, foundMessage), [])
  | fuel + 1, st, some curMessage, foundMessage =>
      if accepts (st.store.messages curMessage) then
        let nextMessage := (st.store.messages curMessage).nextMessage
        let st := (st.unlinkHead nextMessage).recycle onCancel curMessage
        (removeFrontTraced onCancel accepts fuel st nextMessage true).map fun result =>
          (result.1, curMessage :: result.2)
      else
        .ok ((st, some curMessage, foundMessage), [])

/-- The second loop of the removals, with the messages that it recycles. -/
def removeRestTraced (onCancel : OnCancel) (accepts : Message → Bool) :
    Nat → QueueState → Option MessageId → Bool →
      Except Raised ((QueueState × Bool) × List MessageId)
  | 0, _, _, _ => .error .outOfFuel
  | _ + 1, st, none, foundMessage => .ok ((st, foundMessage), [])
  | fuel + 1, st, some curMessage, foundMessage =>
      match (st.store.messages curMessage).nextMessage with
      | none => removeRestTraced onCancel accepts fuel st none foundMessage
      | some nextMessage =>
          if accepts (st.store.messages nextMessage) then
            let st := (st.unlinkAfter curMessage nextMessage).recycle onCancel nextMessage
            (removeRestTraced onCancel accepts fuel st (some curMessage) true).map fun result =>
              (result.1, nextMessage :: result.2)
          else
            removeRestTraced onCancel accepts fuel st (some nextMessage) foundMessage

/-- Both loops, with the messages that they recycle. -/
def removeMatchingTraced (onCancel : OnCancel) (accepts : Message → Bool) (st : QueueState) :
    Except Raised ((QueueState × Bool) × List MessageId) :=
  match removeFrontTraced onCancel accepts (st.store.allocated + 2) st st.queue.mHeadMessage
      false with
  | .error raised => .error raised
  | .ok ((st, curMessage, foundMessage), front) =>
      (removeRestTraced onCancel accepts (st.store.allocated + 2) st curMessage
        foundMessage).map fun result => (result.1, front ++ result.2)

/-- A removal, with the messages that it recycles. -/
def removeTraced (onCancel : OnCancel) (st : QueueState) :
    Removal → Except Raised ((QueueState × Bool) × List MessageId)
  | .messages (some handler) what object =>
      st.removeMatchingTraced onCancel (matchesWhat handler what object)
  | .callbacks (some handler) (some runnable) object =>
      st.removeMatchingTraced onCancel (matchesCallback handler runnable object)
  | .callbacksAndMessages (some handler) object =>
      st.removeMatchingTraced onCancel (matchesTarget handler object)
  | _ => .ok ((st, false), [])

section Erase

variable {onCancel : OnCancel} {accepts : Message → Bool}

theorem map_fst_map {α β γ : Type} (call : Except Raised (α × β)) (f : β → γ) :
    (call.map fun result => (result.1, f result.2)).map Prod.fst = call.map Prod.fst := by
  cases call with
  | error raised => rfl
  | ok result => rfl

theorem erase_removeFrontTraced (fuel : Nat) (st : QueueState) (cur : Option MessageId)
    (found : Bool) :
    (removeFrontTraced onCancel accepts fuel st cur found).map Prod.fst =
      removeFront onCancel accepts fuel st cur found := by
  induction fuel generalizing st cur found with
  | zero => rfl
  | succ fuel ih =>
      cases cur with
      | none => rfl
      | some cur =>
          rw [removeFrontTraced, removeFront]
          split
          · rw [map_fst_map, ih]
          · rfl

theorem erase_removeRestTraced (fuel : Nat) (st : QueueState) (cur : Option MessageId)
    (found : Bool) :
    (removeRestTraced onCancel accepts fuel st cur found).map Prod.fst =
      removeRest onCancel accepts fuel st cur found := by
  induction fuel generalizing st cur found with
  | zero => rfl
  | succ fuel ih =>
      cases cur with
      | none => rfl
      | some cur =>
          rw [removeRestTraced, removeRest]
          cases (st.store.messages cur).nextMessage with
          | none => exact ih _ _ _
          | some next =>
              simp only
              split
              · rw [map_fst_map, ih]
              · exact ih _ _ _

theorem erase_removeMatchingTraced (st : QueueState) :
    (st.removeMatchingTraced onCancel accepts).map Prod.fst =
      st.removeMatching onCancel accepts := by
  rw [removeMatchingTraced, removeMatching, ← erase_removeFrontTraced]
  cases removeFrontTraced onCancel accepts (st.store.allocated + 2) st st.queue.mHeadMessage
      false with
  | error raised => rfl
  | ok result =>
      obtain ⟨⟨st', cur, found⟩, front⟩ := result
      exact (map_fst_map _ (front ++ ·)).trans (erase_removeRestTraced _ _ _ _)

/-- Recording changes nothing. -/
theorem erase_removeTraced (onCancel : OnCancel) (st : QueueState) (removal : Removal) :
    (st.removeTraced onCancel removal).map Prod.fst = st.remove onCancel removal := by
  cases removal with
  | messages handler what object =>
      cases handler with
      | none => rfl
      | some handler => exact erase_removeMatchingTraced st
  | callbacks handler runnable object =>
      cases handler with
      | none => rfl
      | some handler =>
          cases runnable with
          | none => rfl
          | some runnable => exact erase_removeMatchingTraced st
  | callbacksAndMessages handler object =>
      cases handler with
      | none => rfl
      | some handler => exact erase_removeMatchingTraced st

end Erase

/-! ## One removed message -/

/-- Messages have left the queue, and the others are as they were. -/
structure Leaves (st : QueueState) (nodes : List MessageId) (st' : QueueState)
    (nodes' : List MessageId) : Prop where
  represents : Represents st' nodes'
  kept : nodes'.Sublist nodes
  contents : ∀ id ∈ nodes', st'.store.contents id = st.store.contents id
  allocated : st.store.allocated ≤ st'.store.allocated

section Leaving

variable {onCancel : OnCancel} {st st' st'' : QueueState}
  {nodes nodes' nodes'' touched : List MessageId} {message : MessageId}

theorem Leaves.refl (represents : Represents st nodes) : Leaves st nodes st nodes where
  represents := represents
  kept := List.Sublist.refl nodes
  contents := fun _ _ => rfl
  allocated := Nat.le_refl _

theorem Leaves.trans (first : Leaves st nodes st' nodes')
    (second : Leaves st' nodes' st'' nodes'') : Leaves st nodes st'' nodes'' where
  represents := second.represents
  kept := second.kept.trans first.kept
  contents := fun id member =>
    (second.contents id member).trans (first.contents id (second.kept.subset member))
  allocated := Nat.le_trans first.allocated second.allocated

theorem leaves_elsewhere (represents : Represents st nodes) (outside : Elsewhere st st') :
    Leaves st nodes st' nodes where
  represents := represents.elsewhere outside
  kept := List.Sublist.refl nodes
  contents := fun id member => congrArg Message.unlinked
    (outside.messages id ((represents.queued_iff id).mpr member))
  allocated := outside.allocated

theorem leaves_reclaim (represents : Represents st nodes) (absent : message ∉ nodes) :
    Leaves st nodes { st with store := st.store.reclaim message } nodes where
  represents := represents_reclaim represents absent
  kept := List.Sublist.refl nodes
  contents := by
    intro id member
    have distinct : id ≠ message := fun same => absent (same ▸ member)
    rw [Store.contents_reclaim, Function.update_of_ne distinct]
  allocated := Nat.le_of_eq (Store.allocated_reclaim st.store message).symm

theorem leaves_recycle (calm : Calm onCancel) (represents : Represents st nodes)
    (absent : message ∉ nodes) : Leaves st nodes (st.recycle onCancel message) nodes := by
  have cancelled : ∀ result, Leaves st nodes (st.cancel onCancel result) nodes := by
    intro result
    unfold cancel
    split
    · exact Leaves.refl represents
    · have marked : Leaves st nodes { st with store := { st.store with
          isDone := Function.update st.store.isDone result true } } nodes :=
        leaves_elsewhere represents ⟨rfl, fun _ _ => rfl, Nat.le_refl _⟩
      exact marked.trans (leaves_elsewhere marked.represents (calm result _))
  unfold recycle
  cases (st.store.messages message).result with
  | none => exact leaves_reclaim represents absent
  | some result =>
      exact (cancelled result).trans (leaves_reclaim (cancelled result).represents absent)

/-- What a removal does to the queue is made up of single messages that are unlinked and
recycled. -/
structure Stepwise (onCancel : OnCancel) (good : QueueState → List MessageId → Prop)
    (leaves : QueueState → List MessageId → QueueState → List MessageId → Prop) : Prop where
  represents : ∀ {st nodes}, good st nodes → Represents st nodes
  refl : ∀ {st nodes}, good st nodes → leaves st nodes st nodes
  trans : ∀ {st nodes st' nodes' st'' nodes''}, leaves st nodes st' nodes' →
    leaves st' nodes' st'' nodes'' → leaves st nodes st'' nodes''
  keeps : ∀ {st nodes st' nodes'}, good st nodes → leaves st nodes st' nodes' → good st' nodes'
  contents : ∀ {st nodes st' nodes'}, good st nodes → leaves st nodes st' nodes' →
    ∀ id ∈ nodes', st'.store.contents id = st.store.contents id
  allocated : ∀ {st nodes st' nodes'}, good st nodes → leaves st nodes st' nodes' →
    st.store.allocated ≤ st'.store.allocated
  one : ∀ {st nodes st' nodes' touched message}, good st nodes → Relinks st st' touched →
    (∀ id ∈ touched, id ∈ nodes) → Represents st' nodes' → nodes'.Sublist nodes →
    message ∈ nodes → message ∉ nodes' → (∀ id ∈ nodes, id ∉ nodes' → id = message) →
    leaves st nodes (st'.recycle onCancel message) nodes'

/-- Whatever continuations do elsewhere, the queue only loses messages. -/
theorem stepwise_leaves (calm : Calm onCancel) : Stepwise onCancel Represents Leaves where
  represents := fun represents => represents
  refl := Leaves.refl
  trans := Leaves.trans
  keeps := fun _ leaves => leaves.represents
  contents := fun _ leaves => leaves.contents
  allocated := fun _ leaves => leaves.allocated
  one := by
    intro st nodes st' nodes' touched message _ relinks _ represents kept _ absent _
    have unlinked : Leaves st nodes st' nodes' :=
      ⟨represents, kept, fun id _ => congrFun relinks.contents id,
        Nat.le_of_eq relinks.allocated.symm⟩
    exact unlinked.trans (leaves_recycle calm represents absent)

variable {good : QueueState → List MessageId → Prop}
  {leaves : QueueState → List MessageId → QueueState → List MessageId → Prop}

/-- A removal sees the same in the messages that are left. -/
theorem Stepwise.removes (stepwise : Stepwise onCancel good leaves) (isGood : good st nodes)
    (left : leaves st nodes st' nodes') (removal : Removal) {id : MessageId}
    (member : id ∈ nodes') : removal.removes st' id = removal.removes st id := by
  have fields : ∀ {δ : Type} (field : Message → δ),
      field (st'.store.contents id) = field (st.store.contents id) :=
    fun field => congrArg field (stepwise.contents isGood left id member)
  exact removal.accepts_congr ⟨fields Message.target, fields Message.what, fields Message.obj,
    fields Message.callback, fields Message.result⟩

end Leaving

/-! ## The loops -/

section Loops

variable {onCancel : OnCancel} {good : QueueState → List MessageId → Prop}
  {leaves : QueueState → List MessageId → QueueState → List MessageId → Prop}
  {st : QueueState} {nodes : List MessageId} (removal : Removal)

/-- The first loop recycles the messages at the front that match. -/
theorem removeFrontTraced_spec (stepwise : Stepwise onCancel good leaves) (isGood : good st nodes)
    {fuel : Nat} (enough : nodes.length < fuel) (found : Bool) :
    ∃ st' gone rest,
      removeFrontTraced onCancel removal.accepts fuel st nodes.head? found =
        .ok ((st', rest.head?, found || !gone.isEmpty), gone) ∧
      leaves st nodes st' rest ∧ nodes = gone ++ rest ∧
      (∀ id ∈ gone, removal.removes st id = true) ∧
      ∀ id, rest.head? = some id → removal.removes st id = false := by
  induction fuel generalizing st nodes found with
  | zero => exact absurd enough (Nat.not_lt_zero _)
  | succ fuel ih =>
      cases nodes with
      | nil =>
          refine ⟨st, [], [], ?_, stepwise.refl isGood, rfl,
            fun _ member => absurd member List.not_mem_nil, fun _ isHead => ?_⟩
          · rw [List.isEmpty_nil, Bool.not_true, Bool.or_false]
            rfl
          · cases isHead
      | cons cur rest =>
          cases removed : removal.removes st cur with
          | false =>
              have kept : ¬removal.accepts (st.store.messages cur) = true :=
                Bool.eq_false_iff.mp removed
              refine ⟨st, [], cur :: rest, ?_, stepwise.refl isGood, rfl,
                fun _ member => absurd member List.not_mem_nil, fun _ isHead => ?_⟩
              · rw [List.isEmpty_nil, Bool.not_true, Bool.or_false, List.head?_cons,
                  removeFrontTraced, if_neg kept]
              · cases isHead
                exact removed
          | true =>
              have represents : Represents st ([] ++ cur :: rest) := stepwise.represents isGood
              have nextEq : (st.store.messages cur).nextMessage = rest.head? :=
                represents.linked.next_eq
              have nodup := List.nodup_cons.mp (stepwise.represents isGood).nodup
              have inside : ∀ id ∈ rest, id ∈ cur :: rest := fun _ => List.mem_cons_of_mem _
              have left := stepwise.one isGood (unlinkHead_relinks represents) inside
                (unlinkHead_represents represents) (List.sublist_cons_self cur rest)
                List.mem_cons_self nodup.1
                (fun id member absent => (List.mem_cons.mp member).resolve_right absent)
              rcases ih (stepwise.keeps isGood left) (Nat.lt_of_succ_lt_succ enough) true with
                ⟨st', gone, rest', returned, later, split, all, stops⟩
              have same : ∀ id ∈ gone ++ rest', removal.removes ((st.unlinkHead
                  (st.store.messages cur).nextMessage).recycle onCancel cur) id =
                    removal.removes st id :=
                fun id member => stepwise.removes isGood left removal (split ▸ member)
              refine ⟨st', cur :: gone, rest', ?_, stepwise.trans left later, ?_, ?_, ?_⟩
              · have accepted : removal.accepts (st.store.messages cur) = true := removed
                rw [List.head?_cons, removeFrontTraced, if_pos accepted]
                simp only
                rw [nextEq] at returned ⊢
                rw [returned, Bool.true_or]
                rw [List.isEmpty_cons, Bool.not_false, Bool.or_true]
                rfl
              · rw [split]
                rfl
              · refine List.forall_mem_cons.mpr ⟨removed, fun id member => ?_⟩
                rw [← same id (List.mem_append_left _ member)]
                exact all id member
              · intro id isHead
                rw [← same id (List.mem_append_right _ (List.mem_of_mem_head? isHead))]
                exact stops id isHead

/-- The second loop recycles the messages behind its cursor that match. -/
theorem removeRestTraced_spec (stepwise : Stepwise onCancel good leaves)
    {front rest : List MessageId} {cur : MessageId} (isGood : good st (front ++ cur :: rest))
    {fuel : Nat}
    (enough : rest.length + 1 < fuel) (found : Bool) :
    ∃ st',
      removeRestTraced onCancel removal.accepts fuel st (some cur) found =
        .ok ((st', found || !(rest.filter (removal.removes st)).isEmpty),
          rest.filter (removal.removes st)) ∧
      leaves st (front ++ cur :: rest) st'
        (front ++ cur :: rest.filter fun id => !removal.removes st id) := by
  induction fuel generalizing st front rest cur found with
  | zero => exact absurd enough (Nat.not_lt_zero _)
  | succ fuel ih =>
      have represents := stepwise.represents isGood
      have nextEq : (st.store.messages cur).nextMessage = rest.head? := represents.linked.next_eq
      cases rest with
      | nil =>
          refine ⟨st, ?_, stepwise.refl isGood⟩
          cases fuel with
          | zero => exact absurd (Nat.lt_of_succ_lt_succ enough) (Nat.lt_irrefl _)
          | succ fuel =>
              rw [removeRestTraced, nextEq, List.filter_nil, List.isEmpty_nil, Bool.not_true,
                Bool.or_false]
              rfl
      | cons next rest =>
          have fewer : rest.length + 1 < fuel := Nat.lt_of_succ_lt_succ enough
          cases removed : removal.removes st next with
          | false =>
              have kept : ¬removal.accepts (st.store.messages next) = true :=
                Bool.eq_false_iff.mp removed
              have regroup : front ++ cur :: next :: rest = (front ++ [cur]) ++ next :: rest := by
                rw [List.append_assoc]
                rfl
              rw [regroup] at isGood ⊢
              rcases ih isGood fewer found with ⟨st', returned, later⟩
              refine ⟨st', ?_, ?_⟩
              · rw [removeRestTraced, nextEq, List.filter_cons, removed]
                exact (if_neg kept).trans returned
              · have filtered : (front ++ [cur]) ++
                    next :: rest.filter (fun id => !removal.removes st id) =
                      front ++ cur :: (next :: rest).filter (fun id => !removal.removes st id) := by
                  rw [List.filter_cons, removed, List.append_assoc]
                  rfl
                rw [← filtered]
                exact later
          | true =>
              have kept := sublist_without_middle front cur next rest
              have inside : ∀ id ∈ cur :: rest, id ∈ front ++ cur :: next :: rest :=
                fun id member => kept.subset (List.mem_append_right _ member)
              have only : ∀ id ∈ front ++ cur :: next :: rest, id ∉ front ++ cur :: rest →
                  id = next := by
                intro id member left
                simp only [List.mem_append, List.mem_cons, not_or] at member left
                tauto
              have left := stepwise.one isGood (unlinkAfter_relinks represents) inside
                (unlinkAfter_represents represents) kept
                (List.mem_append_right _ (List.mem_cons_of_mem _ List.mem_cons_self))
                (not_mem_without_middle represents.nodup) only
              rcases ih (stepwise.keeps isGood left) fewer true with ⟨st', returned, later⟩
              have same : ∀ id ∈ rest, removal.removes ((st.unlinkAfter cur next).recycle
                  onCancel next) id = removal.removes st id := fun id member =>
                stepwise.removes isGood left removal
                  (List.mem_append_right _ (List.mem_cons_of_mem _ member))
              have sameFilter := List.filter_congr same
              have sameOthers : rest.filter (fun id => !removal.removes ((st.unlinkAfter cur
                  next).recycle onCancel next) id) =
                    rest.filter fun id => !removal.removes st id :=
                List.filter_congr fun id member => congrArg not (same id member)
              rw [sameFilter] at returned
              rw [sameOthers] at later
              refine ⟨st', ?_, ?_⟩
              · rw [removeRestTraced, nextEq, List.filter_cons_of_pos removed]
                refine (if_pos removed).trans ?_
                simp only
                rw [returned, Bool.true_or, List.isEmpty_cons, Bool.not_false, Bool.or_true]
                rfl
              · rw [List.filter_cons, removed]
                exact stepwise.trans left later

end Loops

section Removals

variable {onCancel : OnCancel} {good : QueueState → List MessageId → Prop}
  {leaves : QueueState → List MessageId → QueueState → List MessageId → Prop}
  {st : QueueState} {nodes : List MessageId}

theorem any_eq_filter {α : Type} (p : α → Bool) (elements : List α) :
    elements.any p = !(elements.filter p).isEmpty := by
  induction elements with
  | nil => rfl
  | cons first elements ih =>
      cases holds : p first with
      | false => rw [List.any_cons, List.filter_cons, holds, Bool.false_or, ih]; rfl
      | true => rw [List.any_cons, List.filter_cons, holds, Bool.true_or]; rfl

/-- A removal runs both loops, or it has nothing to look for. -/
theorem removeTraced_eq (onCancel : OnCancel) (st : QueueState) (removal : Removal) :
    (st.removeTraced onCancel removal = st.removeMatchingTraced onCancel removal.accepts) ∨
      (st.removeTraced onCancel removal = .ok ((st, false), []) ∧
        ∀ message, removal.accepts message = false) := by
  cases removal with
  | messages handler what object =>
      cases handler with
      | none => exact .inr ⟨rfl, fun _ => rfl⟩
      | some handler => exact .inl rfl
  | callbacks handler runnable object =>
      cases handler with
      | none => exact .inr ⟨rfl, fun _ => rfl⟩
      | some handler =>
          cases runnable with
          | none => exact .inr ⟨rfl, fun _ => rfl⟩
          | some runnable => exact .inl rfl
  | callbacksAndMessages handler object =>
      cases handler with
      | none => exact .inr ⟨rfl, fun _ => rfl⟩
      | some handler => exact .inl rfl

/-- Both loops together recycle the messages that match, in their order. -/
theorem removeMatchingTraced_spec (stepwise : Stepwise onCancel good leaves)
    (isGood : good st nodes) (removal : Removal) :
    ∃ st',
      st.removeMatchingTraced onCancel removal.accepts =
        .ok ((st', nodes.any (removal.removes st)), nodes.filter (removal.removes st)) ∧
      leaves st nodes st' (nodes.filter fun id => !removal.removes st id) := by
  have represents := stepwise.represents isGood
  have enough : nodes.length < st.store.allocated + 2 :=
    Nat.lt_of_le_of_lt represents.length_le (Nat.lt_add_of_pos_right (Nat.succ_pos _))
  rcases removeFrontTraced_spec removal stepwise isGood enough false with
    ⟨st', gone, rest, returned, left, split, all, stops⟩
  rw [← represents.linked.head_eq] at returned
  have allGone : gone.filter (removal.removes st) = gone := List.filter_eq_self.mpr all
  have noneKept : gone.filter (fun id => !removal.removes st id) = [] :=
    List.filter_eq_nil_iff.mpr fun id member => by rw [all id member]; exact Bool.false_ne_true
  rw [any_eq_filter, split, List.filter_append, List.filter_append, allGone, noneKept,
    List.nil_append]
  rw [split] at enough isGood left
  cases rest with
  | nil =>
      refine ⟨st', ?_, left⟩
      rw [removeMatchingTraced, returned, List.filter_nil, List.append_nil]
      simp only [removeRestTraced, Bool.false_or, Except.map, List.head?_nil, List.append_nil]
  | cons cur rest =>
      have keeps := stops cur rfl
      have shorter : rest.length + 1 < st'.store.allocated + 2 := by
        have bound := stepwise.allocated isGood left
        have length := represents.length_le
        rw [split, List.length_append, List.length_cons] at length
        omega
      have isGood' : good st' ([] ++ cur :: rest) := stepwise.keeps isGood left
      rcases removeRestTraced_spec removal stepwise isGood' shorter (false || !gone.isEmpty)
        with ⟨st'', returned', left'⟩
      have same : ∀ id ∈ rest, removal.removes st' id = removal.removes st id :=
        fun id member => stepwise.removes isGood left removal (List.mem_cons_of_mem _ member)
      have sameFilter := List.filter_congr same
      have sameOthers : rest.filter (fun id => !removal.removes st' id) =
          rest.filter fun id => !removal.removes st id :=
        List.filter_congr fun id member => congrArg not (same id member)
      have notFirst : ¬removal.removes st cur = true := Bool.eq_false_iff.mp keeps
      rw [sameFilter] at returned'
      rw [sameOthers] at left'
      rw [List.filter_cons_of_neg notFirst, List.filter_cons, keeps]
      refine ⟨st'', ?_, stepwise.trans left left'⟩
      rw [removeMatchingTraced, returned]
      simp only [List.head?_cons, returned', Except.map]
      have together : (gone ++ rest.filter (removal.removes st)).isEmpty =
          (gone.isEmpty && (rest.filter (removal.removes st)).isEmpty) := by
        cases gone with
        | nil => rfl
        | cons first gone => rfl
      rw [Bool.false_or, together, Bool.not_and]

theorem removeTraced_spec (stepwise : Stepwise onCancel good leaves) (isGood : good st nodes)
    (removal : Removal) :
    ∃ st',
      st.removeTraced onCancel removal =
        .ok ((st', nodes.any (removal.removes st)), nodes.filter (removal.removes st)) ∧
      leaves st nodes st' (nodes.filter fun id => !removal.removes st id) := by
  rcases removeTraced_eq onCancel st removal with matching | ⟨nothing, none⟩
  · rw [matching]
    exact removeMatchingTraced_spec stepwise isGood removal
  · have removesNone : ∀ id ∈ nodes, removal.removes st id = false := fun id _ => none _
    have gone : nodes.filter (removal.removes st) = [] :=
      List.filter_eq_nil_iff.mpr fun id member =>
        Bool.eq_false_iff.mp (removesNone id member)
    have kept : nodes.filter (fun id => !removal.removes st id) = nodes :=
      List.filter_eq_self.mpr fun id member => congrArg not (removesNone id member)
    refine ⟨st, ?_, ?_⟩
    · rw [nothing, any_eq_filter, gone]
      rfl
    · rw [kept]
      exact stepwise.refl isGood

end Removals

/-! ## Asking before and after -/

section Asking

variable {onCancel : OnCancel} {st st' : QueueState} {nodes nodes' : List MessageId}

/-- The loop of `hasMessages` looks at the messages one after the other. -/
theorem findMatching_spec {messages : MessageId → Message} {accepts : Message → Bool}
    {start : Option MessageId}
    (linked : LinkPath (fun id => (messages id).nextMessage) start nodes none)
    {fuel : Nat} (enough : nodes.length < fuel) :
    findMatching accepts messages fuel start = .ok (nodes.any fun id => accepts (messages id)) := by
  induction fuel generalizing start nodes with
  | zero => exact absurd enough (Nat.not_lt_zero _)
  | succ fuel ih =>
      cases nodes with
      | nil =>
          rw [LinkPath.nil_iff.mp linked]
          rfl
      | cons cur rest =>
          rw [linked.1, findMatching, List.any_cons]
          cases accepted : accepts (messages cur) with
          | true => rw [if_pos rfl, Bool.true_or]
          | false =>
              rw [if_neg Bool.false_ne_true, Bool.false_or]
              exact ih linked.2 (Nat.lt_of_succ_lt_succ enough)

/-- The call of `hasMessages` that asks for what a removal takes, if there is one. -/
def ask (st : QueueState) : Removal → Option (Except Raised Bool)
  | .messages handler what object => some (st.hasMessages handler what object)
  | .callbacks handler (some runnable) object =>
      some (st.hasRunnable handler (some runnable) object)
  | _ => none

theorem ask_spec (represents : Represents st nodes) {removal : Removal}
    {answer : Except Raised Bool} (asked : st.ask removal = some answer) :
    answer = .ok (nodes.any (removal.removes st)) := by
  have enough : nodes.length < st.store.allocated + 1 := Nat.lt_succ_of_le represents.length_le
  have nothing : ∀ {accepts : MessageId → Bool}, (∀ id, accepts id = false) →
      nodes.any accepts = false := by
    intro accepts none
    rw [List.any_eq_false]
    exact fun id _ => Bool.eq_false_iff.mp (none id)
  cases removal with
  | messages handler what object =>
      cases asked
      cases handler with
      | none => exact congrArg Except.ok (nothing fun _ => rfl).symm
      | some handler => exact findMatching_spec represents.linked.forward enough
  | callbacks handler runnable object =>
      cases runnable with
      | none => cases asked
      | some runnable =>
          cases asked
          cases handler with
          | none => exact congrArg Except.ok (nothing fun _ => rfl).symm
          | some handler => exact findMatching_spec represents.linked.forward enough
  | callbacksAndMessages handler object => cases asked

/-- A removal is a filter: the messages that do not match stay in their order and as they were,
each of the others is recycled once, and `hasMessages` tells before and after what it finds. -/
theorem remove_filters (calm : Calm onCancel) (represents : Represents st nodes)
    (removal : Removal) :
    ∃ st' recycled,
      st.removeTraced onCancel removal =
        .ok ((st', nodes.any (removal.removes st)), recycled) ∧
      st.remove onCancel removal = .ok (st', nodes.any (removal.removes st)) ∧
      recycled.Nodup ∧
      (∀ id, id ∈ recycled ↔ id ∈ nodes ∧ removal.removes st id = true) ∧
      Represents st' (nodes.filter fun id => !removal.removes st id) ∧
      (∀ id ∈ nodes, removal.removes st id = false →
        st'.store.contents id = st.store.contents id) ∧
      (∀ answer, st.ask removal = some answer →
        answer = .ok (nodes.any (removal.removes st))) ∧
      ∀ answer, st'.ask removal = some answer → answer = .ok false := by
  rcases removeTraced_spec (stepwise_leaves calm) represents removal with ⟨st', returned, leaves⟩
  refine ⟨st', nodes.filter (removal.removes st), returned, ?_, ?_, ?_, leaves.represents, ?_,
    fun answer => ask_spec represents, ?_⟩
  · rw [← erase_removeTraced, returned]
    rfl
  · exact represents.nodup.sublist List.filter_sublist
  · exact fun id => List.mem_filter
  · intro id member keeps
    exact leaves.contents id (List.mem_filter.mpr ⟨member, congrArg not keeps⟩)
  · intro answer asked
    rw [ask_spec leaves.represents asked, List.any_eq_false.mpr]
    intro id member
    have same : removal.removes st' id = removal.removes st id :=
      (stepwise_leaves calm).removes represents leaves removal member
    have keeps : removal.removes st id = false := Bool.not_inj (List.mem_filter.mp member).2
    rw [same, keeps]
    exact Bool.false_ne_true

/-- Two queued messages with the same code are both removed. -/
theorem remove_filters_twoQueued :
    ∃ st' recycled,
      twoQueued.removeTraced (fun _ st => st) (.messages (some 7) 1 none) =
        .ok ((st', true), recycled) ∧
      Represents st' [] := by
  have calm : Calm fun _ st => st := fun _ st => ⟨rfl, fun _ _ => rfl, Nat.le_refl _⟩
  rcases remove_filters calm twoQueued_represents (.messages (some 7) 1 none) with
    ⟨st', recycled, returned, _, _, _, represents', _⟩
  exact ⟨st', recycled, returned, represents'⟩

end Asking

end QueueState

end Mindroid
