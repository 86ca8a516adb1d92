import SqlFilter.Compiler.Text
import SqlFilter.Proofs.Lockstep
import SqlFilter.Proofs.Operand

/-!
This module contains what an operator sees of the values that it is given, and the proof that simple
conditions with operands that look alike compile in lockstep.
-/

namespace SqlFilter

open Binder

namespace Value

/-- Whether two lists have equally many values, and later ones equal earlier ones in the same
places. -/
def SamePattern (vs ws : List Value) : Prop :=
  vs.length = ws.length ∧
    (vs.zip ws).Pairwise fun earlier later => later.1.equals earlier.1 = later.2.equals earlier.2

theorem SamePattern.refl (vs : List Value) : SamePattern vs vs := by
  refine ⟨rfl, ?_⟩
  have hzip : vs.zip vs = vs.map fun v => (v, v) := by
    induction vs with
    | nil => rfl
    | cons v vs ih => simp [ih]
  rw [hzip, List.pairwise_map]
  exact List.pairwise_of_forall fun _ _ => rfl

theorem SamePattern.singleton (v w : Value) : SamePattern [v] [w] :=
  ⟨rfl, by simp⟩

theorem SamePattern.length_eraseDupsBy {vs ws : List Value} (h : SamePattern vs ws) :
    (vs.eraseDupsBy Value.equals).length = (ws.eraseDupsBy Value.equals).length := by
  -- the pairs that are left, behind those that have been kept so far
  have loop (pairs kept : List (Value × Value))
      (hp : pairs.Pairwise fun earlier later =>
        later.1.equals earlier.1 = later.2.equals earlier.2)
      (hk : ∀ earlier ∈ kept, ∀ later ∈ pairs,
        later.1.equals earlier.1 = later.2.equals earlier.2) :
      (List.eraseDupsBy.loop Value.equals (pairs.map Prod.fst) (kept.map Prod.fst)).length =
        (List.eraseDupsBy.loop Value.equals (pairs.map Prod.snd) (kept.map Prod.snd)).length := by
    induction pairs generalizing kept with
    | nil => simp [List.eraseDupsBy.loop]
    | cons pair pairs ih =>
      rw [List.pairwise_cons] at hp
      have hany :
          (kept.map Prod.fst).any pair.1.equals = (kept.map Prod.snd).any pair.2.equals := by
        rw [List.any_map, List.any_map, Bool.eq_iff_iff]
        simp only [List.any_eq_true, Function.comp_apply]
        apply exists_congr
        intro earlier
        apply and_congr_right
        intro he
        rw [hk earlier he pair List.mem_cons_self]
      simp only [List.map_cons, List.eraseDupsBy.loop]
      rw [hany]
      split
      . apply ih kept hp.2
        intro earlier he later hl
        exact hk earlier he later (List.mem_cons_of_mem pair hl)
      . apply ih (pair :: kept) hp.2
        intro earlier he later hl
        cases List.mem_cons.1 he with
        | inl heq =>
          subst heq
          exact hp.1 later hl
        | inr hm => exact hk earlier hm later (List.mem_cons_of_mem pair hl)
  have := loop (vs.zip ws) [] h.2 (by simp)
  rw [List.map_fst_zip (Nat.le_of_eq h.1), List.map_snd_zip (Nat.le_of_eq h.1.symm)] at this
  exact this

structure AlikeUnder (family : Option OperatorFamily) (v w : Value) : Prop where
  alike : v.Alike w
  members : family = some .oneOf → ∀ s t, v = .text s → w = .text t →
    SamePattern (ofCommaList s) (ofCommaList t)
  bounds : family = some .between ∨ family = some .betweenTime → ∀ s t, v = .text s →
    w = .text t → (ofCommaList s).length = (ofCommaList t).length
  column : family = some .column → v = w

theorem AlikeUnder.refl (family : Option OperatorFamily) (v : Value) : v.AlikeUnder family v where
  alike := .refl v
  members _ s t hs ht := by
    cases hs.symm.trans ht
    exact .refl _
  bounds _ s t hs ht := by
    cases hs.symm.trans ht
    rfl
  column _ := rfl

def EndsAlike (high high' : Value) : Prop :=
  (high.addSeconds? endOfDaySeconds).isSome = (high'.addSeconds? endOfDaySeconds).isSome

structure ListsAlike (family : Option OperatorFamily) (vs ws : List Value) : Prop where
  alike : List.Forall₂ Alike vs ws
  members : family = some .oneOf → SamePattern vs ws
  endBound : family = some .betweenTime → ∀ low high low' high', vs = [low, high] →
    ws = [low', high'] → EndsAlike high high'

theorem ListsAlike.refl (family : Option OperatorFamily) (vs : List Value) :
    ListsAlike family vs vs where
  alike := List.forall₂_same.2 fun v _ => .refl v
  members _ := .refl vs
  endBound _ low high low' high' h h' := by
    cases h.symm.trans h'
    rfl

end Value

inductive ArgumentsAlike (family : Option OperatorFamily) :
    Argument NestedSelect → Argument NestedSelect → Prop
  | none : ArgumentsAlike family .none .none
  | value {v w : Value} : v.AlikeUnder family w → ArgumentsAlike family (.value v) (.value w)
  | list {vs ws : List Value} :
    Value.ListsAlike family vs ws → ArgumentsAlike family (.list vs) (.list ws)
  | raw (fragment : RawFragment) : ArgumentsAlike family (.raw fragment) (.raw fragment)
  | subQuery {query query' : NestedSelect} :
    Lockstep Eq query.text query'.text → ArgumentsAlike family (.subQuery query) (.subQuery query')
  | column (symbol other : String) :
    ArgumentsAlike family (.column symbol other) (.column symbol other)
  | perField (count : Nat) : ArgumentsAlike family (.perField count) (.perField count)

namespace Operator

variable {op : Operator} {field : String} {type : BindType}
  {argument argument' : Argument NestedSelect}

theorem forall₂_of_length_eq {R : Value → Value → Prop} {vs ws : List Value}
    (h : vs.length = ws.length) (hr : ∀ v ∈ vs, ∀ w ∈ ws, R v w) : List.Forall₂ R vs ws :=
  List.forall₂_of_length_eq_of_get h fun _ _ _ => hr _ (List.get_mem ..) _ (List.get_mem ..)

theorem listText_lockstep {vs ws : List Value} (h : vs.length = ws.length) :
    Lockstep Eq (op.listText field type vs) (op.listText field type ws) := by
  match vs, ws with
  | [], [] => exact .pure rfl
  | [v], [w] => exact (Lockstep.register type v w).map _
  | v :: v' :: vs, w :: w' :: ws =>
    have hall := forall₂_of_length_eq (R := fun _ _ => True) h fun _ _ _ _ => trivial
    exact (Lockstep.mapM (fun v w _ => .register type v w) hall).map _
  | [], _ :: _ => cases h
  | _ :: _, [] => cases h
  | [_], _ :: _ :: _ => simp at h
  | _ :: _ :: _, [_] => simp at h

variable {family : Option OperatorFamily}

theorem boundsOfList_same (op : Operator) {vs ws : List Value}
    (hnull : List.Forall₂ (fun v w => v.isNull = w.isNull) vs ws)
    (hend : family = some .betweenTime → ∀ low high low' high', vs = [low, high] →
      ws = [low', high'] → Value.EndsAlike high high') :
    SameCheck (fun p q => family = some .betweenTime → Value.EndsAlike p.2 q.2)
      (op.boundsOfList vs) (op.boundsOfList ws) := by
  cases hnull with
  | nil => exact .error _ _
  | cons hlow hnull =>
    cases hnull with
    | nil => exact .error _ _
    | cons hhigh hnull =>
      cases hnull with
      | cons _ _ => exact .error _ _
      | nil =>
        unfold boundsOfList
        dsimp only
        rw [hlow, hhigh]
        split
        . exact .error _ _
        . exact .ok fun hf => hend hf _ _ _ _ rfl rfl

section Families

variable (h : ArgumentsAlike family argument argument')

include h

theorem compareText_lockstep :
    Lockstep Eq (op.compareText field type argument) (op.compareText field type argument') := by
  cases h with
  | @value v w hv =>
    have hnull := hv.alike.isNull_eq
    cases hn : v.isNull with
    | true =>
      rw [hn] at hnull
      rw [Value.eq_null_of_isNull hn, Value.eq_null_of_isNull hnull.symm]
      unfold compareText
      dsimp only
      split
      . exact .pure rfl
      . split
        . exact .pure rfl
        . exact .throw _ _
    | false =>
      rw [hn] at hnull
      rw [compareText_value hn, compareText_value hnull.symm]
      exact (Lockstep.scalar type hv.alike).map _
  | subQuery hq => exact hq.map _
  | raw fragment => exact (Lockstep.raw fragment).map _
  | _ => exact .throw _ _

theorem likeText_lockstep {connective : Connective} :
    Lockstep Eq (op.likeText field type connective argument)
      (op.likeText field type connective argument') := by
  cases h with
  | @value v w hv =>
    unfold likeText
    dsimp only
    rw [hv.alike.isNull_eq]
    split
    . exact .throw _ _
    . exact (Lockstep.scalar type hv.alike).map _
  | @list vs ws hvs =>
    have hempty : vs.isEmpty = ws.isEmpty := by
      cases hvs.alike with
      | nil => rfl
      | cons _ _ => rfl
    have hnull : vs.any Value.isNull = ws.any Value.isNull := by
      have hall := hvs.alike
      clear hvs hempty
      induction hall with
      | nil => rfl
      | cons hv _ ih => simp only [List.any_cons, hv.isNull_eq, ih]
    unfold likeText
    dsimp only
    rw [hempty, hnull]
    split
    . exact .throw _ _
    . exact (Lockstep.mapM (fun _ _ hv => .scalar type hv) hvs.alike).map _
  | _ => exact .throw _ _

theorem members_same (op : Operator) (hf : family = some .oneOf) :
    SameCheck
      (fun vs ws => (vs.eraseDupsBy Value.equals).length = (ws.eraseDupsBy Value.equals).length)
      (op.members argument) (op.members argument') := by
  cases h with
  | @value v w hv =>
    rcases hv.alike.text_cases with ⟨s, t, rfl, rfl⟩ | ⟨hnv, hnw⟩
    . exact .ok (hv.members hf s t rfl rfl).length_eraseDupsBy
    . rw [members_value hnv, members_value hnw]
      rw [hv.alike.isNull_eq]
      split
      . exact .error _ _
      . exact .ok (Value.SamePattern.singleton v w).length_eraseDupsBy
  | list hvs => exact .ok (hvs.members hf).length_eraseDupsBy
  | _ => exact .error _ _

theorem memberText_lockstep (hf : family = some .oneOf) :
    Lockstep Eq (op.memberText field type argument) (op.memberText field type argument') := by
  have hm := members_same h op hf
  cases h with
  | subQuery hq => exact hq.map _
  | raw fragment => exact (Lockstep.raw fragment).map _
  | _ => exact (Lockstep.lift hm).bind fun _ _ hl => listText_lockstep hl

theorem bounds_same (hf : family = some .between ∨ family = some .betweenTime) :
    SameCheck (fun p q => family = some .betweenTime → Value.EndsAlike p.2 q.2)
      (op.bounds argument) (op.bounds argument') := by
  cases h with
  | @value v w hv =>
    rcases hv.alike.text_cases with ⟨s, t, rfl, rfl⟩ | ⟨hnv, hnw⟩
    . rw [bounds_text, bounds_text]
      apply boundsOfList_same
      . apply forall₂_of_length_eq (hv.bounds hf s t rfl rfl)
        intro v hv w hw
        obtain ⟨_, rfl⟩ := Value.text_of_mem_ofCommaList hv
        obtain ⟨_, rfl⟩ := Value.text_of_mem_ofCommaList hw
        rfl
      . -- a text has no seconds that could be added
        intro _ low high low' high' hs ht
        obtain ⟨_, rfl⟩ := Value.text_of_mem_ofCommaList (s := s) (v := high) (by simp [hs])
        obtain ⟨_, rfl⟩ := Value.text_of_mem_ofCommaList (s := t) (v := high') (by simp [ht])
        rfl
    . rw [bounds_value hnv, bounds_value hnw]
      exact .error _ _
  | list hvs =>
    rw [bounds_list, bounds_list]
    exact boundsOfList_same op (hvs.alike.imp fun _ _ hv => hv.isNull_eq) hvs.endBound
  | _ => exact .error _ _

theorem existingText_lockstep :
    Lockstep Eq (op.existingText argument) (op.existingText argument') := by
  cases h with
  | subQuery hq => exact hq.map _
  | raw fragment => exact (Lockstep.raw fragment).map _
  | _ => exact .throw _ _

theorem expressionText_lockstep :
    Lockstep Eq (op.expressionText field argument) (op.expressionText field argument') := by
  cases h with
  | raw fragment => exact (Lockstep.raw fragment).map _
  | _ => exact .throw _ _

end Families

theorem rangeText_lockstep (low high low' high' : Value) :
    Lockstep Eq (op.rangeText field type low high) (op.rangeText field type low' high') := by
  apply (Lockstep.register type low low').bind
  intro s _ hs
  subst hs
  exact (Lockstep.register type high high').map _

end Operator

namespace Compiler

variable {c : Compiler} {op : Operator} {left : LeftSide} {type : BindType}
  {family : Option OperatorFamily} {argument argument' : Argument NestedSelect}

theorem timeText_lockstep (h : ArgumentsAlike family argument argument') :
    Lockstep Eq (c.timeText op left type argument) (c.timeText op left type argument') := by
  cases h with
  | @value v w hv =>
    unfold timeText
    dsimp only
    rw [hv.alike.isNull_eq]
    split
    . exact .throw _ _
    . exact (Lockstep.register type _ _).map _
  | _ => exact .throw _ _

theorem timeRangeText_lockstep (h : ArgumentsAlike family argument argument')
    (hf : family = some .betweenTime) :
    Lockstep Eq (c.timeRangeText op left type argument)
      (c.timeRangeText op left type argument') := by
  apply (Lockstep.lift (Operator.bounds_same h (.inr hf))).bind
  intro ⟨low, high⟩ ⟨low', high'⟩ hends
  have hends := hends hf
  dsimp only [Value.EndsAlike] at hends ⊢
  cases hh : high.addSeconds? endOfDaySeconds with
  | none =>
    cases hh' : high'.addSeconds? endOfDaySeconds with
    | none => exact .throw _ _
    | some _ => simp [hh, hh'] at hends
  | some _ =>
    cases hh' : high'.addSeconds? endOfDaySeconds with
    | none => simp [hh, hh'] at hends
    | some _ => exact Operator.rangeText_lockstep _ _ _ _

theorem columnsText_lockstep (h : ArgumentsAlike family argument argument')
    (hf : family = some .column) :
    Lockstep Eq (liftM (c.columnsText op left argument))
      (liftM (c.columnsText op left argument')) := by
  apply Lockstep.lift
  cases h with
  | value hv =>
    rw [hv.column hf]
    apply SameCheck.refl
  | column symbol other => apply SameCheck.refl
  | _ => exact .error _ _

theorem leftSide_lockstep (field : FieldRef) :
    Lockstep Eq (c.leftSide field) (c.leftSide field) := by
  cases field with
  | column name => exact (Lockstep.lift (.refl _)).map _
  | raw fragment => exact (Lockstep.raw fragment).map _
  | none => exact .pure rfl

theorem testText_lockstep {field : FieldRef} {comparison : Comparison}
    (h : ArgumentsAlike (c.family? comparison.operator) argument argument') :
    Lockstep Eq (c.testText field comparison argument)
      (c.testText field comparison argument') := by
  apply (leftSide_lockstep field).bind
  intro left _ hleft
  subst hleft
  have hresolve : SameCheck
      (fun op op' => op = op' ∧ c.family? comparison.operator = some op.family)
      (c.operators.resolve comparison.operator) (c.operators.resolve comparison.operator) := by
    unfold OperatorTable.resolve family?
    cases c.operators.resolve? comparison.operator with
    | none => exact .error _ _
    | some op => exact .ok ⟨rfl, rfl⟩
  apply (Lockstep.lift hresolve).bind
  intro op _ ⟨hop, hfam⟩
  subst hop
  dsimp only
  split
  . exact .throw _ _
  . -- the relation between the operands is that of the family whose rule is followed
    generalize hf : op.family = family at hfam
    cases family with
    | compare => exact Operator.compareText_lockstep h
    | like => exact Operator.likeText_lockstep h
    | between =>
      apply (Lockstep.lift (Operator.bounds_same h (.inl hfam))).bind
      intro _ _ _
      exact Operator.rangeText_lockstep _ _ _ _
    | oneOf => exact Operator.memberText_lockstep h hfam
    | isNull => exact .pure rfl
    | existing => exact Operator.existingText_lockstep h
    | expression => exact Operator.expressionText_lockstep h
    | column => exact columnsText_lockstep h hfam
    | time => exact timeText_lockstep h
    | betweenTime => exact timeRangeText_lockstep h hfam

theorem selectText_lockstep {table : String} {selection : Selection}
    {filter filter' : Binder String} (h : Lockstep Eq filter filter') :
    Lockstep Eq (c.selectText table selection filter) (c.selectText table selection filter') := by
  apply (Lockstep.lift (.refl _)).bind
  intro name _ hname
  subst hname
  apply (Lockstep.lift (.refl _)).bind
  intro fields _ hfields
  subst hfields
  apply h.bind
  intro sql _ hsql
  subst hsql
  exact (Lockstep.lift (.refl _)).map _

end Compiler

end SqlFilter
