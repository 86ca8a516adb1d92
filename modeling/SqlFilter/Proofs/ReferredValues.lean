import SqlFilter.Proofs.Membership

/-!
This module contains texts that refer to values by the placeholders of their binds, and what each
computation that binds values refers to.
-/

namespace SqlFilter

open Binder

section Within

def Text.Within (part whole : String) : Prop :=
  ∃ front back, whole = front ++ part ++ back

namespace Text

variable {s t u : String}

theorem Within.refl (s : String) : Within s s := ⟨"", "", by simp⟩

theorem Within.trans (h : Within s t) (h' : Within t u) : Within s u := by
  obtain ⟨front, back, rfl⟩ := h
  obtain ⟨front', back', rfl⟩ := h'
  exact ⟨front' ++ front, back ++ back', by simp only [String.append_assoc]⟩

theorem Within.append_right (h : Within s t) (back : String) : Within s (t ++ back) :=
  h.trans ⟨"", back, by simp⟩

theorem Within.append_left (h : Within s t) (front : String) : Within s (front ++ t) :=
  h.trans ⟨front, "", by simp⟩

theorem within_intercalate {parts : List String} (h : s ∈ parts) (separator : String) :
    Within s (separator.intercalate parts) := by
  induction parts with
  | nil => cases h
  | cons part parts ih =>
    cases parts with
    | nil =>
      obtain rfl := List.mem_singleton.1 h
      exact .refl _
    | cons next parts =>
      rw [String.intercalate_cons_cons]
      rcases List.mem_cons.1 h with rfl | h
      . exact ((Within.refl s).append_right _).append_right _
      . exact (ih h).append_left _

theorem within_parenthesized (s : String) : Within s ("( " ++ s ++ " )") :=
  ⟨"( ", " )", rfl⟩

end Text

end Within

open Text

def Value.IsReferredTo (v : Value) (sql : String) (binds : List Bind) : Prop :=
  ∃ bind ∈ binds, Within (":" ++ bind.name) sql ∧ (bind.value = v ∨ v = .text (":" ++ bind.name))

namespace Value

variable {v : Value} {sql sql' : String} {binds binds' : List Bind}

theorem IsReferredTo.mono (h : v.IsReferredTo sql binds) (hsql : Within sql sql')
    (hbinds : binds <+: binds') : v.IsReferredTo sql' binds' := by
  obtain ⟨bind, hbind, hwithin, hv⟩ := h
  exact ⟨bind, hbinds.subset hbind, hwithin.trans hsql, hv⟩

end Value

theorem BindTable.exists_of_reference? {table : BindTable} {v : Value} {s : String}
    (h : table.reference? v = some s) :
    v = .text s ∧ ∃ bind ∈ table.binds, s = ":" ++ bind.name := by
  unfold reference? at h
  split at h
  . split at h
    . next name hs =>
      split at h
      . next hr =>
        cases h
        obtain ⟨bind, hbind, hname⟩ := List.any_eq_true.1 hr
        refine ⟨rfl, bind, hbind, ?_⟩
        rw [eq_of_beq hname, ← String.toList_inj, hs]
        simp
      . cases h
    . cases h
  . cases h

theorem BindTable.binds_registerAll {binds : List Bind} {before after : BindTable}
    (h : before.registerAll binds = .ok after) : after.binds = before.binds ++ binds := by
  induction binds generalizing before with
  | nil =>
    cases h
    simp
  | cons bind binds ih =>
    obtain ⟨next, hnext, h⟩ := bind_eq_ok.1 h
    rw [ih h, binds_registerNamed before hnext, List.append_assoc]
    rfl

namespace Binder

theorem return_eq_ok {α β : Type} {m : Binder α} {f : α → β} {before after : BindTable} {b : β}
    (h : (do return f (← m) : Binder β) before = .ok (b, after)) :
    ∃ a, m before = .ok (a, after) ∧ b = f a := by
  rw [run_bind] at h
  obtain ⟨⟨a, table⟩, hm, h⟩ := bind_eq_ok.1 h
  cases h
  exact ⟨a, hm, rfl⟩

theorem raw_eq_ok {fragment : RawFragment} {before after : BindTable} {s : String}
    (h : raw fragment before = .ok (s, after)) :
    s = fragment.sql ∧ after.binds = before.binds ++ fragment.binds := by
  obtain ⟨table, hall, h⟩ := bind_eq_ok.1 h
  cases h
  exact ⟨rfl, BindTable.binds_registerAll hall⟩

structure Refers (v : Value) (m : Binder String) : Prop where
  binds : ∀ {before s after}, m before = .ok (s, after) → before.binds <+: after.binds
  value : ∀ {before s after}, m before = .ok (s, after) → v.IsReferredTo s after.binds

theorem refers_register (type : BindType) (v : Value) : Refers v (register type v) where
  binds := by
    have hensures : Ensures (fun _ => True) (fun _ => True) (register type v) := .register type v
    intro before s after h
    exact hensures.binds h
  value := by
    rintro before s after ⟨⟩
    exact ⟨⟨_, v, type⟩, List.mem_append_right _ List.mem_cons_self, .refl _, .inl rfl⟩

theorem refers_scalar (type : BindType) (v : Value) : Refers v (scalar type v) where
  binds := by
    have hensures : Ensures (fun _ => True) (fun _ => True) (scalar type v) := .scalar type v
    intro before s after h
    exact hensures.binds h
  value := by
    intro before s after h
    unfold scalar at h
    split at h
    . next placeholder hreference =>
      cases h
      obtain ⟨hv, bind, hbind, rfl⟩ := BindTable.exists_of_reference? hreference
      exact ⟨bind, hbind, .refl _, .inr hv⟩
    . exact (refers_register type v).value h

theorem refers_mapM {f : Value → Binder String} (hf : ∀ v, Refers v (f v)) {vs : List Value}
    {before after : BindTable} {texts : List String} (h : vs.mapM f before = .ok (texts, after)) :
    before.binds <+: after.binds ∧ ∀ v ∈ vs, ∃ s ∈ texts, v.IsReferredTo s after.binds := by
  induction vs generalizing before texts with
  | nil =>
    cases h
    simp
  | cons v vs ih =>
    rw [List.mapM_cons, run_bind] at h
    obtain ⟨⟨s, table⟩, hs, h⟩ := bind_eq_ok.1 h
    obtain ⟨others, hothers, rfl⟩ := return_eq_ok h
    obtain ⟨hbinds, hothers⟩ := ih hothers
    refine ⟨((hf v).binds hs).trans hbinds, List.forall_mem_cons.2 ⟨?_, ?_⟩⟩
    . exact ⟨s, List.mem_cons_self, ((hf v).value hs).mono (.refl s) hbinds⟩
    . intro w hw
      obtain ⟨t, ht, hw⟩ := hothers w hw
      exact ⟨t, List.mem_cons_of_mem s ht, hw⟩

end Binder

theorem MemberTest.within_ofNames {field name : String} {negated : Bool} {names : List String}
    (h : name ∈ names) : Within (":" ++ name) ((ofNames negated names).text field) := by
  match names with
  | [other] =>
    obtain rfl := List.mem_singleton.1 h
    exact (Within.refl _).append_left _
  | first :: second :: names =>
    have hlist := within_intercalate (List.mem_map_of_mem h (f := (":" ++ ·))) ","
    exact ((hlist.append_left "(").append_right ")").append_left _

namespace Operator

variable {op : Operator} {field sql : String} {type : BindType} {before after : BindTable}

theorem within_applied (op : Operator) (field right : String) :
    Within right (op.applied field right) :=
  (Within.refl right).append_left _

theorem within_applied_sql (op : Operator) (field right : String) :
    Within op.sql (op.applied field right) :=
  (((Within.refl op.sql).append_left _).append_right _).append_right _

theorem applied_refers {v : Value} {m : Binder String} (hm : Refers v m)
    (h : (do return op.applied field (← m) : Binder String) before = .ok (sql, after)) :
    v.IsReferredTo sql after.binds := by
  obtain ⟨s, hs, rfl⟩ := return_eq_ok h
  exact (hm.value hs).mono (within_applied op field s) (List.prefix_refl _)

theorem listText_refers (hop : op = .oneOf ∨ op = .notOneOf) {vs : List Value}
    (h : op.listText field type (Value.firsts vs) before = .ok (sql, after)) :
    ∀ v ∈ vs, ∃ u ∈ vs, (u = v ∨ v.equals u = true) ∧ u.IsReferredTo sql after.binds := by
  obtain ⟨new, table, hlist, hnew⟩ := listText_eq hop field type (Value.firsts vs) before
  rw [h] at hlist
  cases hlist
  have hfirst (u : Value) (hu : u ∈ Value.firsts vs) : u.IsReferredTo
      ((MemberTest.ofNames (op == .notOneOf) (new.map Bind.name)).text field) after.binds := by
    rw [← hnew.values] at hu
    obtain ⟨bind, hbind, rfl⟩ := List.mem_map.1 hu
    refine ⟨bind, ?_, MemberTest.within_ofNames (List.mem_map_of_mem hbind), .inl rfl⟩
    rw [hnew.binds]
    exact List.mem_append_right _ hbind
  intro v hv
  rcases Value.mem_firsts_or hv with hv | ⟨u, hu, he⟩
  . exact ⟨v, Value.mem_of_mem_firsts hv, .inl rfl, hfirst v hv⟩
  . exact ⟨u, Value.mem_of_mem_firsts hu, .inr he, hfirst u hu⟩

theorem rangeText_refers {low high : Value}
    (h : op.rangeText field type low high before = .ok (sql, after)) :
    low.IsReferredTo sql after.binds ∧ high.IsReferredTo sql after.binds := by
  unfold rangeText at h
  rw [run_bind] at h
  obtain ⟨⟨first, table⟩, hlow, h⟩ := bind_eq_ok.1 h
  obtain ⟨second, hhigh, rfl⟩ := return_eq_ok h
  have hbinds := (refers_register type high).binds hhigh
  constructor
  . apply ((refers_register type low).value hlow).mono _ hbinds
    exact (((Within.refl first).append_right _).append_right _).trans (within_applied _ _ _)
  . apply ((refers_register type high).value hhigh).mono _ (List.prefix_refl _)
    exact ((Within.refl second).append_left _).trans (within_applied _ _ _)

theorem bounds_eq_ok {argument : Argument NestedSelect} {low high : Value}
    (h : op.bounds argument = .ok (low, high)) :
    argument = .list [low, high] ∨
      ∃ s, argument = .value (.text s) ∧ Value.ofCommaList s = [low, high] := by
  have hlist {vs : List Value} (h : op.boundsOfList vs = .ok (low, high)) : vs = [low, high] := by
    unfold boundsOfList at h
    split at h
    . split at h
      . cases h
      . cases h
        rfl
    . cases h
  cases argument with
  | list vs =>
    rw [bounds_list] at h
    rw [hlist h]
    exact .inl rfl
  | value v =>
    cases v with
    | text s =>
      rw [bounds_text] at h
      exact .inr ⟨s, rfl, hlist h⟩
    | _ => cases h
  | _ => cases h

end Operator

end SqlFilter
