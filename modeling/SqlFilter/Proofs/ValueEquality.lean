import Mathlib.Data.List.Induction
import Mathlib.Data.List.Nodup
import Mathlib.Data.List.Perm.Subperm
import SqlFilter.Value

/-!
This module contains the laws of equality of values, and what it means to drop repeated values. A
value may differ from itself, if it is or contains what is not a number; but equality is transitive,
and symmetric for documents in which no object has two members of one name.
-/

namespace SqlFilter

section Float

theorem Binary64.equals_symm {x y : Binary64} (h : x.equals y = true) : y.equals x = true := by
  unfold equals at h ⊢
  simp only [Bool.and_eq_true, Bool.or_eq_true, beq_iff_eq] at h ⊢
  obtain ⟨⟨hx, hy⟩, h | h⟩ := h
  . exact ⟨⟨hy, hx⟩, .inl h.symm⟩
  . exact ⟨⟨hy, hx⟩, .inr h.symm⟩

theorem Binary64.equals_trans {x y z : Binary64} (hxy : x.equals y = true)
    (hyz : y.equals z = true) : x.equals z = true := by
  unfold equals at hxy hyz ⊢
  simp only [Bool.and_eq_true, Bool.or_eq_true, beq_iff_eq] at hxy hyz ⊢
  obtain ⟨⟨hx, _⟩, rfl | hxy⟩ := hxy
  . exact hyz
  . obtain ⟨⟨_, hz⟩, rfl | hyz⟩ := hyz
    . exact ⟨⟨hx, hz⟩, .inr hxy⟩
    . exact ⟨⟨hx, hz⟩, .inr ⟨hxy.1, hyz.2⟩⟩

end Float

namespace Json

mutual

def DistinctNames : Json → Prop
  | .array items => DistinctNamesItems items
  | .object members => (members.map Prod.fst).Nodup ∧ DistinctNamesMembers members
  | _ => True

def DistinctNamesItems : List Json → Prop
  | [] => True
  | item :: items => DistinctNames item ∧ DistinctNamesItems items

def DistinctNamesMembers : List (String × Json) → Prop
  | [] => True
  | (_, j) :: members => DistinctNames j ∧ DistinctNamesMembers members

end

theorem equalMembers_iff {as bs : List (String × Json)} : equalMembers as bs = true ↔
    ∀ member ∈ as, ∃ b, List.lookup member.1 bs = some b ∧ equals member.2 b = true := by
  induction as with
  | nil => simp [equalMembers]
  | cons member as ih =>
    obtain ⟨name, a⟩ := member
    rw [equalMembers, Bool.and_eq_true, ih, List.forall_mem_cons]
    cases List.lookup name bs <;> simp

theorem mem_of_lookup {name : String} {members : List (String × Json)} {j : Json}
    (h : List.lookup name members = some j) : (name, j) ∈ members := by
  obtain ⟨before, after, rfl, _⟩ := List.lookup_eq_some_iff.1 h
  simp

theorem lookup_of_mem {name : String} {members : List (String × Json)} {j : Json}
    (hd : (members.map Prod.fst).Nodup) (h : (name, j) ∈ members) :
    List.lookup name members = some j := by
  cases hl : List.lookup name members with
  | none => exact absurd (List.lookup_eq_none_iff.1 hl (name, j) h) (by simp)
  | some other =>
    have := List.inj_on_of_nodup_map hd (mem_of_lookup hl) h rfl
    rw [(Prod.mk.inj this).2]

def isPlain : Json → Bool
  | .null | .bool _ | .int _ | .string _ => true
  | _ => false

theorem eq_of_equals {a b : Json} (ha : a.isPlain = true) (h : a.equals b = true) : a = b := by
  unfold equals at h
  split at h <;> simp_all [isPlain]

mutual

theorem equals_trans : (a : Json) → ∀ b c : Json, a.equals b = true → b.equals c = true →
    a.equals c = true
  | .null | .bool _ | .int _ | .string _ => by
    intro b c hab hbc
    rwa [eq_of_equals rfl hab]
  | .float x => by
    intro b c hab hbc
    cases b with
    | float y =>
      cases c with
      | float z => exact Binary64.equals_trans hab hbc
      | _ => cases hbc
    | _ => cases hab
  | .array as => by
    intro b c hab hbc
    cases b with
    | array bs =>
      cases c with
      | array cs => exact equalItems_trans as bs cs hab hbc
      | _ => cases hbc
    | _ => cases hab
  | .object as => by
    intro b c hab hbc
    cases b with
    | object bs =>
      cases c with
      | object cs =>
        simp only [equals, Bool.and_eq_true, beq_iff_eq] at hab hbc ⊢
        refine ⟨hab.1.trans hbc.1, equalMembers_iff.2 ?_⟩
        intro member hm
        obtain ⟨b, hb, hab⟩ := equalMembers_iff.1 hab.2 member hm
        obtain ⟨c, hc, hbc⟩ := equalMembers_iff.1 hbc.2 (_, b) (mem_of_lookup hb)
        exact ⟨c, hc, memberEquals_trans as member hm b c hab hbc⟩
      | _ => cases hbc
    | _ => cases hab

theorem equalItems_trans : (as : List Json) → ∀ bs cs : List Json, equalItems as bs = true →
    equalItems bs cs = true → equalItems as cs = true
  | [] => by
    intro bs cs hab hbc
    cases bs with
    | nil => exact hbc
    | cons b bs => cases hab
  | a :: as => by
    intro bs cs hab hbc
    cases bs with
    | nil => cases hab
    | cons b bs =>
      cases cs with
      | nil => cases hbc
      | cons c cs =>
        simp only [equalItems, Bool.and_eq_true] at hab hbc ⊢
        exact ⟨equals_trans a b c hab.1 hbc.1, equalItems_trans as bs cs hab.2 hbc.2⟩

theorem memberEquals_trans : (as : List (String × Json)) → ∀ member : String × Json,
    member ∈ as → ∀ b c : Json, member.2.equals b = true → b.equals c = true →
      member.2.equals c = true
  | [] => by
    rintro member ⟨⟩
  | (name, a) :: as => by
    intro member hm b c hab hbc
    cases List.mem_cons.1 hm with
    | inl he =>
      subst he
      exact equals_trans a b c hab hbc
    | inr hm => exact memberEquals_trans as member hm b c hab hbc

end

theorem names_perm {as bs : List (String × Json)} (hd : (as.map Prod.fst).Nodup)
    (hlength : as.length = bs.length) (h : equalMembers as bs = true) :
    (as.map Prod.fst).Perm (bs.map Prod.fst) := by
  have hsub : as.map Prod.fst ⊆ bs.map Prod.fst := by
    intro name hn
    obtain ⟨member, hm, rfl⟩ := List.mem_map.1 hn
    obtain ⟨b, hb, _⟩ := equalMembers_iff.1 h member hm
    exact List.mem_map.2 ⟨_, mem_of_lookup hb, rfl⟩
  exact (List.subperm_of_subset hd hsub).perm_of_length_le (by simp [hlength])

mutual

theorem equals_symm : (a : Json) → ∀ b : Json, a.DistinctNames → a.equals b = true →
    b.equals a = true
  | .null | .bool _ | .int _ | .string _ => by
    intro b _ h
    cases eq_of_equals rfl h
    exact h
  | .float x => by
    intro b _ h
    cases b with
    | float y => exact Binary64.equals_symm h
    | _ => cases h
  | .array as => by
    intro b hd h
    cases b with
    | array bs => exact equalItems_symm as bs hd h
    | _ => cases h
  | .object as => by
    intro b hd h
    cases b with
    | object bs =>
      simp only [equals, Bool.and_eq_true, beq_iff_eq] at h ⊢
      have hnames := names_perm hd.1 h.1 h.2
      refine ⟨h.1.symm, equalMembers_iff.2 ?_⟩
      rintro ⟨name, b⟩ hb
      obtain ⟨⟨_, a⟩, ha, rfl⟩ := List.mem_map.1
        (hnames.mem_iff.2 (List.mem_map.2 ⟨_, hb, rfl⟩))
      obtain ⟨b', hb', heq⟩ := equalMembers_iff.1 h.2 _ ha
      -- the names are different, so the member that is found is the one at hand
      cases (lookup_of_mem (hnames.nodup_iff.1 hd.1) hb).symm.trans hb'
      exact ⟨a, lookup_of_mem hd.1 ha, memberEquals_symm as hd.2 _ ha b heq⟩
    | _ => cases h

theorem equalItems_symm : (as : List Json) → ∀ bs : List Json, DistinctNamesItems as →
    equalItems as bs = true → equalItems bs as = true
  | [] => by
    intro bs _ h
    cases bs with
    | nil => rfl
    | cons b bs => cases h
  | a :: as => by
    intro bs hd h
    cases bs with
    | nil => cases h
    | cons b bs =>
      simp only [equalItems, Bool.and_eq_true] at h ⊢
      exact ⟨equals_symm a b hd.1 h.1, equalItems_symm as bs hd.2 h.2⟩

theorem memberEquals_symm : (as : List (String × Json)) → DistinctNamesMembers as →
    ∀ member : String × Json, member ∈ as → ∀ b : Json, member.2.equals b = true →
      b.equals member.2 = true
  | [] => by
    rintro _ member ⟨⟩
  | (name, a) :: as => by
    intro hd member hm b h
    cases List.mem_cons.1 hm with
    | inl he =>
      subst he
      exact equals_symm a b hd.1 h
    | inr hm => exact memberEquals_symm as hd.2 member hm b h

end

end Json

namespace Value

def DistinctNames : Value → Prop
  | .json j => j.DistinctNames
  | _ => True

theorem equals_trans {u v w : Value} (huv : u.equals v = true) (hvw : v.equals w = true) :
    u.equals w = true := by
  unfold equals at huv
  split at huv
  . rwa [eq_of_beq huv]
  . rwa [eq_of_beq huv]
  . cases w with
    | float z => exact Binary64.equals_trans huv hvw
    | _ => cases hvw
  . rwa [eq_of_beq huv]
  . rwa [eq_of_beq huv]
  . rwa [eq_of_beq huv]
  . rwa [eq_of_beq huv]
  . cases w with
    | json c => exact Json.equals_trans _ _ c huv hvw
    | _ => cases hvw
  . exact hvw
  . cases huv

theorem equals_symm {u v : Value} (hd : u.DistinctNames) (h : u.equals v = true) :
    v.equals u = true := by
  unfold equals at h
  split at h
  . exact beq_iff_eq.2 (eq_of_beq h).symm
  . exact beq_iff_eq.2 (eq_of_beq h).symm
  . exact Binary64.equals_symm h
  . exact beq_iff_eq.2 (eq_of_beq h).symm
  . exact beq_iff_eq.2 (eq_of_beq h).symm
  . exact beq_iff_eq.2 (eq_of_beq h).symm
  . exact beq_iff_eq.2 (eq_of_beq h).symm
  . exact Json.equals_symm _ _ hd h
  . rfl
  . cases h

def firsts (vs : List Value) : List Value :=
  (vs.zipIdx.filter fun (v, i) => !(vs.take i).any v.equals).map Prod.fst

theorem firsts_append_singleton (vs : List Value) (v : Value) :
    firsts (vs ++ [v]) = firsts vs ++ if vs.any v.equals then [] else [v] := by
  have hbefore : ∀ p ∈ vs.zipIdx, (!((vs ++ [v]).take p.2).any p.1.equals) =
      !(vs.take p.2).any p.1.equals := by
    intro p hp
    have hlt := (List.mem_zipIdx hp).2.1
    rw [List.take_append_of_le_length (by omega)]
  rw [firsts, List.zipIdx_append, List.filter_append, List.map_append, firsts,
    List.filter_congr hbefore]
  congr 1
  cases h : vs.any v.equals <;> simp [h]

variable {vs : List Value} {v : Value}

theorem mem_of_mem_firsts (h : v ∈ firsts vs) : v ∈ vs := by
  obtain ⟨⟨w, i⟩, hp, rfl⟩ := List.mem_map.1 h
  exact List.fst_mem_of_mem_zipIdx (List.mem_of_mem_filter hp)

theorem mem_firsts_or (h : v ∈ vs) : v ∈ firsts vs ∨ ∃ u ∈ firsts vs, v.equals u = true := by
  induction vs using List.reverseRecOn generalizing v with
  | nil => cases h
  | append_singleton vs last ih =>
    rw [firsts_append_singleton]
    simp only [List.mem_append, List.mem_singleton] at h ⊢
    rcases h with h | rfl
    . rcases ih h with h | ⟨u, hu, he⟩
      . exact .inl (.inl h)
      . exact .inr ⟨u, .inl hu, he⟩
    . split
      . next hany =>
        obtain ⟨u, hu, he⟩ := List.any_eq_true.1 hany
        right
        rcases ih hu with hu | ⟨w, hw, hew⟩
        . exact ⟨u, .inl hu, he⟩
        . exact ⟨w, .inl hw, equals_trans he hew⟩
      . exact .inl (.inr List.mem_cons_self)

theorem any_firsts (vs : List Value) (v : Value) :
    (firsts vs).any v.equals = vs.any v.equals := by
  rw [Bool.eq_iff_iff, List.any_eq_true, List.any_eq_true]
  constructor
  . rintro ⟨u, hu, he⟩
    exact ⟨u, mem_of_mem_firsts hu, he⟩
  . rintro ⟨u, hu, he⟩
    rcases mem_firsts_or hu with hu | ⟨w, hw, hew⟩
    . exact ⟨u, hu, he⟩
    . exact ⟨w, hw, equals_trans he hew⟩

theorem pairwise_firsts (vs : List Value) :
    (firsts vs).Pairwise fun earlier later => later.equals earlier = false := by
  induction vs using List.reverseRecOn with
  | nil => exact .nil
  | append_singleton vs last ih =>
    rw [firsts_append_singleton]
    split
    . rwa [List.append_nil]
    . next hany =>
      rw [List.pairwise_append]
      refine ⟨ih, List.pairwise_singleton _ _, ?_⟩
      intro u hu w hw
      rw [List.mem_singleton.1 hw, ← Bool.not_eq_true]
      exact fun he => hany (List.any_eq_true.2 ⟨u, mem_of_mem_firsts hu, he⟩)

theorem eraseDupsBy_append_singleton (vs : List Value) (v : Value) :
    (vs ++ [v]).eraseDupsBy equals = vs.eraseDupsBy equals ++
      if (vs.eraseDupsBy equals).any v.equals then [] else [v] := by
  -- behind values that have been kept so far, in reverse
  have loop (kept : List Value) : List.eraseDupsBy.loop equals (vs ++ [v]) kept =
      List.eraseDupsBy.loop equals vs kept ++
        if (List.eraseDupsBy.loop equals vs kept).any v.equals then [] else [v] := by
    induction vs generalizing kept with
    | nil =>
      rw [List.nil_append, List.eraseDupsBy.loop, List.eraseDupsBy.loop, List.any_reverse]
      cases kept.any v.equals <;> simp [List.eraseDupsBy.loop]
    | cons u vs ih =>
      rw [List.cons_append, List.eraseDupsBy.loop, List.eraseDupsBy.loop]
      split
      . exact ih kept
      . exact ih (u :: kept)
  exact loop []

theorem eraseDupsBy_eq_firsts (vs : List Value) : vs.eraseDupsBy equals = firsts vs := by
  induction vs using List.reverseRecOn with
  | nil => rfl
  | append_singleton vs last ih =>
    rw [eraseDupsBy_append_singleton, firsts_append_singleton, ih, any_firsts]

end Value

end SqlFilter
