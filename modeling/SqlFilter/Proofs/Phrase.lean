import SqlFilter.Proofs.Blocks
import SqlFilter.Proofs.NestedDraft
import SqlFilter.Proofs.Simulation

/-!
This module contains phrases: texts of which the first blocks tell how many there are, so that it is
known where a phrase ends if a connective follows. Simple conditions are phrases, whatever the names
of their columns are, and so is everything between parentheses.
-/

namespace SqlFilter

namespace Text

def isLink (block : String) : Bool :=
  block == "AND" || block == "OR" || block == "XOR"

/-- The number of blocks of the phrase that a text begins with. The second block is the operator
where there is one, so that the first one may be any name. -/
def phraseLength : List String → Nat
  | _ :: second :: rest =>
    if isLink second then 1
    else if second.toList.head? = some '(' then 2
    else if second = "EXISTS" then 3
    else if second = "IS" then if rest.head? = some "NOT" then 4 else 3
    else if second = "NOT" then if rest.head? = some "BETWEEN" then 6 else 4
    else if second = "BETWEEN" then 5
    else 3
  | _ => 1

def Follows (s : String) : Prop :=
  s = "" ∨ ∃ (connective : Connective) (t : String), s = " " ++ connective.sql ++ " " ++ t

structure IsPhrase (s : String) : Prop where
  closed : Closed s.toList
  length : ∀ rest, rest = [] ∨ (∃ link others, rest = link :: others ∧ isLink link = true) →
    phraseLength (blocks s ++ rest) = (blocks s).length

theorem isLink_sql (connective : Connective) : isLink connective.sql = true := by
  cases connective <;> rfl

theorem isWord_sql_connective (connective : Connective) : IsWord connective.sql := by
  cases connective <;> exact .of_all (by decide)

theorem Follows.blocks_append {s rest : String} (hr : Follows rest) (hs : Closed s.toList) :
    ∃ behind, blocks (s ++ rest) = blocks s ++ behind ∧
      (behind = [] ∨ ∃ link others, behind = link :: others ∧ isLink link = true) := by
  rcases hr with rfl | ⟨connective, t, rfl⟩
  . exact ⟨[], by simp, .inl rfl⟩
  . have hword := isWord_sql_connective connective
    refine ⟨connective.sql :: blocks t, ?_, .inr ⟨_, _, rfl, isLink_sql connective⟩⟩
    rw [show s ++ (" " ++ connective.sql ++ " " ++ t) = s ++ " " ++ (connective.sql ++ " " ++ t) by
      simp only [String.append_assoc]]
    rw [blocks_blank hs, blocks_blank hword.closed, hword.blocks]
    rfl

theorem IsPhrase.eq_of_append_eq {s s' rest rest' : String} (hs : IsPhrase s) (hs' : IsPhrase s')
    (hr : Follows rest) (hr' : Follows rest') (h : s ++ rest = s' ++ rest') :
    s = s' ∧ rest = rest' := by
  obtain ⟨behind, hb, hlink⟩ := hr.blocks_append hs.closed
  obtain ⟨behind', hb', hlink'⟩ := hr'.blocks_append hs'.closed
  have hblocks : blocks s ++ behind = blocks s' ++ behind' := by rw [← hb, h, hb']
  have hlength : (blocks s).length = (blocks s').length := by
    rw [← hs.length behind hlink, hblocks, hs'.length behind' hlink']
  have he : s = s' := blocks_inj (List.append_inj_left hblocks hlength)
  subst he
  exact ⟨rfl, String.append_right_inj s |>.1 h⟩

theorem isPhrase_block {s : String} (hc : Closed s.toList) (hb : blocks s = [s]) :
    IsPhrase s where
  closed := hc
  length := by
    rintro rest (rfl | ⟨link, others, rfl, hl⟩)
    . rw [hb]
      rfl
    . rw [hb]
      simp [phraseLength, hl]

theorem isPhrase_of_blocks {s : String} {found : List String} (hc : Closed s.toList)
    (hb : blocks s = found) (hl : ∀ rest, phraseLength (found ++ rest) = found.length) :
    IsPhrase s where
  closed := hc
  length rest _ := by rw [hb, hl]

end Text

open Text

namespace Operator

variable {op : Operator} {field right : String}

theorem blocks_applied (op : Operator) (hf : IsWord field) (right : String) :
    blocks (op.applied field right) = field :: (blocks op.sql ++ blocks right) := by
  unfold applied
  rw [blocks_blank (op.closed_field hf.closed), blocks_blank hf.closed, hf.blocks]
  rfl

theorem isPhrase_applied
    (ho : op.family = .compare ∨ op.family = .time ∨ op.family = .like ∨ op.family = .oneOf)
    (hf : IsWord field) (hc : Closed right.toList) (hb : blocks right = [right]) :
    IsPhrase (op.applied field right) := by
  apply isPhrase_of_blocks (op.closed_applied hf.closed hc) (op.blocks_applied hf right)
  rw [hb]
  intro rest
  cases op <;> first | rfl | simp [family] at ho

theorem isPhrase_range (ho : op.family = .between ∨ op.family = .betweenTime)
    (hf : IsWord field) {low high : String} (hl : IsWord low) (hh : IsWord high) :
    IsPhrase (op.applied field (low ++ " AND " ++ high)) := by
  have hand : IsWord "AND" := .of_all (by decide)
  have hsplit : low ++ " AND " ++ high = low ++ " " ++ ("AND" ++ " " ++ high) := by
    rw [show " AND " = " " ++ ("AND" ++ " ") from rfl]
    simp only [String.append_assoc]
  have hc : Closed (low ++ " AND " ++ high).toList := by
    simp only [String.toList_append]
    exact (hl.closed.append (.of_all (by decide))).append hh.closed
  have hb : blocks (low ++ " AND " ++ high) = [low, "AND", high] := by
    rw [hsplit, blocks_blank hl.closed, blocks_blank hand.closed, hl.blocks, hand.blocks, hh.blocks]
    rfl
  apply isPhrase_of_blocks (op.closed_applied hf.closed hc) (op.blocks_applied hf _)
  rw [hb]
  intro rest
  cases op <;> first | rfl | simp [family] at ho

theorem isPhrase_nullity (ho : op.family = .isNull) (hf : IsWord field) :
    IsPhrase (field ++ " " ++ op.sql) := by
  have hb : blocks (field ++ " " ++ op.sql) = field :: blocks op.sql := by
    rw [blocks_blank hf.closed, hf.blocks]
    rfl
  apply isPhrase_of_blocks (op.closed_field hf.closed) hb
  intro rest
  cases op <;> first | rfl | cases ho

theorem isPhrase_existing (ho : op.family = .existing) (hc : Closed right.toList)
    (hb : blocks right = [right]) (hh : right.toList.head? = some '(') :
    IsPhrase (op.sql ++ " " ++ right) := by
  have hclosed : Closed (op.sql ++ " " ++ right).toList := by
    simp only [String.toList_append]
    exact (op.closed_sql.append (.blank .nil)).append hc
  have hlink : isLink right = false := by
    simp only [isLink, Bool.or_eq_false_iff, beq_eq_false_iff_ne]
    refine ⟨⟨?_, ?_⟩, ?_⟩ <;>
    . rintro rfl
      cases hh
  apply isPhrase_of_blocks hclosed (blocks_blank op.closed_sql right)
  rw [hb]
  intro rest
  have hop : op = .existing ∨ op = .notExisting := by
    cases op <;> simp [family] at ho ⊢
  rcases hop with rfl | rfl
  . change phraseLength ("EXISTS" :: right :: rest) = 2
    simp [phraseLength, hlink, hh]
  . rfl

end Operator

theorem Connective.link_inj {connective connective' : Connective} {s t : String}
    (h : " " ++ connective.sql ++ " " ++ s = " " ++ connective'.sql ++ " " ++ t) :
    connective = connective' ∧ s = t := by
  rw [← String.toList_inj] at h ⊢
  cases connective <;> cases connective' <;> simp_all [sql]

namespace Text

theorem blocks_grouped {s : String} (h : Closed s.toList) :
    blocks ("( " ++ s ++ " )") = ["( " ++ s ++ " )"] := by
  rw [grouped_eq]
  exact blocks_parenthesized (closed_spaced h)

theorem isPhrase_grouped {s : String} (h : Closed s.toList) : IsPhrase ("( " ++ s ++ " )") :=
  isPhrase_block (closed_grouped h) (blocks_grouped h)

def BeginsGroup (s : String) : Prop :=
  ['(', ' '] <+: s.toList

structure IsLeaf (s : String) : Prop where
  phrase : IsPhrase s
  notEmpty : s ≠ ""
  notGroup : ¬ BeginsGroup s

def BeginsSolid (s : String) : Prop :=
  ∃ c cs, s.toList = c :: cs ∧ c ≠ ' ' ∧ c ≠ '('

namespace BeginsSolid

variable {s : String}

theorem append (h : BeginsSolid s) (t : String) : BeginsSolid (s ++ t) := by
  obtain ⟨c, cs, hs, hc⟩ := h
  exact ⟨c, cs ++ t.toList, by rw [String.toList_append, hs, List.cons_append], hc⟩

theorem not_beginsGroup (h : BeginsSolid s) : ¬ BeginsGroup s := by
  obtain ⟨c, cs, hs, _, hc⟩ := h
  unfold BeginsGroup
  rw [hs, List.cons_prefix_cons]
  exact fun hp => hc hp.1.symm

theorem not_beginsGroup_parenthesis (h : BeginsSolid s) : ¬ BeginsGroup ("(" ++ s) := by
  obtain ⟨c, cs, hs, hc, _⟩ := h
  unfold BeginsGroup
  rw [String.toList_append, hs]
  rintro ⟨rest, he⟩
  simp only [String.reduceToList, List.cons_append, List.nil_append, List.cons.injEq] at he
  exact hc he.2.1.symm

theorem isLeaf (h : BeginsSolid s) (hs : IsPhrase s) : IsLeaf s where
  phrase := hs
  notEmpty he := by
    obtain ⟨c, cs, hs, _⟩ := h
    rw [he] at hs
    cases hs
  notGroup := h.not_beginsGroup

end BeginsSolid

theorem IsWord.beginsSolid {s : String} (hw : IsWord s) (hne : s ≠ "") : BeginsSolid s := by
  obtain ⟨c, cs, hs⟩ := List.exists_cons_of_ne_nil (fun he => hne (String.toList_eq_nil_iff.1 he))
  have hc := hw c (by simp [hs])
  refine ⟨c, cs, hs, hc.1, ?_⟩
  rintro rfl
  cases hc.2

theorem IsWord.isLeaf {s : String} (hw : IsWord s) (hne : s ≠ "") : IsLeaf s :=
  (hw.beginsSolid hne).isLeaf (isPhrase_block hw.closed hw.blocks)

end Text

end SqlFilter
