import SqlFilter.Proofs.AliasOrder
import SqlFilter.Proofs.DecodedConditions
import SqlFilter.Proofs.FreshDraft
import SqlFilter.Proofs.JsonForm

/-!
This module contains the texts in JSON that may spell a placeholder. A value without a text that
begins with a colon is decoded to a condition that has none either, unless decoding cuts one out of
another text: the only bound of a range that is written with a comma.
-/

namespace SqlFilter

namespace Json

mutual

def hasColonText : Json → Bool
  | .string s => s.toList.head? == some ':'
  | .array items => anyColonText items
  | .object members => memberColonText members
  | _ => false

def anyColonText : List Json → Bool
  | [] => false
  | item :: items => item.hasColonText || anyColonText items

def memberColonText : List (String × Json) → Bool
  | [] => false
  | (_, value) :: members => value.hasColonText || memberColonText members

end

theorem hasColonText_item {items : List Json} (h : (Json.array items).hasColonText = false) :
    ∀ item ∈ items, item.hasColonText = false := by
  rw [hasColonText] at h
  induction items with
  | nil => simp
  | cons item items ih =>
    rw [anyColonText, Bool.or_eq_false_iff] at h
    exact List.forall_mem_cons.2 ⟨h.1, ih h.2⟩

theorem hasColonText_member {name : String} {value member : Json}
    (h : value.hasColonText = false) (hm : value.member? name = some member) :
    member.hasColonText = false := by
  unfold member? at hm
  split at hm
  . next members =>
    rw [hasColonText] at h
    induction members with
    | nil => cases hm
    | cons entry members ih =>
      rw [memberColonText, Bool.or_eq_false_iff] at h
      rw [Dictionary.lookup_cons] at hm
      split at hm
      . cases hm
        exact h.1
      . exact ih h.2 hm
  . cases hm

theorem hasColonText_head {rest : List Json} (h : ∀ item ∈ rest, item.hasColonText = false) :
    (rest.head?.getD .null).hasColonText = false := by
  cases rest with
  | nil => rfl
  | cons item rest => exact h item List.mem_cons_self

def pair? : Json → Option (String × Json)
  | .array (.string token :: rest) => some (token, rest.head?.getD .null)
  | _ => none

def pairs (value : Json) : List (String × Json) :=
  match value.pair?, value with
  | some pair, _ => [pair]
  | none, .array items => items.filterMap pair?
  | none, _ => []

end Json

theorem Value.beginsWithColon_ofJson {value : Json} (h : value.hasColonText = false) :
    (Value.ofJson value).beginsWithColon = false := by
  cases value with
  | int n =>
    unfold ofJson
    dsimp only
    split <;> rfl
  | string s => exact h
  | _ => rfl

namespace WhereMap

theorem hasColonText_conditionValues {key : String} {value : Json}
    (h : value.hasColonText = false) :
    ∀ v ∈ conditionValues key value, v.hasColonText = false := by
  unfold conditionValues
  split
  . split
    . exact Json.hasColonText_item h
    . rintro v ⟨⟩
  . split
    . next hm => exact Json.hasColonText_item (Json.hasColonText_member h hm)
    . intro v hv
      rwa [List.mem_singleton.1 hv]

end WhereMap

namespace Compiler

variable {c : Compiler}

/-- Whether an operator and its operand are no range that becomes a comparison with a text that may
spell a placeholder. -/
def boundObeys (c : Compiler) (pair : String × Json) : Bool :=
  match c.operators.resolve? pair.1 with
  | none => true
  | some op =>
    match halfOpenRange op pair.2 with
    | .ok (some (token, .value bound)) => c.noReference.value token bound
    | _ => true

theorem noReference_value {v : Value} (h : v.beginsWithColon = false) (token : String) :
    c.noReference.value token v = true := by
  simp [noReference, h]

theorem obeys_ofJson {operand : Json} (h : operand.hasColonText = false) (token : String) :
    (Operand.ofJson operand).obeys c.noReference token = true := by
  unfold Operand.ofJson
  split
  . next items =>
    have hitems : (items.map Value.ofJson).any Value.beginsWithColon = false := by
      rw [List.any_eq_false]
      intro v hv
      obtain ⟨item, hm, rfl⟩ := List.mem_map.1 hv
      rw [Value.beginsWithColon_ofJson (Json.hasColonText_item h item hm)]
      exact Bool.false_ne_true
    simp [Operand.obeys, noReference, hitems]
  . exact noReference_value (Value.beginsWithColon_ofJson h) token

theorem operandOfJson_obeys {op : Operator} {operand : Json} {pair : OperatorOperand}
    (hv : operand.hasColonText = false)
    (hb : ∀ token bound, halfOpenRange op operand = .ok (some (token, .value bound)) →
      c.noReference.value token bound = true)
    (h : c.operandOfJson op operand = .ok pair) :
    pair.2.obeys c.noReference pair.1 = true := by
  have range (h : rangeOfJson op operand = .ok pair) :
      pair.2.obeys c.noReference pair.1 = true := by
    obtain ⟨bound, hr, h⟩ := bind_eq_ok.1 h
    cases bound with
    | none =>
      cases h
      exact obeys_ofJson hv op.token
    | some pair =>
      cases h
      obtain ⟨token, operand⟩ := pair
      obtain ⟨bound, rfl⟩ := halfOpenRange_form hr
      exact hb token bound hr
  have raw (h : c.rawOperandOfJson op operand = .ok pair) :
      pair.2.obeys c.noReference pair.1 = true := by
    unfold rawOperandOfJson at h
    split at h
    . cases h
    . split at h
      . cases h
        rfl
      . cases h
  unfold operandOfJson at h
  split at h
  . exact raw h
  . exact raw h
  . cases h
    rfl
  . split at h
    . cases h
      rfl
    . cases h
      rfl
    . cases h
    . cases h
  . exact range h
  . exact range h
  . cases h
    exact obeys_ofJson hv op.token

theorem pairOfJson_obeys {token : String} {rest : List Json} {pair : OperatorOperand}
    (hv : ∀ item ∈ rest, item.hasColonText = false)
    (hb : c.boundObeys (token, rest.head?.getD .null) = true)
    (h : c.pairOfJson token rest = .ok pair) : pair.2.obeys c.noReference pair.1 = true := by
  obtain ⟨op, hop, h⟩ := bind_eq_ok.1 h
  apply operandOfJson_obeys (Json.hasColonText_head hv) _ h
  intro before bound hr
  simpa only [boundObeys, OperatorTable.resolve_eq_ok_iff.1 hop, hr] using hb

theorem itemOfJson_obeys {item : Json} {pair : OperatorOperand} (hv : item.hasColonText = false)
    (hb : ∀ pair, item.pair? = some pair → c.boundObeys pair = true)
    (h : c.itemOfJson item = .ok pair) : pair.2.obeys c.noReference pair.1 = true := by
  unfold itemOfJson at h
  split at h
  . have hrest := (List.forall_mem_cons.1 (Json.hasColonText_item hv)).2
    exact pairOfJson_obeys hrest (hb _ rfl) h
  . cases h
  . cases h
  . cases h
    exact noReference_value (Value.beginsWithColon_ofJson hv) _

theorem pairsOfJson_obeys {field : String} {items : List Json} {connective : Connective}
    {pair : OperatorOperand} (hv : ∀ item ∈ items, item.hasColonText = false)
    (hb : ∀ pair ∈ items.filterMap Json.pair?, c.boundObeys pair = true)
    (h : c.pairsOfJson field items connective = .ok pair) :
    pair.2.obeys c.noReference pair.1 = true := by
  unfold pairsOfJson at h
  split at h
  . cases h
  . obtain ⟨pairs, hp, h⟩ := bind_eq_ok.1 h
    cases h
    apply Operand.itemsObey_of_forall
    intro pair hm
    obtain ⟨item, hitem, hpair⟩ := exists_of_mem_mapM hp pair hm
    apply itemOfJson_obeys (hv item hitem) _ hpair
    intro pair hpair
    exact hb pair (List.mem_filterMap.2 ⟨item, hitem, hpair⟩)

theorem itemsOfJson_obeys {field : String} {items : List Json} {pair : OperatorOperand}
    (hv : ∀ item ∈ items, item.hasColonText = false)
    (hb : ∀ pair ∈ items.filterMap Json.pair?, c.boundObeys pair = true)
    (h : c.itemsOfJson field items = .ok pair) : pair.2.obeys c.noReference pair.1 = true := by
  unfold itemsOfJson at h
  dsimp only at h
  split at h
  . -- the text at the end is a connective
    have hsublist := List.dropLast_sublist items
    obtain ⟨connective, _, h⟩ := bind_eq_ok.1 h
    obtain ⟨_, hi, h⟩ := bind_eq_ok.1 h
    cases hi
    apply pairsOfJson_obeys _ _ h
    . exact fun item hm => hv item (hsublist.subset hm)
    . exact fun pair hm => hb pair ((hsublist.filterMap _).subset hm)
  . obtain ⟨_, hi, h⟩ := bind_eq_ok.1 h
    cases hi
    exact pairsOfJson_obeys hv hb h

theorem obeys_of {field token : String} {operand : Operand}
    (h : operand.obeys c.noReference token = true) :
    (Condition.of (.ofName field) token operand).obeys c.noReference = true := by
  have hfield : (FieldRef.ofName field).obeys c.noReference = true := by
    unfold FieldRef.ofName
    split <;> rfl
  rw [Condition.of, Condition.obeys, hfield, h, Bool.and_self]

theorem conditionOfJson_obeys {field : String} {value : Json} {condition : Condition}
    (hv : value.hasColonText = false) (hb : ∀ pair ∈ value.pairs, c.boundObeys pair = true)
    (h : c.conditionOfJson field value = .ok condition) :
    condition.obeys c.noReference = true := by
  unfold conditionOfJson at h
  dsimp only at h
  split at h
  . obtain ⟨_, ho, _⟩ := bind_eq_ok.1 h
    cases ho
  . obtain ⟨pair, ho, h⟩ := bind_eq_ok.1 h
    cases h
    have hrest := (List.forall_mem_cons.1 (Json.hasColonText_item hv)).2
    exact obeys_of (pairOfJson_obeys hrest (hb _ List.mem_cons_self) ho)
  . next items _ hsingle =>
    obtain ⟨pair, ho, h⟩ := bind_eq_ok.1 h
    cases h
    have hpairs : (Json.array items).pairs = items.filterMap Json.pair? := by
      unfold Json.pairs
      have : (Json.array items).pair? = none := by
        unfold Json.pair?
        split
        . next token rest he => exact absurd (Json.array.inj he) (hsingle token rest)
        . rfl
      rw [this]
    rw [hpairs] at hb
    exact obeys_of (itemsOfJson_obeys (Json.hasColonText_item hv) hb ho)
  . obtain ⟨_, ho, _⟩ := bind_eq_ok.1 h
    cases ho
  . obtain ⟨_, ho, h⟩ := bind_eq_ok.1 h
    cases ho
    cases h
    exact obeys_of (noReference_value (Value.beginsWithColon_ofJson hv) _)

end Compiler

end SqlFilter
