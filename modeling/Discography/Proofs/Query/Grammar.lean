import Discography.Query.Build
import Mathlib.Computability.Language
import Mathlib.Order.CompletePartialOrder

/-!
# The grammar of calls

The calls on a query, without their arguments, are words. The grammar of these words is that of the
clauses of a statement: joins, each with its condition and additions to it, then a filter with
additions, then whatever shapes the rows. A further term of an order needs a first one that no
projection has dropped.

A query knows of the calls so far its stage and whether there is an order. These two decide which
calls may come next, and the words that they admit are the prefixes of the words of the grammar.

## Main definitions

* `Verb`, `Step.verb`: calls without their arguments
* `documented`, `Legal`: the grammar, and the prefixes of its words
* `Phase`, `Phase.next?`, `Phase.follow`: what a query knows of the calls so far

## Main results

* `Phase.Describes`: what a phase tells about the calls so far
* `exists_follow_iff_legal`: the calls that phases admit are those of the grammar
-/

namespace Discography.Query

open scoped Computability

/-- A call without its arguments. -/
inductive Verb where
  | join
  | joinOn
  | and
  | or
  | restrict
  | select
  | orderBy
  | thenBy
  | limit
  | offset
  | paginate
  deriving DecidableEq

/-- The call without its arguments. -/
def Step.verb : Step → Verb
  | .restrict _ => .restrict
  | .joinOn _ => .joinOn
  | .and _ => .and
  | .or _ => .or
  | .join _ _ => .join
  | .select _ => .select
  | .orderBy _ => .orderBy
  | .thenBy _ => .thenBy
  | .take _ => .limit
  | .skip _ => .offset
  | .paginate _ => .paginate

/-! ### The grammar -/

/-- The words of one call. -/
def oneOf (verbs : List Verb) : Language Verb := {w | ∃ v ∈ verbs, w = [v]}

/-- Additions to a condition. -/
def additions : Language Verb := (oneOf [.and, .or])∗

/-- A join with its condition. -/
def joinClause : Language Verb := oneOf [.join] * oneOf [.joinOn] * additions

/-- A filter. -/
def filterClause : Language Verb := oneOf [.restrict] * additions

/-- The calls that shape the rows. -/
def shapingVerbs : List Verb := [.select, .orderBy, .thenBy, .limit, .offset, .paginate]

/-- Joins, then perhaps a filter, then shaping. -/
def documented : Language Verb := joinClause∗ * (1 + filterClause) * (oneOf shapingVerbs)∗

/-- The calls leave an order: no projection comes after it was started. -/
def HasOrder (w : List Verb) : Prop :=
  ∃ before behind, w = before ++ .orderBy :: behind ∧ .select ∉ behind

/-- Each further term of an order finds one. -/
def Ordered (w : List Verb) : Prop :=
  ∀ before behind, w = before ++ .thenBy :: behind → HasOrder before

/-- The calls are the first ones of a word of the grammar. -/
def Legal (w : List Verb) : Prop := ∃ word, w <+: word ∧ word ∈ documented ∧ Ordered word

section Words

variable {v : Verb} {verbs w : List Verb} {l : Language Verb}

theorem mem_oneOf (h : v ∈ verbs) : [v] ∈ oneOf verbs := ⟨v, h, rfl⟩

theorem mem_kstar_oneOf : w ∈ (oneOf verbs)∗ ↔ ∀ v ∈ w, v ∈ verbs := by
  rw [Language.mem_kstar]
  constructor
  · rintro ⟨words, rfl, hwords⟩ v hv
    obtain ⟨word, hword, hv⟩ := List.mem_flatten.mp hv
    obtain ⟨v', hv', rfl⟩ := hwords word hword
    obtain rfl := List.mem_singleton.mp hv
    exact hv'
  · intro h
    refine ⟨w.map fun v => [v], by rw [← List.flatMap_def, List.flatMap_singleton'], ?_⟩
    intro word hword
    obtain ⟨v, hv, rfl⟩ := List.mem_map.mp hword
    exact mem_oneOf (h v hv)

theorem mem_mul_oneOf (hw : w ∈ l) (h : v ∈ verbs) : w ++ [v] ∈ l * oneOf verbs :=
  Language.append_mem_mul hw (mem_oneOf h)

theorem not_hasOrder_nil : ¬ HasOrder [] := by
  rintro ⟨before, behind, h, -⟩
  simp at h

theorem hasOrder_concat : HasOrder (w ++ [v]) ↔ v = .orderBy ∨ v ≠ .select ∧ HasOrder w := by
  constructor
  · rintro ⟨before, behind, h, hselect⟩
    rcases List.eq_nil_or_concat' behind with rfl | ⟨behind, last, rfl⟩
    · obtain ⟨-, hv⟩ := List.append_inj' h rfl
      exact .inl (List.singleton_inj.mp hv)
    · rw [← List.cons_append, ← List.append_assoc] at h
      obtain ⟨rfl, hv⟩ := List.append_inj' h rfl
      obtain rfl := List.singleton_inj.mp hv
      simp only [List.mem_append, List.mem_singleton, not_or] at hselect
      exact .inr ⟨Ne.symm hselect.2, before, behind, rfl, hselect.1⟩
  · rintro (rfl | ⟨hv, before, behind, rfl, hselect⟩)
    · exact ⟨w, [], rfl, by simp⟩
    · exact ⟨before, behind ++ [v], by simp, by simp [hselect, hv.symm]⟩

theorem ordered_nil : Ordered [] := by
  intro before behind h
  simp at h

theorem ordered_concat : Ordered (w ++ [v]) ↔ Ordered w ∧ (v = .thenBy → HasOrder w) := by
  constructor
  · intro h
    refine ⟨fun before behind hw => h before (behind ++ [v]) (by simp [hw]), ?_⟩
    rintro rfl
    exact h w [] rfl
  · rintro ⟨hw, hv⟩ before behind h
    rcases List.eq_nil_or_concat' behind with rfl | ⟨behind, last, rfl⟩
    · obtain ⟨rfl, hlast⟩ := List.append_inj' h rfl
      exact hv (List.singleton_inj.mp hlast)
    · rw [← List.cons_append, ← List.append_assoc] at h
      exact hw before behind (List.append_inj' h rfl).1

end Words

/-! ### Phases -/

/-- What a query knows of the calls so far: its stage, and whether there is an order. -/
structure Phase where
  stage : Stage
  ordered : Bool
  deriving DecidableEq

namespace Phase

/-- Nothing was called yet. -/
def start : Phase := ⟨.rooted, false⟩

/-- The phase after a call, if it is legal. -/
def next? (p : Phase) : Verb → Option Phase
  | .restrict =>
    if p.stage = .rooted ∨ p.stage = .joinFiltered then some { p with stage := .whereFiltered }
    else none
  | .joinOn => if p.stage = .joining then some { p with stage := .joinFiltered } else none
  | .and | .or => if p.stage = .whereFiltered ∨ p.stage = .joinFiltered then some p else none
  | .join =>
    if p.stage = .rooted ∨ p.stage = .joinFiltered then some { p with stage := .joining } else none
  | .select => if p.stage ≠ .joining then some ⟨.shaping, false⟩ else none
  | .orderBy => if p.stage ≠ .joining then some ⟨.shaping, true⟩ else none
  | .thenBy => if p.ordered then some p else none
  | .limit | .offset | .paginate =>
    if p.stage ≠ .joining then some { p with stage := .shaping } else none

/-- The phase after several calls, if they are legal. -/
def follow (p : Phase) (w : List Verb) : Option Phase := w.foldlM next? p

variable {p p' : Phase} {v : Verb} {w w' : List Verb}

theorem follow_cons : p.follow (v :: w) = (p.next? v).bind fun p' => p'.follow w := by
  simp [follow, Option.bind_eq_bind]

theorem follow_append : p.follow (w ++ w') = (p.follow w).bind fun p' => p'.follow w' := by
  simp [follow, Option.bind_eq_bind]

theorem follow_concat : p.follow (w ++ [v]) = (p.follow w).bind fun p' => p'.next? v := by
  rw [follow_append]
  congr 1
  funext p'
  simp [follow]

/-! ### What a phase tells about the calls so far -/

/-- The calls that lead to a stage. -/
def words : Stage → Language Verb
  | .rooted => 1
  | .joining => joinClause∗ * oneOf [.join]
  | .joinFiltered => joinClause∗ * joinClause
  | .whereFiltered => joinClause∗ * filterClause
  | .shaping => documented

/-- What a phase tells about the calls so far. -/
structure Describes (p : Phase) (w : List Verb) : Prop where
  mem_words : w ∈ words p.stage
  ordered_iff : p.ordered ↔ HasOrder w
  ordered : Ordered w
  shaping_of_ordered : p.ordered → p.stage = .shaping
  rooted_iff : p.stage = .rooted ↔ w = []
  joining_iff : p.stage = .joining ↔ w.getLast? = some .join
  shaping_iff : p.stage = .shaping ↔ ∃ v ∈ w, v ∈ shapingVerbs

theorem describes_start : start.Describes [] where
  mem_words := Language.nil_mem_one
  ordered_iff := by simp [start, not_hasOrder_nil]
  ordered := ordered_nil
  shaping_of_ordered := by simp [start]
  rooted_iff := by simp [start]
  joining_iff := by simp [start]
  shaping_iff := by simp [start]

/-- Before a join there is nothing, or a join with its condition. -/
theorem words_le_joinClauses {s : Stage} (h : s = .rooted ∨ s = .joinFiltered) :
    words s ≤ joinClause∗ := by
  rcases h with rfl | rfl
  · exact one_le_kstar
  · exact kstar_mul_le_kstar

/-- What may be shaped is a word of the grammar. -/
theorem words_le_documented {s : Stage} (h : s ≠ .joining) : words s ≤ documented := by
  have hshaping : ∀ l : Language Verb, l ≤ l * (oneOf shapingVerbs)∗ := fun l => by
    calc l = l * 1 := (mul_one l).symm
      _ ≤ l * (oneOf shapingVerbs)∗ := mul_le_mul_right one_le_kstar l
  cases s with
  | joining => exact absurd rfl h
  | shaping => exact le_rfl
  | whereFiltered =>
    calc joinClause∗ * filterClause ≤ joinClause∗ * (1 + filterClause) := by
          gcongr
          exact le_add_left le_rfl
      _ ≤ documented := hshaping _
  | rooted | joinFiltered =>
    calc words _ ≤ joinClause∗ := words_le_joinClauses (by simp)
      _ = joinClause∗ * 1 := (mul_one _).symm
      _ ≤ joinClause∗ * (1 + filterClause) := by
          gcongr
          exact le_add_right le_rfl
      _ ≤ documented := hshaping _

theorem concat_mem_documented {s : Stage} (hs : s ≠ .joining) (hw : w ∈ words s)
    (hv : v ∈ shapingVerbs) : w ++ [v] ∈ documented := by
  have hmul : documented * oneOf shapingVerbs ≤ documented := by
    rw [documented, mul_assoc]
    gcongr
    exact kstar_mul_le_kstar
  exact hmul (mem_mul_oneOf (words_le_documented hs hw) hv)

/-- What a legal call does to the phase. -/
structure Follows (p p' : Phase) (v : Verb) : Prop where
  stage_ne_rooted : p'.stage ≠ .rooted
  joining_iff : p'.stage = .joining ↔ v = .join
  shaping_iff : p'.stage = .shaping ↔ p.stage = .shaping ∨ v ∈ shapingVerbs
  ordered_iff : p'.ordered ↔ v = .orderBy ∨ v ≠ .select ∧ p.ordered
  ordered_of_thenBy : v = .thenBy → p.ordered

theorem follows_of_next? (hp : p.ordered → p.stage = .shaping) (h : p.next? v = some p') :
    p.Follows p' v := by
  cases v with
  | restrict | join =>
    obtain ⟨hstage, hp'⟩ := Option.ite_none_right_eq_some.mp h
    obtain rfl := Option.some.inj hp'
    rcases hstage with hstage | hstage <;> constructor <;> simp [hstage, shapingVerbs]
  | joinOn =>
    obtain ⟨hstage, hp'⟩ := Option.ite_none_right_eq_some.mp h
    obtain rfl := Option.some.inj hp'
    constructor <;> simp [hstage, shapingVerbs]
  | and | or =>
    obtain ⟨hstage, hp'⟩ := Option.ite_none_right_eq_some.mp h
    obtain rfl := Option.some.inj hp'
    rcases hstage with hstage | hstage <;> constructor <;> simp [hstage, shapingVerbs]
  | thenBy =>
    obtain ⟨hordered, hp'⟩ := Option.ite_none_right_eq_some.mp h
    obtain rfl := Option.some.inj hp'
    constructor <;> simp [hordered, hp hordered, shapingVerbs]
  | select | orderBy | limit | offset | paginate =>
    obtain ⟨hstage, hp'⟩ := Option.ite_none_right_eq_some.mp h
    obtain rfl := Option.some.inj hp'
    constructor <;> simp [shapingVerbs]

theorem concat_mem_words (hw : w ∈ words p.stage) (hp : p.ordered → p.stage = .shaping)
    (h : p.next? v = some p') : w ++ [v] ∈ words p'.stage := by
  cases v with
  | restrict =>
    obtain ⟨hstage, hp'⟩ := Option.ite_none_right_eq_some.mp h
    obtain rfl := Option.some.inj hp'
    exact Language.append_mem_mul (words_le_joinClauses hstage hw)
      (Language.append_mem_mul (mem_oneOf (by simp)) (Language.nil_mem_kstar _))
  | join =>
    obtain ⟨hstage, hp'⟩ := Option.ite_none_right_eq_some.mp h
    obtain rfl := Option.some.inj hp'
    exact mem_mul_oneOf (words_le_joinClauses hstage hw) (by simp)
  | joinOn =>
    obtain ⟨hstage, hp'⟩ := Option.ite_none_right_eq_some.mp h
    obtain rfl := Option.some.inj hp'
    rw [hstage] at hw
    have hon : w ++ [.joinOn] ++ [] ∈ joinClause∗ * oneOf [.join] * oneOf [.joinOn] * additions :=
      Language.append_mem_mul (mem_mul_oneOf hw (by simp)) (Language.nil_mem_kstar _)
    rw [List.append_nil] at hon
    simpa only [words, joinClause, mul_assoc] using hon
  | and | or =>
    obtain ⟨hstage, hp'⟩ := Option.ite_none_right_eq_some.mp h
    obtain rfl := Option.some.inj hp'
    -- additions end both clauses that may be added to
    have hadd : additions * oneOf [.and, .or] ≤ additions := kstar_mul_le_kstar
    have hmul : words p.stage * oneOf [.and, .or] ≤ words p.stage := by
      rcases hstage with hstage | hstage <;> rw [hstage] <;>
        simp only [words, filterClause, joinClause, mul_assoc] <;> gcongr
    exact hmul (mem_mul_oneOf hw (by simp))
  | thenBy =>
    obtain ⟨hordered, hp'⟩ := Option.ite_none_right_eq_some.mp h
    obtain rfl := Option.some.inj hp'
    have hstage := hp hordered
    have hword := concat_mem_documented (by simp [hstage]) hw (v := .thenBy)
      (by simp [shapingVerbs])
    rwa [hstage]
  | select | orderBy | limit | offset | paginate =>
    obtain ⟨hstage, hp'⟩ := Option.ite_none_right_eq_some.mp h
    obtain rfl := Option.some.inj hp'
    exact concat_mem_documented hstage hw (by simp [shapingVerbs])

/-- One call preserves the description. -/
theorem Describes.next? (hw : p.Describes w) (h : p.next? v = some p') :
    p'.Describes (w ++ [v]) := by
  have hnext := follows_of_next? hw.shaping_of_ordered h
  constructor
  · exact concat_mem_words hw.mem_words hw.shaping_of_ordered h
  · rw [hnext.ordered_iff, hasOrder_concat, hw.ordered_iff]
  · exact ordered_concat.mpr ⟨hw.ordered, fun hv => hw.ordered_iff.mp (hnext.ordered_of_thenBy hv)⟩
  · intro hordered
    rw [hnext.shaping_iff]
    rcases hnext.ordered_iff.mp hordered with rfl | ⟨-, hp⟩
    · exact .inr (by simp [shapingVerbs])
    · exact .inl (hw.shaping_of_ordered hp)
  · simp [hnext.stage_ne_rooted]
  · simp [hnext.joining_iff]
  · rw [hnext.shaping_iff, hw.shaping_iff]
    simp [or_and_right, exists_or]

/-- Legal calls lead to a phase that describes them. -/
theorem describes_of_follow : ∀ {w : List Verb} {p : Phase}, start.follow w = some p →
    p.Describes w := by
  intro w
  induction w using List.reverseRecOn with
  | nil =>
    intro p h
    obtain rfl := Option.some.inj h
    exact describes_start
  | append_singleton w v ih =>
    intro p h
    rw [follow_concat] at h
    obtain ⟨p', hp', hnext⟩ := Option.bind_eq_some_iff.mp h
    exact (ih hp').next? hnext

/-! ### Words of the grammar -/

theorem follow_additions (hp : p.stage = .whereFiltered ∨ p.stage = .joinFiltered)
    (hw : w ∈ additions) : p.follow w = some p := by
  have hverbs := mem_kstar_oneOf.mp hw
  clear hw
  induction w using List.reverseRecOn with
  | nil => rfl
  | append_singleton w v ih =>
    obtain ⟨hverbs, hv⟩ := List.forall_mem_append.mp hverbs
    rw [follow_concat, ih hverbs, Option.bind_some]
    have hnext : ∀ u ∈ [Verb.and, .or], p.next? u = some p := by simp [Phase.next?, hp]
    exact hnext v (hv v (by simp))

theorem follow_joinClause (hp : p.stage = .rooted ∨ p.stage = .joinFiltered)
    (hw : w ∈ joinClause) : p.follow w = some { p with stage := .joinFiltered } := by
  obtain ⟨front, hfront, adds, hadds, rfl⟩ := Language.mem_mul.mp hw
  obtain ⟨_, ⟨v, hv, rfl⟩, _, ⟨u, hu, rfl⟩, rfl⟩ := Language.mem_mul.mp hfront
  obtain rfl := List.mem_singleton.mp hv
  obtain rfl := List.mem_singleton.mp hu
  have hpair : p.follow [.join, .joinOn] = some { p with stage := .joinFiltered } := by
    simp [follow, Phase.next?, hp]
  rw [follow_append]
  change (p.follow [.join, .joinOn]).bind _ = _
  rw [hpair, Option.bind_some, follow_additions (.inr rfl) hadds]

theorem follow_joinClauses (hp : p.stage = .rooted ∨ p.stage = .joinFiltered)
    (hw : w ∈ joinClause∗) :
    ∃ p', p.follow w = some p' ∧ (p'.stage = .rooted ∨ p'.stage = .joinFiltered) := by
  obtain ⟨clauses, rfl, hclauses⟩ := Language.mem_kstar.mp hw
  clear hw
  induction clauses generalizing p with
  | nil => exact ⟨p, rfl, hp⟩
  | cons clause clauses ih =>
    obtain ⟨hclause, hclauses⟩ := List.forall_mem_cons.mp hclauses
    rw [List.flatten_cons, follow_append, follow_joinClause hp hclause, Option.bind_some]
    exact ih (.inr rfl) hclauses

theorem follow_filterClause (hp : p.stage = .rooted ∨ p.stage = .joinFiltered)
    (hw : w ∈ filterClause) : p.follow w = some { p with stage := .whereFiltered } := by
  obtain ⟨_, ⟨v, hv, rfl⟩, adds, hadds, rfl⟩ := Language.mem_mul.mp hw
  obtain rfl := List.mem_singleton.mp hv
  have hfilter : p.follow [.restrict] = some { p with stage := .whereFiltered } := by
    simp [follow, Phase.next?, hp]
  rw [follow_append, hfilter, Option.bind_some, follow_additions (.inl rfl) hadds]

/-- Shaping is legal behind everything but a join without a condition, as long as further terms
find an order. -/
theorem follow_shaping (hw : start.follow w = some p) (hp : p.stage ≠ .joining)
    (hshaping : ∀ v ∈ w', v ∈ shapingVerbs) (hordered : Ordered (w ++ w')) :
    ∃ p', start.follow (w ++ w') = some p' ∧ p'.stage ≠ .joining := by
  induction w' using List.reverseRecOn with
  | nil => exact ⟨p, by rwa [List.append_nil], hp⟩
  | append_singleton w' v ih =>
    obtain ⟨hshaping, hv⟩ := List.forall_mem_append.mp hshaping
    rw [← List.append_assoc] at hordered ⊢
    obtain ⟨hordered, hthen⟩ := ordered_concat.mp hordered
    obtain ⟨p', hp', hstage⟩ := ih hshaping hordered
    have hdescribes := describes_of_follow hp'
    rw [follow_concat, hp', Option.bind_some]
    have hmem := hv v (by simp)
    simp only [shapingVerbs, List.mem_cons, List.not_mem_nil, or_false] at hmem
    rcases hmem with rfl | rfl | rfl | rfl | rfl | rfl
    · exact ⟨_, if_pos hstage, nofun⟩
    · exact ⟨_, if_pos hstage, nofun⟩
    · exact ⟨_, if_pos (hdescribes.ordered_iff.mpr (hthen rfl)), hstage⟩
    · exact ⟨_, if_pos hstage, nofun⟩
    · exact ⟨_, if_pos hstage, nofun⟩
    · exact ⟨_, if_pos hstage, nofun⟩

theorem exists_follow_of_mem_documented (hw : w ∈ documented) (hordered : Ordered w) :
    ∃ p, start.follow w = some p := by
  obtain ⟨front, hfront, shaping, hshaping, rfl⟩ := Language.mem_mul.mp hw
  obtain ⟨joins, hjoins, filter, hfilter, rfl⟩ := Language.mem_mul.mp hfront
  obtain ⟨p, hp, hstage⟩ := follow_joinClauses (p := start) (.inl rfl) hjoins
  obtain ⟨p', hp', hstage'⟩ : ∃ p', start.follow (joins ++ filter) = some p' ∧
      p'.stage ≠ .joining := by
    rw [follow_append, hp, Option.bind_some]
    rcases (Language.mem_add _ _ _).mp hfilter with hnone | hfilter
    · obtain rfl := (Language.mem_one _).mp hnone
      refine ⟨p, rfl, ?_⟩
      rcases hstage with hstage | hstage <;> simp [hstage]
    · exact ⟨_, follow_filterClause hstage hfilter, nofun⟩
  obtain ⟨p'', hp'', -⟩ := follow_shaping hp' hstage' (mem_kstar_oneOf.mp hshaping) hordered
  exact ⟨p'', hp''⟩

/-- The calls that phases admit are those of the grammar. -/
theorem exists_follow_iff_legal : (∃ p, start.follow w = some p) ↔ Legal w := by
  constructor
  · rintro ⟨p, hp⟩
    have hw := describes_of_follow hp
    by_cases hstage : p.stage = .joining
    · -- a join that waits for its condition can get one
      have hon := hw.next? (v := .joinOn) (if_pos hstage)
      have hword := words_le_documented (s := .joinFiltered) nofun hon.mem_words
      exact ⟨_, List.prefix_append w [.joinOn], hword, hon.ordered⟩
    · exact ⟨w, List.prefix_rfl, words_le_documented hstage hw.mem_words, hw.ordered⟩
  · rintro ⟨word, ⟨behind, rfl⟩, hword, hordered⟩
    obtain ⟨p, hp⟩ := exists_follow_of_mem_documented hword hordered
    rw [follow_append] at hp
    obtain ⟨p', hp', -⟩ := Option.bind_eq_some_iff.mp hp
    exact ⟨p', hp'⟩

/-! ### What the calls so far amount to -/

theorem join_mem_of_mem_joinClause (hw : w ∈ joinClause) : .join ∈ w := by
  obtain ⟨_, hfront, adds, -, rfl⟩ := Language.mem_mul.mp hw
  obtain ⟨_, ⟨v, hv, rfl⟩, on, -, rfl⟩ := Language.mem_mul.mp hfront
  obtain rfl := List.mem_singleton.mp hv
  simp

theorem eq_nil_of_mem_joinClauses (hw : w ∈ joinClause∗) (hjoin : .join ∉ w) : w = [] := by
  obtain ⟨clauses, rfl, hclauses⟩ := Language.mem_kstar.mp hw
  cases clauses with
  | nil => rfl
  | cons clause clauses =>
    have hmem := join_mem_of_mem_joinClause (hclauses clause (by simp))
    exact absurd (List.mem_flatten.mpr ⟨clause, by simp, hmem⟩) hjoin

theorem join_notMem_of_mem_filterClause (hw : w ∈ filterClause) : .join ∉ w := by
  obtain ⟨_, ⟨v, hv, rfl⟩, adds, hadds, rfl⟩ := Language.mem_mul.mp hw
  obtain rfl := List.mem_singleton.mp hv
  intro hmem
  rcases List.mem_append.mp hmem with hmem | hmem
  · simp at hmem
  · simpa using mem_kstar_oneOf.mp hadds _ hmem

end Phase

/-- The last call is a join, which has no condition yet. -/
def EndsInJoin (w : List Verb) : Prop := w.getLast? = some .join

/-- There is at most a filter. -/
def FilterOnly (w : List Verb) : Prop := w = [] ∨ w ∈ filterClause

/-- There are joins, all with a condition, and nothing shapes the rows. -/
def JoinsUnshaped (w : List Verb) : Prop :=
  .join ∈ w ∧ ¬ EndsInJoin w ∧ ∀ v ∈ w, v ∉ shapingVerbs

namespace Phase

theorem joinsUnshaped_iff (hw : start.follow w = some p) :
    JoinsUnshaped w ↔ p.stage ≠ .joining ∧ p.stage ≠ .shaping ∧ .join ∈ w := by
  have hdescribes := describes_of_follow hw
  rw [ne_eq, ne_eq, hdescribes.joining_iff, hdescribes.shaping_iff, JoinsUnshaped, EndsInJoin]
  simp only [not_exists, not_and]
  exact ⟨fun ⟨hjoin, hend, hshape⟩ => ⟨hend, hshape, hjoin⟩,
    fun ⟨hend, hshape, hjoin⟩ => ⟨hjoin, hend, hshape⟩⟩

theorem filterOnly_iff (hw : start.follow w = some p) :
    FilterOnly w ↔ p.stage ≠ .joining ∧ p.stage ≠ .shaping ∧ .join ∉ w := by
  have hdescribes := describes_of_follow hw
  constructor
  · rintro (rfl | hfilter)
    · obtain rfl := Option.some.inj hw
      simp [start]
    · rw [follow_filterClause (p := start) (.inl rfl) hfilter] at hw
      obtain rfl := Option.some.inj hw
      exact ⟨nofun, nofun, join_notMem_of_mem_filterClause hfilter⟩
  · rintro ⟨hjoining, hshaping, hjoin⟩
    have hmem := hdescribes.mem_words
    cases hstage : p.stage with
    | rooted => exact .inl (hdescribes.rooted_iff.mp hstage)
    | joining => exact absurd hstage hjoining
    | shaping => exact absurd hstage hshaping
    | joinFiltered =>
      rw [hstage] at hmem
      obtain ⟨clauses, -, clause, hclause, rfl⟩ := Language.mem_mul.mp hmem
      exact absurd (List.mem_append_right _ (join_mem_of_mem_joinClause hclause)) hjoin
    | whereFiltered =>
      rw [hstage] at hmem
      obtain ⟨clauses, hclauses, filter, hfilter, rfl⟩ := Language.mem_mul.mp hmem
      rw [eq_nil_of_mem_joinClauses hclauses fun h => hjoin (List.mem_append_left _ h)]
      exact .inr hfilter

end Phase

end Discography.Query
