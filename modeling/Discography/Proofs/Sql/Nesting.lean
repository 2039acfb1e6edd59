import Discography.Proofs.Sql.Writes

/-!
# Parentheses

The tokens of a statement as trees: what stands in parentheses is grouped, to any depth. Readers of
conditions and of statements take trees level by level. Each computes a result for a tree from the
results for the trees inside it, so no reader has to look for the parenthesis that closes a level.

## Main definitions

* `Nested`: a token, or trees in parentheses
* `Nested.ofTokens`: the trees of a list of tokens
* `Nested.fold`: a result for a tree from the results for the trees inside it
* `Nested.splitCommas`: the groups between commas
* `Nested.list?`: the results for single trees between commas
* `Token.Nests`: tokens that have certain trees wherever they stand
* `Token.ReadsAs`: tokens of a single tree that has a certain result

## Main results

* `Nested.flatten_ofTokens`: the trees have exactly the tokens that they were made from
* `Token.Nests.append`, `Token.Nests.parens`, `Token.Nests.commas`: trees of common constructions
* `Token.exists_list?`: tokens of single trees with commas between them
-/

namespace Discography

/-- A token, or what stands in parentheses. -/
inductive Nested where
  | token (t : Token)
  | parens (inside : List Nested)

namespace Nested

open Token

mutual

/-- The tokens of a tree. -/
def tokens : Nested → List Token
  | .token t => [t]
  | .parens inside => Token.parens (flatten inside)

/-- The tokens of trees that stand one after the other. -/
def flatten : List Nested → List Token
  | [] => []
  | t :: rest => t.tokens ++ flatten rest

end

@[simp] theorem flatten_append (ts us : List Nested) :
    flatten (ts ++ us) = flatten ts ++ flatten us := by
  induction ts with
  | nil => rfl
  | cons t ts ih => simp [flatten, ih]

/-! ### The trees of a list of tokens -/

/-- Reads tokens to their end. In front of them stand the trees `done` of the innermost open level,
and the trees of each level around it, innermost first. -/
def readFrom (around : List (List Nested)) (done : List Nested) :
    List Token → Option (List Nested)
  | [] => if around.isEmpty then some done else none
  | t :: rest =>
    if t = punctuation "(" then readFrom (done :: around) [] rest
    else if t = punctuation ")" then
      around.head?.bind fun before => readFrom around.tail (before ++ [parens done]) rest
    else readFrom around (done ++ [token t]) rest

/-- The trees of a list of tokens; none if a parenthesis has no partner. -/
def ofTokens (ts : List Token) : Option (List Nested) := readFrom [] [] ts

/-- The tokens of open levels, each with its parenthesis. -/
def openTokens : List (List Nested) → List Token
  | [] => []
  | before :: around => openTokens around ++ flatten before ++ [punctuation "("]

theorem flatten_of_readFrom : ∀ (ts : List Token) {around : List (List Nested)}
    {done trees : List Nested}, readFrom around done ts = some trees →
      flatten trees = openTokens around ++ flatten done ++ ts
  | [], around, done, trees, h => by
    cases around with
    | nil =>
      obtain rfl := Option.some.inj h
      simp [openTokens]
    | cons _ _ => cases h
  | t :: rest, around, done, trees, h => by
    rw [readFrom] at h
    split at h
    · rename_i hopen
      simp [flatten_of_readFrom rest h, openTokens, flatten, hopen]
    · split at h
      · rename_i hclose
        obtain ⟨before, hbefore, h⟩ := Option.bind_eq_some_iff.1 h
        obtain ⟨around, rfl⟩ := List.head?_eq_some_iff.1 hbefore
        simp [flatten_of_readFrom rest h, openTokens, flatten, tokens, Token.parens, hclose]
      · simp [flatten_of_readFrom rest h, flatten, tokens]

/-- **Nothing is lost.** The trees have the tokens that they were made from. -/
theorem flatten_ofTokens {ts : List Token} {trees : List Nested} (h : ofTokens ts = some trees) :
    flatten trees = ts := by
  simpa [openTokens, flatten] using flatten_of_readFrom ts h

/-! ### Results for trees -/

section fold

variable {α : Type} (leaf : Token → α) (group : List (Nested × α) → α)

mutual

/-- The result for a tree: that of its token, or what is made of the trees in the parentheses and
their results. -/
def fold : Nested → α
  | .token t => leaf t
  | .parens inside => group (foldAll inside)

/-- Trees with their results. -/
def foldAll : List Nested → List (Nested × α)
  | [] => []
  | t :: rest => (t, fold t) :: foldAll rest

end

theorem foldAll_eq_map (ts : List Nested) :
    foldAll leaf group ts = ts.map fun t => (t, fold leaf group t) := by
  induction ts with
  | nil => rfl
  | cons t ts ih => rw [foldAll, ih, List.map_cons]

end fold

/-- The tree is the given token. -/
def isToken (t : Token) : Nested → Bool
  | .token s => s = t
  | .parens _ => false

/-- The name that a tree is. -/
def name? : Nested → Option String
  | .token (.name n) => some n
  | _ => none

/-- The groups of trees between commas. -/
def splitCommas {α : Type} (ts : List (Nested × α)) : List (List (Nested × α)) :=
  ts.splitOnP fun t => t.1.isToken (punctuation ",")

/-- Groups of trees with a comma between them. -/
def commas (groups : List (List Nested)) : List Nested :=
  List.intercalate [token (punctuation ",")] groups

theorem commas_cons_cons (ts us : List Nested) (groups : List (List Nested)) :
    commas (ts :: us :: groups) = ts ++ token (punctuation ",") :: commas (us :: groups) := by
  simp [commas, List.intercalate, List.intersperse]

theorem commas_singleton (ts : List Nested) : commas [ts] = ts := by
  simp [commas, List.intercalate]

/-- Groups without a comma of their own are found again, with whatever goes with each tree. -/
theorem splitCommas_map_commas {α : Type} (f : Nested → α) (group : List Nested)
    (groups : List (List Nested))
    (h : ∀ ts ∈ group :: groups, ∀ t ∈ ts, t.isToken (punctuation ",") = false) :
    splitCommas ((commas (group :: groups)).map fun t => (t, f t)) =
      (group :: groups).map (·.map fun t => (t, f t)) := by
  induction groups generalizing group with
  | nil =>
    have hgroup := h group List.mem_cons_self
    rw [commas_singleton, splitCommas, List.splitOnP_eq_singleton, List.map_singleton]
    simpa using hgroup
  | cons next groups ih =>
    have hgroup := h group List.mem_cons_self
    have hrest := ih next fun ts hts => h ts (List.mem_cons_of_mem _ hts)
    rw [splitCommas] at hrest ⊢
    rw [commas_cons_cons, List.map_append, List.map_cons,
      List.splitOnP_append_cons_of_forall_mem (by simpa using hgroup) _ rfl, hrest]
    rfl

/-- The result of a group that is a single tree. -/
def single? {α : Type} : List (Nested × Option α) → Option α
  | [(_, result)] => result
  | _ => none

/-- The results of the trees between commas; none if a group has no result or is no single tree. -/
def list? {α : Type} (ts : List (Nested × Option α)) : Option (List α) :=
  if ts.isEmpty then some [] else (splitCommas ts).mapM single?

end Nested

/-! ### Tokens and their trees -/

namespace Token

/-- Wherever they stand, the tokens have the given trees. -/
def Nests (ts : List Token) (trees : List Nested) : Prop :=
  ∀ around done rest, Nested.readFrom around done (ts ++ rest) =
    Nested.readFrom around (done ++ trees) rest

variable {s t : List Token} {a b : List Nested}

theorem Nests.ofTokens_eq (h : Nests s a) : Nested.ofTokens s = some a := by
  have hs := h [] [] []
  rw [List.append_nil, List.nil_append] at hs
  rw [Nested.ofTokens, hs]
  rfl

theorem Nests.flatten_eq (h : Nests s a) : Nested.flatten a = s :=
  Nested.flatten_ofTokens h.ofTokens_eq

theorem nests_nil : Nests [] [] := by
  intro around done rest
  rw [List.nil_append, List.append_nil]

theorem Nests.append (hs : Nests s a) (ht : Nests t b) : Nests (s ++ t) (a ++ b) := by
  intro around done rest
  rw [List.append_assoc, hs, ht, List.append_assoc]

/-- The token is no parenthesis. -/
def IsInner (t : Token) : Prop := t ≠ punctuation "(" ∧ t ≠ punctuation ")"

instance (t : Token) : Decidable t.IsInner := inferInstanceAs (Decidable (_ ∧ _))

theorem nests_token {t : Token} (h : t.IsInner) : Nests [t] [.token t] := by
  intro around done rest
  rw [List.singleton_append, Nested.readFrom, if_neg h.1, if_neg h.2]

theorem isInner_keyword (w : String) : (keyword w).IsInner := ⟨nofun, nofun⟩

theorem isInner_name (n : String) : (name n).IsInner := ⟨nofun, nofun⟩

theorem nests_tokens {ts : List Token} (h : ∀ t ∈ ts, t.IsInner) : Nests ts (ts.map .token) := by
  induction ts with
  | nil => exact nests_nil
  | cons t ts ih =>
    obtain ⟨ht, hts⟩ := List.forall_mem_cons.1 h
    exact (nests_token ht).append (ih hts)

theorem nests_keywords (ws : List String) :
    Nests (keywords ws) ((keywords ws).map .token) := by
  apply nests_tokens
  intro t ht
  obtain ⟨w, -, rfl⟩ := List.mem_map.1 ht
  exact isInner_keyword w

theorem Nests.parens (h : Nests s a) : Nests (parens s) [.parens a] := by
  intro around done rest
  rw [Token.parens, List.append_assoc, List.singleton_append, List.cons_append, Nested.readFrom,
    if_pos rfl, h, List.nil_append, Nested.readFrom, if_neg (by simp), if_pos rfl]
  rfl

theorem commas_next (s t : List Token) (groups : List (List Token)) :
    commas (s :: t :: groups) = s ++ ([punctuation ","] ++ commas (t :: groups)) := by
  simp [commas, List.intercalate, List.intersperse]

theorem Nests.commas {groups : List (List Token)} {trees : List (List Nested)}
    (h : List.Forall₂ Nests groups trees) : Nests (commas groups) (Nested.commas trees) := by
  induction h with
  | nil => exact nests_nil
  | @cons s a groups trees hs hrest ih =>
    cases hrest with
    | nil => simpa [Token.commas, List.intercalate, Nested.commas] using hs
    | @cons t b groups trees ht hrest =>
      rw [commas_next, Nested.commas_cons_cons]
      exact hs.append ((nests_token (by decide)).append ih)

/-- The tokens are those of a single tree, which is no comma and has the result. -/
def ReadsAs {α : Type} (f : Nested → Option α) (ts : List Token) (a : α) : Prop :=
  ∃ t, Nests ts [t] ∧ t.isToken (punctuation ",") = false ∧ f t = some a

/-- Tokens of single trees, with commas between them, have the results of the trees. -/
theorem exists_list? {α : Type} {f : Nested → Option α} {groups : List (List Token)}
    {results : List α} (h : List.Forall₂ (ReadsAs f) groups results) :
    ∃ ts, Nests (commas groups) ts ∧ Nested.list? (ts.map fun t => (t, f t)) = some results := by
  have htrees : ∃ trees : List Nested, List.Forall₂ Nests groups (trees.map ([·])) ∧
      (∀ t ∈ trees, t.isToken (punctuation ",") = false) ∧
      (trees.map fun t => [(t, f t)]).mapM Nested.single? = some results := by
    induction h with
    | nil => exact ⟨[], .nil, by simp, rfl⟩
    | cons hgroup _ ih =>
      obtain ⟨t, hnests, hcomma, hresult⟩ := hgroup
      obtain ⟨trees, hgroups, hcommas, hresults⟩ := ih
      exact ⟨t :: trees, .cons hnests hgroups, List.forall_mem_cons.2 ⟨hcomma, hcommas⟩,
        by simp [Nested.single?, hresult, hresults]⟩
  obtain ⟨trees, hgroups, hcommas, hresults⟩ := htrees
  refine ⟨_, Nests.commas hgroups, ?_⟩
  cases trees with
  | nil => exact hresults
  | cons t trees =>
    have hsplit := Nested.splitCommas_map_commas f [t] (trees.map ([·])) (by simpa using hcommas)
    have hne : (Nested.commas ([t] :: trees.map ([·]))).isEmpty = false := by
      cases trees with
      | nil => rfl
      | cons u trees => rw [List.map_cons, Nested.commas_cons_cons]; rfl
    rw [List.map_cons, Nested.list?, List.isEmpty_map, hne, hsplit]
    simpa [Function.comp_def] using hresults

end Token

end Discography
