import Discography.Proofs.Query.Changes
import Discography.Proofs.Query.Reals
import Discography.Proofs.Sql.Literals
import Discography.Proofs.Sql.Nesting
import Mathlib.Data.Finset.Dedup

/-!
# Insertions as a database reads them

What a database takes an insertion for. It has rows of literals for listed columns, or a row of
defaults. `DEFAULT` stands for a cell only in a dialect that lets it; in the other ones the list of
columns may not be empty either, and `DEFAULT VALUES` inserts a row of defaults. A row gives a
literal to each of its columns, and a column without a literal has its default.

## Main definitions

* `Nested.value?`: the literal that a tree is
* `Insertion`: what is read
* `Insertion.read`: the insertion of a text
* `Insertion.rows`: the rows that are inserted

## Main results

* `Statement.map_read_texts`: what the texts of an insertion are read as
-/

namespace Discography

open Token

namespace Nested

/-- The literal of a token. Integers have 64 bits. -/
def valueOfToken : Token → Option Value
  | .null => some .null
  | .boolean b => some (.boolean b)
  | .integer i => if (Int64.ofInt i).toInt = i then some (.integer (Int64.ofInt i)) else none
  | .real x => some (.real x)
  | .text s => some (.text s)
  | .blob bytes => some (.blob bytes)
  | .keyword _ | .punctuation _ | .name _ => none

/-- The literal that a tree is. -/
def value? (t : Nested) : Option Value :=
  t.fold valueOfToken fun inside => (list? inside).map .list

/-- The literal of a cell, or nothing where `DEFAULT` stands. -/
def cell? (t : Nested) : Option (Option Value) :=
  if t.isToken (keyword "DEFAULT") then some none else t.value?.map some

/-- The cells of a row. -/
def cells? : Nested → Option (List (Option Value))
  | .parens inside => list? (inside.map fun t => (t, t.cell?))
  | .token _ => none

/-- Whether a tree is a part of the name of a table. -/
def isPathPart : Nested → Bool
  | .token (.name _) => true
  | t => t.isToken (punctuation ".")

end Nested

/-- An insertion, as it is read. -/
inductive Insertion where
  /-- A row of defaults. -/
  | defaults (target : List Token)
  /-- Rows of cells for listed columns. -/
  | values (target : List Token) (columns : List String) (rows : List (List (Option Value)))

namespace Insertion

/-- Reads what follows the name of the table. -/
def ofParts (target : List Token) : List Nested → Option Insertion
  | [.token (.keyword "DEFAULT"), .token (.keyword "VALUES")] => some (defaults target)
  | .parens columns :: .token (.keyword "VALUES") :: rows => do
    let columns ← Nested.list? (columns.map fun t => (t, t.name?))
    return values target columns (← Nested.list? (rows.map fun t => (t, t.cells?)))
  | _ => none

/-- Reads trees as an insertion. -/
def ofNested : List Nested → Option Insertion
  | .token (.keyword "INSERT") :: .token (.keyword "INTO") :: ts =>
    ofParts (Nested.flatten (ts.takeWhile Nested.isPathPart)) (ts.dropWhile Nested.isPathPart)
  | _ => none

/-- Whether the database accepts the insertion: no column is listed twice, and each row has a cell
for each column. -/
def accepted (d : Dialect) : Insertion → Bool
  | defaults _ => !d.defaultInRows
  | values _ columns rows =>
    decide columns.Nodup && rows.all (·.length = columns.length) &&
      (d.defaultInRows || !columns.isEmpty && rows.all (·.all Option.isSome))

/-- The insertion of a text. -/
def read (d : Dialect) (text : String) : Option Insertion :=
  (((Lexer.lex d.style text).bind Nested.ofTokens).bind ofNested).filter (accepted d)

/-- The name of the table. -/
def target : Insertion → List Token
  | defaults target | values target _ _ => target

/-- The set of listed columns; none for a row of defaults. -/
def columnSet? : Insertion → Option (Finset String)
  | defaults _ => none
  | values _ columns _ => some columns.toFinset

/-- The literal that a row has for each column; none where the column has its default. -/
def rows : Insertion → List (String → Option Value)
  | defaults _ => [fun _ => none]
  | values _ columns rows =>
    rows.map fun cells column => ((columns.zip cells).lookup column).join

end Insertion

/-! ### Values -/

mutual

theorem Value.readsAs_tokens : ∀ v : Value, ReadsAs Nested.value? v.tokens v
  | .null => ⟨_, nests_token (by decide), rfl, rfl⟩
  | .boolean _ => ⟨_, nests_token (by simp [IsInner]), rfl, rfl⟩
  | .integer i => by
    refine ⟨_, nests_token (by simp [IsInner]), rfl, ?_⟩
    have hback : Int64.ofInt i.toInt = i := Int64.ofInt_toInt i
    rw [Nested.value?, Nested.fold, Nested.valueOfToken, hback, if_pos rfl]
  | .real _ => ⟨_, nests_token (by simp [IsInner]), rfl, rfl⟩
  | .text _ => ⟨_, nests_token (by simp [IsInner]), rfl, rfl⟩
  | .blob _ => ⟨_, nests_token (by simp [IsInner]), rfl, rfl⟩
  | .list items => by
    obtain ⟨ts, hts, hlist⟩ := exists_list? (Value.readsAs_itemsTokens items)
    refine ⟨_, hts.parens, rfl, ?_⟩
    rw [Nested.value?, Nested.fold, Nested.foldAll_eq_map]
    exact congrArg (Option.map Value.list) hlist

theorem Value.readsAs_itemsTokens : ∀ items : List Value,
    List.Forall₂ (ReadsAs Nested.value?) (itemsTokens items) items
  | [] => .nil
  | v :: rest => .cons v.readsAs_tokens (Value.readsAs_itemsTokens rest)

end

namespace Command

theorem readsAs_cellTokens (cell : Option Value) :
    ReadsAs Nested.cell? (cellTokens cell) cell := by
  cases cell with
  | none => exact ⟨_, nests_token (by decide), rfl, rfl⟩
  | some v =>
    obtain ⟨t, ht, hcomma, hvalue⟩ := v.readsAs_tokens
    refine ⟨t, ht, hcomma, ?_⟩
    -- the tree has a value, and keywords have none
    have hdefault : t.isToken (keyword "DEFAULT") = false := by
      cases t with
      | parens inside => rfl
      | token s =>
        rw [Nested.isToken, decide_eq_false_iff_not]
        rintro rfl
        cases hvalue
    rw [Nested.cell?, hdefault, hvalue]
    rfl

theorem readsAs_rowTokens (cells : List (Option Value)) :
    ReadsAs Nested.cells? (rowTokens cells) cells := by
  have hcells : List.Forall₂ (ReadsAs Nested.cell?) (cells.map cellTokens) cells := by
    rw [List.forall₂_map_left_iff]
    exact List.forall₂_same.2 fun cell _ => readsAs_cellTokens cell
  obtain ⟨ts, hts, hlist⟩ := exists_list? hcells
  exact ⟨_, hts.parens, rfl, hlist⟩

theorem mem_path {segments : List String} {t : Token} (h : t ∈ path segments) :
    (∃ n, t = name n) ∨ t = punctuation "." := by
  induction segments with
  | nil => cases h
  | cons n segments ih =>
    cases segments with
    | nil => exact .inl ⟨n, by simpa [path] using h⟩
    | cons n' segments =>
      rcases List.mem_cons.1 h with rfl | h
      · exact .inl ⟨n, rfl⟩
      · exact (List.mem_cons.1 h).elim .inr ih

theorem nests_path (segments : List String) :
    Nests (path segments) ((path segments).map .token) := by
  apply nests_tokens
  intro t ht
  rcases mem_path ht with ⟨n, rfl⟩ | rfl
  · exact isInner_name n
  · decide

theorem isPathPart_of_mem {segments : List String} {t : Nested}
    (h : t ∈ (path segments).map Nested.token) : t.isPathPart := by
  obtain ⟨s, hs, rfl⟩ := List.mem_map.1 h
  rcases mem_path hs with ⟨n, rfl⟩ | rfl <;> rfl

/-- The name of the table ends where its names and dots do. -/
theorem ofNested_path (segments : List String) {t : Nested} (ht : t.isPathPart = false)
    (ts : List Nested) :
    Insertion.ofNested ((keywords ["INSERT", "INTO"]).map Nested.token ++
      (path segments).map Nested.token ++ t :: ts) =
        Insertion.ofParts (path segments) (t :: ts) := by
  have hend : ∀ u ∈ (t :: ts).head?, u.isPathPart = false := by
    rintro u ⟨⟩
    exact ht
  have hparts : ∀ u ∈ (path segments).map Nested.token, u.isPathPart := fun u =>
    isPathPart_of_mem
  have hread : Insertion.ofNested ((keywords ["INSERT", "INTO"]).map Nested.token ++
      (path segments).map Nested.token ++ t :: ts) =
      Insertion.ofParts
        (Nested.flatten (((path segments).map Nested.token ++ t :: ts).takeWhile Nested.isPathPart))
        (((path segments).map Nested.token ++ t :: ts).dropWhile Nested.isPathPart) := rfl
  rw [hread, Text.takeWhile_append hparts hend, Text.dropWhile_append hparts hend,
    (nests_path segments).flatten_eq]

/-- What a command that inserts is read as. -/
def insertion? : Command → Option Insertion
  | insert target columns rows => some (.values target.tokens columns rows)
  | insertDefaults target => some (.defaults target.tokens)
  | _ => none

theorem ofNested_tokens {d : Dialect} {command : Command} {i : Insertion} {segments : List String}
    (horigin : command.origin = .path segments) (h : command.insertion? = some i) :
    (Nested.ofTokens (command.tokens d)).bind Insertion.ofNested = some i := by
  have hpath := nests_path segments
  cases command with
  | insert target columns rows =>
    obtain rfl : target = .path segments := horigin
    obtain rfl := Option.some.inj h
    have hcolumns : List.Forall₂ (ReadsAs Nested.name?) (columns.map fun c => [name c])
        columns := by
      rw [List.forall₂_map_left_iff]
      exact List.forall₂_same.2 fun c _ => ⟨_, nests_token (isInner_name c), rfl, rfl⟩
    have hrows : List.Forall₂ (ReadsAs Nested.cells?) (rows.map rowTokens) rows := by
      rw [List.forall₂_map_left_iff]
      exact List.forall₂_same.2 fun cells _ => readsAs_rowTokens cells
    obtain ⟨columnTrees, hcolumnTrees, hcolumnList⟩ := exists_list? hcolumns
    obtain ⟨rowTrees, hrowTrees, hrowList⟩ := exists_list? hrows
    have hnests := (((nests_keywords ["INSERT", "INTO"]).append hpath).append
      hcolumnTrees.parens).append ((nests_token (isInner_keyword "VALUES")).append hrowTrees)
    refine (congrArg (·.bind Insertion.ofNested) hnests.ofTokens_eq).trans ?_
    rw [Option.bind_some, List.append_assoc, List.singleton_append, ofNested_path segments rfl,
      List.singleton_append, Insertion.ofParts, hcolumnList, hrowList]
    rfl
  | insertDefaults target =>
    obtain rfl : target = .path segments := horigin
    obtain rfl := Option.some.inj h
    have hnests := ((nests_keywords ["INSERT", "INTO"]).append hpath).append
      (nests_keywords ["DEFAULT", "VALUES"])
    exact (congrArg (·.bind Insertion.ofNested) hnests.ofTokens_eq).trans
      (ofNested_path segments rfl _)
  | update _ _ _ => cases h
  | delete _ _ => cases h
  | truncate _ => cases h

variable {d : Dialect}

/-- The text of a command that inserts is read as its insertion. -/
theorem read_text (hd : d.Lexical) {command : Command} {i : Insertion} {segments : List String}
    {sql : Sql} (hsql : command.sql d = .ok sql) (horigin : command.origin = .path segments)
    (h : command.insertion? = some i) (haccepted : i.accepted d) :
    Insertion.read d sql.text = some i := by
  have hsound : command.origin.Sound d.style := by
    rw [horigin]
    trivial
  rw [Insertion.read, (writes_sql hd hsound hsql).lex_text, Option.bind_some,
    ofNested_tokens horigin h, Option.filter_some, if_pos haccepted]

/-- Finite values can be inserted. -/
theorem exists_sql {target : Origin} {columns : List String} {rows : List (List (Option Value))}
    (hfinite : ∀ cells ∈ rows, ∀ v, some v ∈ cells → v.IsFinite) :
    ∃ sql, (insert target columns rows).sql d = .ok sql := by
  refine (decidedBy_sql d _).exists_ok_iff.mpr fun x hx => ?_
  obtain ⟨cells, hcells, hx⟩ := List.mem_flatMap.mp hx
  obtain ⟨cell, hcell, hx⟩ := List.mem_flatMap.mp hx
  cases cell with
  | none => cases hx
  | some v => exact v.isFinite_iff_reals.mp (hfinite cells hcells v hcell) x hx

end Command

/-- The texts of commands that insert are read as their insertions. -/
theorem Statement.map_read_texts {d : Dialect} (hd : d.Lexical) {segments : List String}
    {commands : List Command} {insertions : List Insertion} {s : Statement}
    (hs : Statement.ofCommands d commands = .ok s)
    (h : List.Forall₂ (fun command i => command.origin = .path segments ∧
      command.insertion? = some i ∧ i.accepted d) commands insertions) :
    s.texts.map (Insertion.read d) = insertions.map some := by
  have hsql := Outcome.mapM_eq_ok.1 (ofCommands_eq_ok.1 hs)
  rw [texts]
  generalize s.batch = batch at hsql
  clear hs
  induction h generalizing batch with
  | nil =>
    cases hsql
    rfl
  | cons hcommand _ ih =>
    cases hsql with
    | cons hfirst hrest =>
      obtain ⟨horigin, hinsertion, haccepted⟩ := hcommand
      rw [List.map_cons, List.map_cons, ih _ hrest, List.map_cons,
        Command.read_text hd hfirst horigin hinsertion haccepted]

end Discography
