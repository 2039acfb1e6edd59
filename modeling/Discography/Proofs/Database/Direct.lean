import Discography.Proofs.Database.Server
import Discography.Proofs.Execution.Batch

/-!
# Sessions with a server, without its SQL

What a session with a server amounts to is a computation that changes the store itself: nothing is
left of the texts, of the log, and of the store that a transaction works on. A session simulates
such a computation if both have the same result and leave the same store, whatever the world is.
Then what is proved about the computation holds for the session.

## Main definitions

* `State`, `Direct`: computations on a store
* `Direct.change`, `Direct.draw`, `Direct.atomically`: their steps
* `Session.Simulates`: the simulation

## Main results

* `Session.Simulates.bind`: simulations are composed
* `Server.simulates_execute`, `Server.simulates_query`, `Server.simulates_nextIdentifier`,
  `Server.simulates_transaction`: the steps of sessions
-/

namespace Discography

variable {schema : List Relation} {ι α β : Type}

/-- A store with a clock, a random source, and what the generator of identifiers remembers. -/
structure State (schema : List Relation) (ι : Type) where
  store : Store schema
  source : ι
  stamp : Option Identifier.Stamp

/-- Computations on a store that may fail. -/
abbrev Direct (schema : List Relation) (ι : Type) := ExceptT Error (StateM (State schema ι))

namespace Direct

/-- Continues with a result, or fails. -/
def ofExcept : Except Error α → Direct schema ι α
  | .ok a => pure a
  | .error cause => throw cause

/-- Changes the store. -/
def change (f : Store schema → Except HostError (Outcome × Store schema)) :
    Direct schema ι Outcome :=
  ExceptT.mk fun x =>
    match f x.store with
    | .ok (outcome, store) => (.ok outcome, { x with store })
    | .error failure => (.error (.host failure), x)

/-- Looks at the store. -/
def look (f : Store schema → Except HostError α) : Direct schema ι α :=
  ExceptT.mk fun x => ((f x.store).mapError .host, x)

/-- Draws an identifier. -/
def draw (ids : Identifier.Source ι Error) : Direct schema ι Identifier :=
  ExceptT.mk fun x =>
    let (id, stamp, source) := Identifier.generate ids x.stamp x.source
    (id, { x with stamp, source })

/-- Changes nothing of the store in case of failure. -/
def atomically (e : Direct schema ι α) : Direct schema ι α :=
  ExceptT.mk fun x =>
    match e.run.run x with
    | (.ok a, y) => (.ok a, y)
    | (.error cause, y) => (.error cause, { y with store := x.store })

theorem run_bind (e : Direct schema ι α) (f : α → Direct schema ι β) (x : State schema ι) :
    (e >>= f).run.run x = match e.run.run x with
      | (.ok a, y) => (f a).run.run y
      | (.error cause, y) => (.error cause, y) := by
  rw [ExceptT.run_bind, StateT.run_bind]
  change (match e.run.run x with | (r, y) => _) = _
  rcases e.run.run x with ⟨cause | a, y⟩ <;> rfl

theorem run_change (f : Store schema → Except HostError (Outcome × Store schema))
    (x : State schema ι) :
    (change f).run.run x = match f x.store with
      | .ok (outcome, store) => (.ok outcome, { x with store })
      | .error failure => (.error (.host failure), x) := rfl

theorem run_ofExcept (r : Except Error α) (x : State schema ι) :
    (ofExcept r : Direct schema ι α).run.run x = (r, x) := by
  cases r <;> rfl

theorem run_atomically (e : Direct schema ι α) (x : State schema ι) :
    e.atomically.run.run x = match e.run.run x with
      | (.ok a, y) => (.ok a, y)
      | (.error cause, y) => (.error cause, { y with store := x.store }) := rfl

/-! ### What computations leave alone -/

/-- The computation does not change the rows of a relation. -/
def Keeps (relation : String) (e : Direct schema ι α) : Prop :=
  ∀ x, (e.run.run x).2.store.contents relation = x.store.contents relation

section keeps

variable {relation : String} {e : Direct schema ι α}

theorem keeps_pure (a : α) : (pure a : Direct schema ι α).Keeps relation := fun _ => rfl

theorem keeps_throw (cause : Error) : (throw cause : Direct schema ι α).Keeps relation :=
  fun _ => rfl

theorem keeps_ofExcept (r : Except Error α) : (ofExcept r : Direct schema ι α).Keeps relation := by
  cases r with
  | ok a => exact keeps_pure a
  | error cause => exact keeps_throw cause

theorem keeps_draw (ids : Identifier.Source ι Error) :
    (draw ids : Direct schema ι _).Keeps relation := fun _ => rfl

theorem keeps_change {f : Store schema → Except HostError (Outcome × Store schema)}
    (hf : ∀ s o s', f s = .ok (o, s') → s'.contents relation = s.contents relation) :
    (change f : Direct schema ι Outcome).Keeps relation := by
  intro x
  rw [run_change]
  rcases hchange : f x.store with failure | ⟨outcome, store⟩
  · rfl
  · exact hf _ _ _ hchange

theorem Keeps.bind {f : α → Direct schema ι β} (he : e.Keeps relation)
    (hf : ∀ a, (f a).Keeps relation) : (e >>= f).Keeps relation := by
  intro x
  rw [run_bind]
  rcases hx : e.run.run x with ⟨cause | a, y⟩
  · exact (congrArg (fun r => r.2.store.contents relation) hx).symm.trans (he x)
  · refine (hf a y).trans ?_
    exact (congrArg (fun r => r.2.store.contents relation) hx).symm.trans (he x)

theorem Keeps.mapM {γ : Type} {f : γ → Direct schema ι α} (hf : ∀ c, (f c).Keeps relation)
    (items : List γ) : (items.mapM f).Keeps relation := by
  induction items with
  | nil => exact keeps_pure []
  | cons c items ih =>
    rw [List.mapM_cons]
    exact (hf c).bind fun a => ih.bind fun rest => keeps_pure (a :: rest)

theorem Keeps.atomically (he : e.Keeps relation) : e.atomically.Keeps relation := by
  intro x
  rw [run_atomically]
  rcases hx : e.run.run x with ⟨cause | a, y⟩
  · rfl
  · exact (congrArg (fun r => r.2.store.contents relation) hx).symm.trans (he x)

end keeps

end Direct

/-! ### Simulation -/

/-- The state of a world, seen from inside a transaction or from outside. -/
def World.state (inTransaction : Bool) (w : World (Server schema ι)) : State schema ι :=
  ⟨if inTransaction then w.host.working else w.host.store, w.host.source, w.stamp⟩

/-- The session has the result of the computation and leaves its state. Inside a transaction, the
store that is kept stays as it is. -/
def Session.Simulates (inTransaction : Bool) (s : Session (Server schema ι) Error α)
    (e : Direct schema ι α) : Prop :=
  ∀ w, (s.run.run w).1 = (e.run.run (w.state inTransaction)).1.mapError .error ∧
    (s.run.run w).2.state inTransaction = (e.run.run (w.state inTransaction)).2 ∧
    (inTransaction = true → (s.run.run w).2.host.store = w.host.store)

namespace Session

variable {inTransaction : Bool} {s : Session (Server schema ι) Error α} {e : Direct schema ι α}

theorem simulates_pure (a : α) :
    (pure a : Session (Server schema ι) Error α).Simulates inTransaction (pure a) :=
  fun _ => ⟨rfl, rfl, fun _ => rfl⟩

theorem simulates_fail (cause : Error) :
    (fail cause : Session (Server schema ι) Error α).Simulates inTransaction (throw cause) :=
  fun _ => ⟨rfl, rfl, fun _ => rfl⟩

theorem simulates_report (event : Log.Event) :
    (report event : Session (Server schema ι) Error Unit).Simulates inTransaction (pure ()) :=
  fun _ => ⟨rfl, rfl, fun _ => rfl⟩

theorem simulates_ofExcept (r : Except Error α) :
    (ofExcept r : Session (Server schema ι) Error α).Simulates inTransaction
      (Direct.ofExcept r) := by
  cases r with
  | ok a => exact simulates_pure a
  | error cause => exact simulates_fail cause

theorem Simulates.bind {f : α → Session (Server schema ι) Error β} {g : α → Direct schema ι β}
    (hs : s.Simulates inTransaction e) (hf : ∀ a, (f a).Simulates inTransaction (g a)) :
    (s >>= f).Simulates inTransaction (e >>= g) := by
  intro w
  obtain ⟨hresult, hstate, hstore⟩ := hs w
  rw [run_bind, Direct.run_bind]
  rcases he : e.run.run (w.state inTransaction) with ⟨cause | a, y⟩
  all_goals
    rcases hw : s.run.run w with ⟨r, w'⟩
    rw [he, hw] at hresult hstate
    rw [hw] at hstore
    dsimp only at hresult hstate hstore
    obtain rfl := hresult
    obtain rfl := hstate
  · exact ⟨rfl, rfl, hstore⟩
  · obtain ⟨hresult', hstate', hstore'⟩ := hf a w'
    exact ⟨hresult', hstate', fun h => (hstore' h).trans (hstore h)⟩

theorem run_attempt {σ ε δ : Type} (s : Session σ ε α) (w : World σ) :
    (s.attempt : Session σ δ _).run.run w = (settled (s.run.run w).1, (s.run.run w).2) := rfl

/-- Nothing that is logged matters. -/
theorem Simulates.report_bind (hs : s.Simulates inTransaction e) (event : Log.Event) :
    (do report event; s : Session (Server schema ι) Error α).Simulates inTransaction e := by
  intro w
  exact hs { w with log := w.log.emit event }

theorem Simulates.bind_report {f : α → Log.Event} (hs : s.Simulates inTransaction e) :
    (do
      let a ← s
      report (f a)
      return a : Session (Server schema ι) Error α).Simulates inTransaction e := by
  have hbind := hs.bind fun a => (simulates_pure a).report_bind (f a)
  rwa [bind_pure] at hbind

theorem Simulates.mapM {γ : Type} {f : γ → Session (Server schema ι) Error α}
    {g : γ → Direct schema ι α} (hf : ∀ c, (f c).Simulates inTransaction (g c)) (items : List γ) :
    (items.mapM f).Simulates inTransaction (items.mapM g) := by
  induction items with
  | nil => exact simulates_pure []
  | cons c items ih =>
    rw [List.mapM_cons, List.mapM_cons]
    exact (hf c).bind fun a => ih.bind fun rest => simulates_pure (a :: rest)

end Session

/-! ### The steps of sessions -/

namespace Server

variable (schema) (d : Dialect) (ids : Identifier.Source ι Error)

/-- The connection to a server. -/
def connection (inTransaction : Bool) : Connection (Server schema ι) :=
  ⟨host schema d ids, inTransaction⟩

variable {schema} (inTransaction : Bool)

/-- The server reports nothing by itself. -/
theorem run_ask {r : Request} {w : World (Server schema ι)} {reply : Except HostError r.Answer}
    {server : Server schema ι}
    (hanswer : (host schema d ids).answer ⟨inTransaction, r⟩ w.host = (reply, server)) :
    ((connection schema d ids inTransaction).ask r).run.run w =
      (reply.mapError .error, { w with host := server }) := by
  have hask : ((connection schema d ids inTransaction).ask r).run.run w =
      (Session.ofExcept ((host schema d ids).answer ⟨inTransaction, r⟩ w.host).1).run.run
        { w with host := ((host schema d ids).answer ⟨inTransaction, r⟩ w.host).2 } := rfl
  rw [hask, hanswer, Session.run_ofExcept]

theorem run_perform {r : Request} {w : World (Server schema ι)} {reply : Except HostError r.Answer}
    {server : Server schema ι}
    (hanswer : (host schema d ids).answer ⟨inTransaction, r⟩ w.host = (reply, server)) :
    ((connection schema d ids inTransaction).perform r).run.run w =
      (reply.mapError fun failure => .error (.host failure), { w with host := server }) := by
  rw [Connection.perform, Session.mapError, Session.run_bind, Session.run_attempt,
    run_ask d ids inTransaction hanswer]
  cases reply <;> rfl

/-- The store that a call is about. -/
def current (inTransaction : Bool) (s : Server schema ι) : Store schema :=
  if inTransaction then s.working else s.store

/-- The server with another store in its place. -/
def put (inTransaction : Bool) (s : Server schema ι) (store : Store schema) : Server schema ι :=
  if inTransaction then { s with working := store } else { s with store }

theorem answer_execute (text : String) (s : Server schema ι) :
    (host schema d ids).answer ⟨inTransaction, .execute text⟩ s =
      s.settle (s.put inTransaction) ((s.current inTransaction).execute d text) := by
  cases inTransaction <;> rfl

theorem answer_query (text : String) (s : Server schema ι) :
    (host schema d ids).answer ⟨inTransaction, .query text⟩ s =
      ((s.current inTransaction).query d text, s) := by
  cases inTransaction <;> rfl

/-- A text changes the store as the server reads it. -/
theorem simulates_perform_execute (text : String) :
    ((connection schema d ids inTransaction).perform (.execute text)).Simulates inTransaction
      (Direct.change (·.execute d text)) := by
  intro w
  have hanswer := answer_execute d ids inTransaction text w.host
  have hcurrent : (w.state inTransaction).store = w.host.current inTransaction := rfl
  rw [Direct.run_change, hcurrent]
  rcases hexecute : (w.host.current inTransaction).execute d text with failure | ⟨outcome, store⟩
  · rw [hexecute] at hanswer
    rw [run_perform d ids inTransaction hanswer]
    exact ⟨rfl, rfl, fun _ => rfl⟩
  · rw [hexecute] at hanswer
    rw [run_perform d ids inTransaction hanswer]
    cases inTransaction
    · exact ⟨rfl, rfl, fun h => nomatch h⟩
    · exact ⟨rfl, rfl, fun _ => rfl⟩

/-- So does the statement of a single text. -/
theorem simulates_execute (sql : Sql) :
    ((⟨[sql]⟩ : Statement).execute (connection schema d ids inTransaction)).Simulates inTransaction
      (Direct.change (·.execute d sql.text)) := by
  have hone : (⟨[sql]⟩ : Statement).execute (connection schema d ids inTransaction) =
      Statement.runBatch [sql.text] (connection schema d ids inTransaction) := rfl
  rw [hone, Statement.runBatch, List.foldlM_cons]
  simp only [List.foldlM_nil, bind_pure]
  refine Session.Simulates.bind_report (Session.Simulates.report_bind ?_ _)
  rw [← bind_pure (Direct.change _)]
  refine (simulates_perform_execute d ids inTransaction sql.text).bind fun outcome => ?_
  rw [Statement.combine?_empty]
  exact Session.simulates_pure outcome

/-- A query looks at the store. -/
theorem simulates_query (text : String) :
    ((connection schema d ids inTransaction).perform (.query text)).Simulates inTransaction
      (Direct.look (·.query d text)) := by
  intro w
  have hlook : (Direct.look (fun s : Store schema => s.query d text)).run.run
      (w.state inTransaction) = (((w.host.current inTransaction).query d text).mapError .host,
        w.state inTransaction) := rfl
  rw [run_perform d ids inTransaction (answer_query d ids inTransaction text w.host), hlook]
  cases (w.host.current inTransaction).query d text <;> exact ⟨rfl, rfl, fun _ => rfl⟩

/-- The generator takes what it needs from the source. -/
theorem generate_host (last : Option Identifier.Stamp) (s : Server schema ι) :
    Identifier.generate (host schema d ids).ids last s =
      ((Identifier.generate ids last s.source).1, (Identifier.generate ids last s.source).2.1,
        { s with source := (Identifier.generate ids last s.source).2.2 }) := by
  rcases hnow : ids.now s.source with ⟨millis, source⟩
  simp only [Identifier.generate, host, hnow]
  generalize (last.bind fun stamp =>
    if stamp.millis = millis then stamp.id.successor? else none) = next
  cases next with
  | some id => rfl
  | none => rcases ids.noise source with ⟨failure | noise, source'⟩ <;> rfl

/-- An identifier is drawn in the same way. -/
theorem simulates_nextIdentifier :
    (connection schema d ids inTransaction).nextIdentifier.Simulates inTransaction
      (Direct.draw ids) := by
  intro w
  have hgenerate := generate_host d ids w.stamp w.host
  have hrun : (connection schema d ids inTransaction).nextIdentifier.run.run w =
      ((Identifier.generate (host schema d ids).ids w.stamp w.host).1.mapError .error,
        { w with
          host := (Identifier.generate (host schema d ids).ids w.stamp w.host).2.2
          stamp := (Identifier.generate (host schema d ids).ids w.stamp w.host).2.1 }) :=
    Session.run_ofExcept _ _
  rw [hrun, hgenerate]
  exact ⟨rfl, by cases inTransaction <;> rfl, fun _ => rfl⟩

section transaction

variable {body : Connection (Server schema ι) → Session (Server schema ι) Error α}
  {w w' : World (Server schema ι)}

theorem run_finish_of_ok {a : α}
    (hbody : (body (connection schema d ids true)).run.run w = (.ok a, w')) :
    ∃ log, ((connection schema d ids false).finish .full body).run.run w =
      (.ok a, { w' with host := { w'.host with store := w'.host.working }, log }) := by
  have hinside : (connection schema d ids false).inside = connection schema d ids true := rfl
  rw [Connection.finish, hinside, Session.run_bind, Session.run_attempt, hbody]
  dsimp only [Session.settled]
  rw [Session.run_bind, run_perform d ids true rfl]
  exact ⟨_, rfl⟩

theorem run_finish_of_error {cause : Error}
    (hbody : (body (connection schema d ids true)).run.run w = (.error (.error cause), w')) :
    ∃ log, ((connection schema d ids false).finish .full body).run.run w =
      (.error (.error cause), { w' with log }) := by
  have hinside : (connection schema d ids false).inside = connection schema d ids true := rfl
  rw [Connection.finish, hinside, Session.run_bind, Session.run_attempt, hbody]
  dsimp only [Session.settled]
  rw [Session.run_bind, Session.run_attempt, run_ask d ids true rfl]
  exact ⟨_, rfl⟩

/-- A transaction changes the store as a whole. -/
theorem simulates_transaction {e : Direct schema ι α}
    (hbody : (body (connection schema d ids true)).Simulates true e) :
    ((connection schema d ids false).transaction body).Simulates false (Direct.atomically e) := by
  intro w
  -- the body begins with the store that is kept, and with one more event in the log
  let w₁ : World (Server schema ι) :=
    { w with
      host := { w.host with working := w.host.store }
      log := w.log.emit (Narration.event .debug "Transaction started") }
  have hstart : ((connection schema d ids false).transaction body).run.run w =
      ((connection schema d ids false).finish .full body).run.run w₁ := by
    rw [Connection.transaction, Session.run_bind, run_perform d ids false rfl]
    rfl
  have hstate₁ : w.state false = w₁.state true := rfl
  obtain ⟨hresult, hstate, hstore⟩ := hbody w₁
  rw [hstart, Direct.run_atomically, hstate₁]
  rcases hrun : (body (connection schema d ids true)).run.run w₁ with ⟨r, w₂⟩
  rw [hrun] at hresult hstate hstore
  rcases he : e.run.run (w₁.state true) with ⟨cause | a, y⟩
  · rw [he] at hresult hstate
    obtain rfl : r = .error (.error cause) := hresult
    obtain rfl : w₂.state true = y := hstate
    obtain ⟨log, hfinish⟩ := run_finish_of_error d ids hrun
    rw [hfinish]
    exact ⟨rfl, congrArg (State.mk · w₂.host.source w₂.stamp) (hstore rfl), fun h => nomatch h⟩
  · rw [he] at hresult hstate
    obtain rfl : r = .ok a := hresult
    obtain rfl : w₂.state true = y := hstate
    obtain ⟨log, hfinish⟩ := run_finish_of_ok d ids hrun
    rw [hfinish]
    exact ⟨rfl, rfl, fun h => nomatch h⟩

end transaction

end Server

end Discography
